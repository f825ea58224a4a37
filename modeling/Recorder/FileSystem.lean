import Recorder.FilePath
import Recorder.Storage.Record

/-!
# Files and directories

The part of `os` the file backend calls: `os.MkdirAll` and `os.WriteFile` in `saveToFile`, and
`os.ReadFile` in `loadFromFile`. A file system holds files (path to contents) and directories,
both keyed by path strings; the root, the working directory and its ancestors
(`FilePath.upward`) always exist as directories.

- `mkdirAll` walks the path and its ancestors as `os.MkdirAll` does. A file on the way fails
  with `mkdir <p>: not a directory`. The first existing directory stops the walk, and the
  missing ones below it are made, top first.
- `writeFile` fails with `open <path>: is a directory` on a directory, else replaces the file.
  It is only called after `MkdirAll` of the file's directory, so a missing parent is not
  modelled.
- `WellFormed`: every directory's ancestors are directories, and no path is both a file and a
  directory. On a well-formed system, `mkdirAll_eq_ok_iff` says exactly when `MkdirAll`
  succeeds (no file among the path and its ancestors) and what it leaves (`mkdirs`), and
  `write_eq_ok_iff` does the same for `MkdirAll(Dir(path))` followed by `WriteFile(path)`.
  Both keep the system well formed.

Permissions, symbolic links and I/O errors are left out.
-/

namespace Recorder

open FilePath

/-- Files by path, and the directories that exist. -/
@[ext]
structure FileSystem where
  files : String → Option Bytes
  dirs : String → Bool

/-- A file system reads as its files. -/
instance instCoeFunFileSystem : CoeFun FileSystem (fun _ => String → Option Bytes) :=
  ⟨FileSystem.files⟩

namespace FileSystem

/-- No files, and no directories but the ones that always exist. -/
def empty : FileSystem := ⟨fun _ => none, fun _ => false⟩

/-- `Stat(p)` succeeds and `IsDir()`. -/
def isDir (fs : FileSystem) (p : String) : Bool := fs.dirs p || upward p

/-- `os.Mkdir(p)`, once its parent exists. -/
def mkdir (fs : FileSystem) (p : String) : FileSystem :=
  { fs with dirs := fun q => decide (q = p) || fs.dirs q }

/-- `os.MkdirAll` on the path rendered from `rooted` and a stack: stat the path; a file fails, a
directory ends the walk, and a missing path makes its parent first, then itself. -/
def mkdirAllStack (fs : FileSystem) (rooted : Bool) : List String → Except String FileSystem
  | [] => .ok fs
  | e :: up =>
    let path := render rooted (e :: up)
    match fs.files path with
    | some _ => .error ("mkdir " ++ path ++ ": not a directory")
    | none => if fs.isDir path then .ok fs else (mkdirAllStack fs rooted up).map (·.mkdir path)

/-- `os.MkdirAll` -/
def mkdirAll (fs : FileSystem) (path : String) : Except String FileSystem :=
  mkdirAllStack fs (rooted path) (stack path)

/-- `os.WriteFile`, once the file's directory exists. -/
def writeFile (fs : FileSystem) (path : String) (data : Bytes) : Except String FileSystem :=
  if fs.isDir path then .error ("open " ++ path ++ ": is a directory")
  else .ok { fs with files := fun p => if p = path then some data else fs.files p }

example : (empty.mkdirAll "base/requests").map (fun fs => (fs.dirs "base", fs.dirs "base/requests")) =
    .ok (true, true) := by decide
example : ((⟨fun p => if p = "base" then some [] else none, fun _ => false⟩ : FileSystem).mkdirAll
    "base/requests").map (fun _ => ()) = .error "mkdir base: not a directory" := by decide

/-- The directories of `fs` and those among `ps` that do not always exist. -/
def mkdirs (fs : FileSystem) (ps : List String) : FileSystem :=
  { fs with dirs := fun q => fs.dirs q || (decide (q ∈ ps) && !upward q) }

/-- What `MkdirAll(Dir(path))` and `WriteFile(path, data)` leave when both succeed. -/
def place (fs : FileSystem) (path : String) (data : Bytes) : FileSystem :=
  { fs.mkdirs (chain (dir path)) with
    files := fun p => if p = path then some data else fs.files p }

/-- `path` can be written into `fs`: no file stands among the directory's ancestors, and no
directory, existing or made on the way, where the file goes. -/
def CanWrite (fs : FileSystem) (path : String) : Prop :=
  (∀ q ∈ chain (dir path), fs.files q = none) ∧ fs.isDir path = false ∧ path ∉ chain (dir path)

/-- A file system as the kernel keeps it: the ancestors of a directory are directories, and no
path is both a file and a directory. -/
structure WellFormed (fs : FileSystem) : Prop where
  dirs_closed : ∀ p, fs.dirs p = true → ∀ q ∈ chain p, fs.isDir q = true
  files_not_dirs : ∀ p, fs.files p ≠ none → fs.isDir p = false

variable {fs fs' : FileSystem}

theorem wellFormed_empty : empty.WellFormed :=
  ⟨fun _ h => (by cases h), fun _ h => absurd rfl h⟩

@[simp] theorem mkdirs_files (ps : List String) : (fs.mkdirs ps).files = fs.files := rfl

theorem place_files (path : String) (data : Bytes) :
    (fs.place path data).files = fun p => if p = path then some data else fs.files p := rfl

@[simp] theorem place_files_eq_none {path q : String} {data : Bytes} :
    (fs.place path data).files q = none ↔ q ≠ path ∧ fs.files q = none := by
  by_cases h : q = path <;> simp [place, h]

@[simp] theorem isDir_mkdirs (ps : List String) (q : String) :
    (fs.mkdirs ps).isDir q = (fs.isDir q || decide (q ∈ ps)) := by
  simp only [isDir, mkdirs]
  cases fs.dirs q <;> cases upward q <;> simp

@[simp] theorem isDir_place (path : String) (data : Bytes) (q : String) :
    (fs.place path data).isDir q = (fs.isDir q || decide (q ∈ chain (dir path))) :=
  isDir_mkdirs _ q

theorem mkdirs_append (a b : List String) : (fs.mkdirs a).mkdirs b = fs.mkdirs (a ++ b) := by
  ext q <;> simp only [mkdirs, List.mem_append]
  cases fs.dirs q <;> cases upward q <;> simp [or_comm]

theorem mkdirs_perm {ps ps' : List String} (h : ps.Perm ps') : fs.mkdirs ps = fs.mkdirs ps' := by
  simp only [mkdirs, h.mem_iff]

/-- A walk over directories that all exist adds none. -/
theorem mkdirs_of_isDir {ps : List String} (h : ∀ q ∈ ps, fs.isDir q = true) : fs.mkdirs ps = fs := by
  ext q
  · rfl
  · by_cases hq : q ∈ ps
    · have := h q hq
      simp only [isDir, Bool.or_eq_true] at this
      rcases this with h' | h' <;> simp [mkdirs, h']
    · simp [mkdirs, hq]

theorem mkdir_mkdirs {p : String} (hp : upward p = false) (ps : List String) :
    (fs.mkdirs ps).mkdir p = fs.mkdirs (p :: ps) := by
  ext q
  · rfl
  · by_cases hq : q = p
    · subst hq
      simp [mkdir, mkdirs, hp]
    · simp [mkdir, mkdirs, hq]

/-! ## `MkdirAll` on a well-formed file system -/

section Walk

variable (hwf : fs.WellFormed) {r : Bool} {st : List String} (hst : ∀ e ∈ st, Kept e)
include hwf hst

/-- Above an existing directory of the walk, every path is a directory. -/
theorem isDir_ancestry (hd : fs.isDir (render r st) = true) : ∀ q ∈ ancestry r st, fs.isDir q = true := by
  have hrt := stack_render r hst
  simp only [isDir, Bool.or_eq_true] at hd
  rcases hd with hd | hu
  · have := hwf.dirs_closed _ hd
    rwa [chain, hrt.1, hrt.2] at this
  · rw [upward, hrt.1] at hu
    exact fun q hq => by simp [isDir, upward_of_mem_ancestry hst hu hq]

/-- Where no file stands on the walk, `MkdirAll` makes the missing directories. -/
theorem mkdirAllStack_of_free (hfree : ∀ q ∈ ancestry r st, fs.files q = none) :
    fs.mkdirAllStack r st = .ok (fs.mkdirs (ancestry r st)) := by
  induction st with
  | nil => exact congrArg Except.ok (mkdirs_of_isDir (by simp [ancestry])).symm
  | cons e up ih =>
    have hup : ∀ e ∈ up, Kept e := fun x hx => hst x (List.mem_cons_of_mem e hx)
    simp only [mkdirAllStack, hfree _ (List.mem_cons_self _ _)]
    split_ifs with hd
    · rw [mkdirs_of_isDir (isDir_ancestry hwf hst hd)]
    · rw [ih hup fun q hq => hfree q (List.mem_cons_of_mem _ hq)]
      have hu : upward (render r (e :: up)) = false := by simp_all [isDir]
      exact congrArg Except.ok (mkdir_mkdirs hu _)

/-- A successful `MkdirAll` found no file on its walk. -/
theorem free_of_mkdirAllStack (h : fs.mkdirAllStack r st = .ok fs') :
    ∀ q ∈ ancestry r st, fs.files q = none := by
  induction st generalizing fs' with
  | nil => simp [ancestry]
  | cons e up ih =>
    have hup : ∀ e ∈ up, Kept e := fun x hx => hst x (List.mem_cons_of_mem e hx)
    simp only [mkdirAllStack] at h
    split at h
    · cases h
    · rename_i hnone
      split_ifs at h with hd
      · intro q hq
        by_contra hf
        exact absurd (isDir_ancestry hwf hst hd q hq) (by simp [hwf.files_not_dirs q hf])
      · obtain ⟨fs₁, h₁⟩ : ∃ fs₁, fs.mkdirAllStack r up = .ok fs₁ := by
          cases hm : fs.mkdirAllStack r up <;> simp_all [Except.map]
        rintro q (_ | ⟨_, hq⟩)
        exacts [hnone, ih hup h₁ q hq]

end Walk

/-- On a well-formed file system, `MkdirAll(d)` succeeds exactly when no file stands among `d`
and its ancestors, and then it makes the missing ones. -/
theorem mkdirAll_eq_ok_iff (hwf : fs.WellFormed) (d : String) :
    fs.mkdirAll d = .ok fs' ↔ (∀ q ∈ chain d, fs.files q = none) ∧ fs' = fs.mkdirs (chain d) := by
  have hst : ∀ e ∈ stack d, Kept e := fun _ => kept_of_mem_stack
  constructor
  · intro h
    have hfree := free_of_mkdirAllStack hwf hst h
    exact ⟨hfree, Except.ok.inj (h.symm.trans (mkdirAllStack_of_free hwf hst hfree))⟩
  · rintro ⟨hfree, rfl⟩
    exact mkdirAllStack_of_free hwf hst hfree

/-- On a well-formed file system, `MkdirAll(Dir(path))` and then `WriteFile(path)` both succeed
exactly when `path` can be written, and leave `place`. -/
theorem write_eq_ok_iff (hwf : fs.WellFormed) (path : String) (data : Bytes) :
    (∃ fs₁, fs.mkdirAll (dir path) = .ok fs₁ ∧ fs₁.writeFile path data = .ok fs') ↔
      fs.CanWrite path ∧ fs' = fs.place path data := by
  simp only [mkdirAll_eq_ok_iff hwf, writeFile, CanWrite]
  constructor
  · rintro ⟨_, ⟨hfree, rfl⟩, h⟩
    split_ifs at h with hd
    simp only [isDir_mkdirs, Bool.or_eq_true, decide_eq_true_eq, not_or, Bool.not_eq_true] at hd
    exact ⟨⟨hfree, hd⟩, (Except.ok.inj h).symm⟩
  · rintro ⟨⟨hfree, hd, hmem⟩, rfl⟩
    exact ⟨_, ⟨hfree, rfl⟩, by simp [hd, hmem]; rfl⟩

/-- Writing a file the system can take keeps it well formed. -/
theorem WellFormed.place (hwf : fs.WellFormed) {path : String} (h : fs.CanWrite path)
    (data : Bytes) : (fs.place path data).WellFormed := by
  have hst : ∀ e ∈ stack (dir path), Kept e := fun _ => kept_of_mem_stack
  constructor
  · intro p hp q hq
    simp only [FileSystem.place, mkdirs, Bool.or_eq_true, Bool.and_eq_true, decide_eq_true_eq] at hp
    rw [isDir_place, Bool.or_eq_true]
    rcases hp with hd | ⟨hp, -⟩
    · exact .inl (hwf.dirs_closed p hd q hq)
    · exact .inr (decide_eq_true (chain_subset_of_mem hst hp q hq))
  · intro p hp
    simp only [place_files] at hp
    split_ifs at hp with hpath
    · simp [hpath, h.2.1, h.2.2]
    · rw [isDir_place, hwf.files_not_dirs p hp]
      simpa using fun hq => hp (h.1 p hq)

end FileSystem

end Recorder
