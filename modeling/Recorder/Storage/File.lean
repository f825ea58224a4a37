import Recorder.Storage.Keyed
import Recorder.FileSystem

/-!
# The file backend

`fileStorage` (file_recorder). A record is written to
`filepath.Join(basePath, prefix, id+".json")`, where `prefix` names the record type's directory
and `id` is `PrimaryID_RequestID`, or `RequestID` when the primary id is `nil` or empty; `Load`
reads `filepath.Join(basePath, prefix, requestID+".json")`.

`saveToFile` makes the file's directory with `os.MkdirAll` and writes it with `os.WriteFile`
(`FileSystem`): a file where a directory is needed fails with `failed to create directories:
mkdir <p>: not a directory`, a directory where the file goes with `open <path>: is a directory`.
`loadFromFile` reports every missing file as `os.ReadFile` reports a path that does not exist;
the other errors of `os.ReadFile` (a directory at the path, a file in a parent's place) are not
told apart. The mutex that serialises the calls is left out (every call here is one atomic
step); two different path strings are two files.
-/

namespace Recorder

namespace File

open FilePath

variable (basePath : String)

/-- `prefixFor` -/
def prefixFor : RecordType → Except String String :=
  prefixBy ("requests", "responses", "errors", "metrics") "unsupported record type"

/-- The path of a record's file: `filepath.Join(s.basePath, prefix, id+".json")`. -/
def filePath (pfx id : String) : String :=
  FilePath.join [basePath, pfx, id ++ ".json"]

/-- `saveToFile` -/
def saveToFile (fs : FileSystem) (pfx id : String) (data : Bytes) :
    Except String Unit × FileSystem :=
  let path := filePath basePath pfx id
  match fs.mkdirAll (dir path) with
  | .error e => (.error ("failed to create directories: " ++ e), fs)
  | .ok fs₁ =>
    match fs₁.writeFile path data with
    | .error e => (.error e, fs₁)
    | .ok fs₂ => (.ok (), fs₂)

/-- `loadFromFile`; a missing file fails as `os.ReadFile` does. -/
def loadFromFile (fs : FileSystem) (pfx id : String) : Except String Bytes :=
  let path := filePath basePath pfx id
  match fs.files path with
  | some data => .ok data
  | none => .error ("failed to read file " ++ path ++ ": open " ++ path ++
      ": no such file or directory")

/-- `Save` -/
def save (fs : FileSystem) (record : Record) : Except String Unit × FileSystem :=
  if record.payload.isEmpty then (.error "data cannot be nil or empty", fs)
  else
    match prefixFor record.type with
    | .error e => (.error e, fs)
    | .ok pfx => saveToFile basePath fs pfx (record.storageID "_") record.payload

/-- `Load` -/
def load (fs : FileSystem) (recordType : RecordType) (requestID : String) : Except String Bytes :=
  match prefixFor recordType with
  | .error e => .error e
  | .ok pfx => loadFromFile basePath fs pfx requestID

/-- `FindByTag` -/
def findByTag (_fs : FileSystem) (_tag : String) : Except String (List String) :=
  .error "FindByTag is not supported in file_recorder-based recorder"

/-- The file backend as a `Storage`. -/
def storage : Storage FileSystem :=
  ⟨save basePath, load basePath, findByTag⟩

/-- The path a record is written to, for a record type the backend knows. -/
def recordKey (record : Record) : Option String :=
  match prefixFor record.type with
  | .ok pfx => some (filePath basePath pfx (record.storageID "_"))
  | .error _ => none

variable {fs fs' : FileSystem}

/-- `saveToFile` succeeds when `MkdirAll` and then `WriteFile` do. -/
theorem saveToFile_eq_ok_iff {pfx id : String} {data : Bytes} :
    saveToFile basePath fs pfx id data = (.ok (), fs') ↔
      ∃ fs₁, fs.mkdirAll (dir (filePath basePath pfx id)) = .ok fs₁ ∧
        fs₁.writeFile (filePath basePath pfx id) data = .ok fs' := by
  unfold saveToFile
  dsimp only
  split <;> rename_i h₁
  · simp [h₁]
  · split <;> simp [h₁, *]

/-- A save succeeds when the record has a payload and a known type, and its file is written. -/
theorem save_eq_ok_iff {record : Record} :
    save basePath fs record = (.ok (), fs') ↔ record.payload ≠ [] ∧ ∃ pfx,
      prefixFor record.type = .ok pfx ∧ saveToFile basePath fs pfx (record.storageID "_")
        record.payload = (.ok (), fs') := by
  unfold save
  split_ifs with h
  · simp_all
  · cases prefixFor record.type <;> simp_all

/-- `MkdirAll` touches no file. -/
theorem mkdirAllStack_files {r : Bool} {st : List String} (h : fs.mkdirAllStack r st = .ok fs') :
    fs'.files = fs.files := by
  induction st generalizing fs' with
  | nil => cases h; rfl
  | cons e up ih =>
    simp only [FileSystem.mkdirAllStack] at h
    split at h
    · cases h
    · split_ifs at h
      · cases h; rfl
      · obtain ⟨fs₁, hm, rfl⟩ : ∃ fs₁, fs.mkdirAllStack r up = .ok fs₁ ∧
            fs₁.mkdir (render r (e :: up)) = fs' := by
          cases hm : fs.mkdirAllStack r up <;> simp_all [Except.map]
        have hfiles : fs₁.files = fs.files := ih hm
        exact hfiles

/-- What a successful save did to the files: it wrote the payload to the record's path. -/
theorem save_ok {record : Record} (h : save basePath fs record = (.ok (), fs')) :
    ∃ pfx, prefixFor record.type = .ok pfx ∧ ∀ p,
      fs' p = if p = filePath basePath pfx (record.storageID "_") then some record.payload
        else fs p := by
  obtain ⟨-, pfx, hpfx, hsave⟩ := (save_eq_ok_iff basePath).mp h
  obtain ⟨fs₁, h₁, h₂⟩ := (saveToFile_eq_ok_iff basePath).mp hsave
  refine ⟨pfx, hpfx, fun p => ?_⟩
  unfold FileSystem.writeFile at h₂
  split_ifs at h₂
  cases h₂
  simp [mkdirAllStack_files h₁]

/-- On a well-formed file system a save succeeds exactly when the record has a payload and a
known type and its file can be written, and then it leaves `place`. -/
theorem save_eq_ok_iff_canWrite (hwf : fs.WellFormed) {record : Record} :
    save basePath fs record = (.ok (), fs') ↔ record.payload ≠ [] ∧ ∃ k,
      recordKey basePath record = some k ∧ fs.CanWrite k ∧ fs' = fs.place k record.payload := by
  simp only [save_eq_ok_iff, saveToFile_eq_ok_iff, FileSystem.write_eq_ok_iff hwf, recordKey]
  cases prefixFor record.type <;> simp

/-- A successful save keeps the file system well formed. -/
theorem wellFormed_save (hwf : fs.WellFormed) {record : Record}
    (h : save basePath fs record = (.ok (), fs')) : fs'.WellFormed := by
  obtain ⟨-, k, -, hcan, rfl⟩ := (save_eq_ok_iff_canWrite basePath hwf).mp h
  exact hwf.place hcan _

/-- The file backend refines the keyed store, keyed by cleaned paths. -/
def keyedRefinement : KeyedRefinement (storage basePath) String where
  key := recordKey basePath
  read := FileSystem.files
  save_read := by
    intro fs record fs' h
    obtain ⟨pfx, hpfx, hfiles⟩ := save_ok basePath h
    exact ⟨filePath basePath pfx (record.storageID "_"), by simp [recordKey, hpfx],
      fun k => by simp only [hfiles k, eq_comm (a := k)]⟩

/-- `Load` returns the file at `Join(basePath, prefix, requestID+".json")`. -/
theorem load_of_read {fs : FileSystem} {t : RecordType} {pfx id : String} {p : Bytes}
    (ht : prefixFor t = .ok pfx) (h : fs (filePath basePath pfx id) = some p) :
    load basePath fs t id = .ok p := by
  simp [load, ht, loadFromFile, show fs.files _ = some p from h]

/-! ## Where the files are -/

/-- After a run of successful saves, `Load` returns the payload of the last save to the path it
reads. -/
theorem load_saveAll_last {fs fs' : FileSystem} {records : List Record}
    (hrun : (storage basePath).saveAll fs records = some fs') {t : RecordType} {pfx id : String}
    {p : Bytes} (ht : prefixFor t = .ok pfx)
    (hlast : lastSavedUnder (recordKey basePath) records (filePath basePath pfx id) = some p) :
    load basePath fs' t id = .ok p := by
  refine load_of_read basePath ht ?_
  have hread : fs' (filePath basePath pfx id) =
      (lastSavedUnder (recordKey basePath) records (filePath basePath pfx id)).or
        (fs (filePath basePath pfx id)) :=
    (keyedRefinement basePath).read_saveAll hrun _
  rw [hread, hlast]
  rfl

end File

end Recorder
