import Recorder.Storage.RedisIndex
import Recorder.Storage.File

/-!
# Concurrent saves

`Async()` (base_recorder.go) runs every call on its own goroutine, so the saves of one program
reach the backend concurrently. How they may interleave depends on the backend:

- the file backend holds its mutex for the whole of `saveToFile`, so concurrent saves run one at
  a time, in the order they get the mutex. A save fails on a file where its directories should
  be, or on a directory where its file should be; on a well-formed file system a run of saves
  succeeds exactly when its records are `Placeable`, which does not depend on their order
  (`saveAll_isSome_iff_placeable`). **`files_any_order`**: every order of the same saves
  succeeds when one does, and leaves the same files and directories, as long as no two of the
  records written to one path differ in payload;
- the Redis backend sends a save as several commands, `SET` of the record's key and then one
  `SADD` per tag (`saveCommands`), and the server runs the commands of concurrent saves in the
  order it receives them. **`redis_any_order`**: whatever that order (every interleaving of the
  saves' command lists is a permutation of their concatenation), the server ends with the
  values and the set members that the saves one after another leave, as long as no two of the
  records under one key differ in payload.

Both rest on one reading of the state per key: the last write under a key (`lastSavedUnder`,
`lastSet`) and the members added to a set (`mem_runCommands_sets`), which do not depend on the
order once the writes under one key agree. `EXPIRE`, which sets the TTL of a tag set, is not
modelled.
-/

namespace Recorder

/-! ## Saves in any order, through the keyed store -/

section Keyed

variable {S K : Type} [DecidableEq K]

/-- No two of the records under one key differ in payload. -/
def OnePayloadPerKey (key : Record → Option K) (records : List Record) : Prop :=
  ∀ r₁ ∈ records, ∀ r₂ ∈ records, key r₁ = key r₂ → key r₁ ≠ none → r₁.payload = r₂.payload

instance instDecidableOnePayloadPerKey (key : Record → Option K) (records : List Record) :
    Decidable (OnePayloadPerKey key records) := by
  unfold OnePayloadPerKey
  infer_instance

/-- The last payload saved under a key does not depend on the order of the saves. -/
theorem lastSavedUnder_perm {key : Record → Option K} {rs rs' : List Record} (hp : rs.Perm rs')
    (hkeys : OnePayloadPerKey key rs) (k : K) :
    lastSavedUnder key rs k = lastSavedUnder key rs' k := by
  unfold lastSavedUnder
  cases h : lastRecordUnder key rs k with
  | none =>
    rw [lastRecordUnder_eq_none.mpr fun r hr => lastRecordUnder_eq_none.mp h r (hp.mem_iff.mpr hr)]
  | some r =>
    obtain ⟨hr, hk⟩ := lastRecordUnder_mem h
    cases h' : lastRecordUnder key rs' k with
    | none => exact absurd hk (lastRecordUnder_eq_none.mp h' r (hp.mem_iff.mp hr))
    | some r' =>
      obtain ⟨hr', hk'⟩ := lastRecordUnder_mem h'
      exact congrArg some (hkeys r hr r' (hp.mem_iff.mpr hr') (hk.trans hk'.symm) (by simp [hk]))

/-- Where a backend accepts a record or not whatever its state, a run of saves succeeds exactly
when it accepts every record. -/
theorem Storage.saveAll_isSome_iff (st : Storage S) {Accepts : Record → Prop}
    (hacc : ∀ s r, (st.save s r).1 = .ok () ↔ Accepts r) :
    ∀ (rs : List Record) (s : S), (st.saveAll s rs).isSome ↔ ∀ r ∈ rs, Accepts r
  | [], _ => by simp [Storage.saveAll]
  | r :: rs, s => by
    have hr := hacc s r
    simp only [Storage.saveAll, List.mem_cons, forall_eq_or_imp]
    rcases hs : st.save s r with ⟨e | u, s'⟩
    · simp only [hs, reduceCtorEq, false_iff] at hr
      simp [hr]
    · simp only [hs, true_iff] at hr
      simp only [hr, true_and]
      exact Storage.saveAll_isSome_iff st hacc rs s'

namespace KeyedRefinement

variable {st : Storage S} (R : KeyedRefinement st K)

/-- Two runs of the same saves in two orders read the same, where no two of the records under
one key differ in payload. -/
theorem read_saveAll_perm {s s₁ s₂ : S} {rs rs' : List Record} (h₁ : st.saveAll s rs = some s₁)
    (h₂ : st.saveAll s rs' = some s₂) (hp : rs.Perm rs') (hkeys : OnePayloadPerKey R.key rs)
    (k : K) : R.read s₁ k = R.read s₂ k := by
  rw [R.read_saveAll h₁, R.read_saveAll h₂, lastSavedUnder_perm hp hkeys]

end KeyedRefinement

end Keyed

namespace File

open FilePath

variable (basePath : String)

/-- A record the backend can save into `fs` on its own: it has a payload and a known type, no
file stands among the ancestors of its directory, and no directory where its file goes. -/
def Fits (fs : FileSystem) (r : Record) : Prop :=
  r.payload ≠ [] ∧ ∃ k, recordKey basePath r = some k ∧
    (∀ q ∈ chain (dir k), fs.files q = none) ∧ fs.isDir k = false

/-- The file of `r` is not among the directories the save of `r'` makes. -/
def Apart (r r' : Record) : Prop :=
  ∀ k ∈ recordKey basePath r, ∀ k' ∈ recordKey basePath r', k ∉ chain (dir k')

/-- The saves of `rs` can all be made from `fs`: each fits on its own, and no record's file is
among the directories another one (or itself) makes. -/
def Placeable (fs : FileSystem) (rs : List Record) : Prop :=
  (∀ r ∈ rs, Fits basePath fs r) ∧ ∀ r ∈ rs, ∀ r' ∈ rs, Apart basePath r r'

/-- The directories the save of a record makes. -/
def madeDirs (r : Record) : List String :=
  match recordKey basePath r with
  | some k => chain (dir k)
  | none => []

variable {fs fs' : FileSystem}

theorem placeable_perm {rs rs' : List Record} (hp : rs.Perm rs') :
    Placeable basePath fs rs ↔ Placeable basePath fs rs' := by
  simp only [Placeable, hp.mem_iff]

/-- One save on a well-formed file system, in the terms of `Fits` and `Apart`. -/
theorem save_eq_ok_iff_fits (hwf : fs.WellFormed) {r : Record} :
    save basePath fs r = (.ok (), fs') ↔ Fits basePath fs r ∧ Apart basePath r r ∧
      ∃ k, recordKey basePath r = some k ∧ fs' = fs.place k r.payload := by
  rw [save_eq_ok_iff_canWrite basePath hwf]
  cases hk : recordKey basePath r <;> simp [Fits, Apart, FileSystem.CanWrite, hk, and_assoc]

/-- What another record needs after the save of `r`: to fit before it, and to be apart from it
both ways. -/
theorem fits_place {r r' : Record} {k : String} (hk : recordKey basePath r = some k) :
    Fits basePath (fs.place k r.payload) r' ↔
      Fits basePath fs r' ∧ Apart basePath r r' ∧ Apart basePath r' r := by
  cases hk' : recordKey basePath r' <;>
    simp [Fits, Apart, hk, hk', imp_and, forall_and, List.forall_mem_ne', and_assoc, and_left_comm]

/-- **When a run of file saves succeeds.** On a well-formed file system, a run of saves succeeds
exactly when its records are placeable, which does not depend on their order. -/
theorem saveAll_isSome_iff_placeable (hwf : fs.WellFormed) (rs : List Record) :
    ((storage basePath).saveAll fs rs).isSome ↔ Placeable basePath fs rs := by
  induction rs generalizing fs with
  | nil => simp [Storage.saveAll, Placeable]
  | cons r rs ih =>
    simp only [Storage.saveAll]
    by_cases hr : Fits basePath fs r ∧ Apart basePath r r
    · obtain ⟨k, hk, _⟩ := hr.1.2
      have hsave : (storage basePath).save fs r = (.ok (), fs.place k r.payload) :=
        (save_eq_ok_iff_fits basePath hwf).mpr ⟨hr.1, hr.2, k, hk, rfl⟩
      rw [hsave, ih (wellFormed_save basePath hwf hsave)]
      simp only [Placeable, fits_place basePath hk, List.mem_cons, forall_eq_or_imp, imp_and,
        forall_and, hr.1, hr.2, true_and]
      tauto
    · rcases hs : (storage basePath).save fs r with ⟨_ | _, fs₁⟩
      · simp only [Option.isSome_none, Bool.false_eq_true, false_iff]
        exact fun h => hr ⟨h.1 r (List.mem_cons_self r rs), h.2 r (List.mem_cons_self r rs) r
          (List.mem_cons_self r rs)⟩
      · exact absurd ((save_eq_ok_iff_fits basePath hwf).mp hs) fun h => hr ⟨h.1, h.2.1⟩

/-- The directories a run of saves leaves: those of `fs` and those the saves made. -/
theorem dirs_saveAll (hwf : fs.WellFormed) {rs : List Record}
    (h : (storage basePath).saveAll fs rs = some fs') :
    fs'.dirs = (fs.mkdirs (rs.flatMap (madeDirs basePath))).dirs := by
  induction rs generalizing fs with
  | nil =>
    cases h
    rw [List.flatMap_nil, FileSystem.mkdirs_of_isDir (by simp)]
  | cons r rs ih =>
    simp only [Storage.saveAll] at h
    rcases hs : (storage basePath).save fs r with ⟨_ | _, fs₁⟩ <;> rw [hs] at h
    · cases h
    · have hwf₁ := wellFormed_save basePath hwf hs
      obtain ⟨-, -, k, hk, rfl⟩ := (save_eq_ok_iff_fits basePath hwf).mp hs
      rw [ih hwf₁ h, List.flatMap_cons, madeDirs, hk, ← FileSystem.mkdirs_append]
      rfl

/-- **Concurrent file saves.** On a well-formed file system, whatever order the saves get the
mutex in, the same saves all succeed and leave the same files and directories, where no two of
the records written to one path differ in payload. -/
theorem files_any_order {rs rs' : List Record} (hwf : fs.WellFormed)
    (hrun : (storage basePath).saveAll fs rs = some fs') (hp : rs.Perm rs')
    (hkeys : OnePayloadPerKey (recordKey basePath) rs) :
    (storage basePath).saveAll fs rs' = some fs' := by
  have hplace := (saveAll_isSome_iff_placeable basePath hwf rs).mp (by simp [hrun])
  obtain ⟨fs₂, h₂⟩ := Option.isSome_iff_exists.mp
    ((saveAll_isSome_iff_placeable basePath hwf rs').mpr ((placeable_perm basePath hp).mp hplace))
  refine h₂.trans (congrArg some (FileSystem.ext (funext fun k =>
    ((keyedRefinement basePath).read_saveAll_perm hrun h₂ hp hkeys k).symm) ?_))
  rw [dirs_saveAll basePath hwf hrun, dirs_saveAll basePath hwf h₂,
    FileSystem.mkdirs_perm (hp.flatMap_right _)]

/-- Two requests saved in the two orders. -/
theorem files_any_order_swap :
    let r₁ : Record := ⟨"request", none, "req1", [1], []⟩
    let r₂ : Record := ⟨"request", some "order", "req2", [2], []⟩
    ∃ fs', FileSystem.empty.WellFormed ∧
      (storage "/data").saveAll FileSystem.empty [r₁, r₂] = some fs' ∧ [r₁, r₂].Perm [r₂, r₁] ∧
      OnePayloadPerKey (recordKey "/data") [r₁, r₂] ∧
      (storage "/data").saveAll FileSystem.empty [r₂, r₁] = some fs' := by
  intro r₁ r₂
  have hsome : ((storage "/data").saveAll FileSystem.empty [r₁, r₂]).isSome := by
    simp only [r₁, r₂]
    decide
  obtain ⟨fs', hrun⟩ := Option.isSome_iff_exists.mp hsome
  have hp : [r₁, r₂].Perm [r₂, r₁] := List.Perm.swap _ _ _
  have hkeys : OnePayloadPerKey (recordKey "/data") [r₁, r₂] := by
    simp only [r₁, r₂]
    decide
  exact ⟨fs', FileSystem.wellFormed_empty, hrun, hp, hkeys,
    files_any_order "/data" FileSystem.wellFormed_empty hrun hp hkeys⟩

/-- A file where the requests directory should be makes every request save fail. -/
example : (save "base" ⟨fun p => if p = "base/requests" then some [0] else none, fun _ => false⟩
    ⟨"request", none, "req1", [1], []⟩).1 =
      .error "failed to create directories: mkdir base/requests: not a directory" := by decide

end File

/-! ## Redis: the commands of a save -/

namespace Redis

variable (opts : RedisOptions) (codec : Codec)

/-- A command the Redis backend sends for a save. -/
inductive Command where
  | set (key : String) (value : Bytes)
  | sadd (key member : String)
deriving DecidableEq, Repr

/-- The server running one command. -/
def Command.run (st : RedisState) : Command → RedisState
  | .set key value => st.set key value
  | .sadd key member => st.sadd key member

/-- The server running commands in the order it receives them. -/
def runCommands (st : RedisState) (cmds : List Command) : RedisState :=
  cmds.foldl Command.run st

/-- The commands of `recordData`: `SET` of the key, then one `SADD` per tag
(`updateTagIndex`). -/
def recordDataCommands (pfx id : String) (compressedData : Bytes) (tags : Tags) : List Command :=
  .set (dataKey opts pfx id) compressedData ::
    tags.map fun e => .sadd (tagKey opts (e.1 ++ ":" ++ e.2)) (dataKey opts pfx id)

/-- The commands a `Save` of `record` sends once it is past its checks. -/
def saveCommands (record : Record) : Option (List Command) :=
  match prefixFor record.type, codec.compressData record.payload opts.compressionLvl with
  | .ok pfx, .ok c =>
    some (recordDataCommands opts pfx (record.storageID ":") c (indexTags pfx record))
  | _, _ => none

theorem runCommands_append (st : RedisState) (cmds cmds' : List Command) :
    runCommands st (cmds ++ cmds') = runCommands (runCommands st cmds) cmds' :=
  List.foldl_append _ _ _ _

/-- `recordData` is its commands, run one after another. -/
theorem recordData_eq_runCommands (st : RedisState) (pfx id : String) (c : Bytes) (tags : Tags) :
    recordData opts st pfx id c tags = (.ok (), runCommands st (recordDataCommands opts pfx id c tags)) := by
  simp only [recordData, recordDataCommands, runCommands, List.foldl_cons, List.foldl_map]
  rfl

/-- A successful `Save` is its commands, run one after another. -/
theorem save_eq_runCommands {st st' : RedisState} {record : Record} {cmds : List Command}
    (h : save opts codec st record = (.ok (), st')) (hc : saveCommands opts codec record = some cmds) :
    st' = runCommands st cmds := by
  rcases save_eq opts codec h with ⟨e, he, -⟩ | ⟨pfx, c, -, hpfx, hcomp, rfl⟩
  · cases he
  · simp only [saveCommands, hpfx, hcomp, Option.some.injEq] at hc
    rw [← hc]
    exact congrArg Prod.snd (recordData_eq_runCommands opts st pfx _ c _)

/-- The one `SET` of a save writes the record's key, with the compressed payload. -/
theorem set_mem_saveCommands {record : Record} {cmds : List Command}
    (hc : saveCommands opts codec record = some cmds) {k : String} {v : Bytes}
    (hk : Command.set k v ∈ cmds) :
    recordKey opts record = some k ∧ codec.compressData record.payload opts.compressionLvl = .ok v := by
  unfold saveCommands at hc
  split at hc
  · rename_i pfx c hpfx hcomp
    cases hc
    simp only [recordDataCommands, List.mem_cons, Command.set.injEq, List.mem_map,
      reduceCtorEq, and_false, exists_false, or_false] at hk
    obtain ⟨rfl, rfl⟩ := hk
    exact ⟨by simp [recordKey, hpfx], hcomp⟩
  · cases hc

/-! ## Redis: the server, key by key -/

/-- The value a command sets `key` to, if it is a `SET` of `key`. -/
def Command.value? (key : String) : Command → Option Bytes
  | .set k v => if k = key then some v else none
  | .sadd _ _ => none

/-- The value of the last `SET` of `key` among the commands. -/
def lastSet (key : String) : List Command → Option Bytes
  | [] => none
  | c :: cs => (lastSet key cs).or (c.value? key)

theorem run_strings (st : RedisState) (c : Command) (key : String) :
    (c.run st).strings key = (c.value? key).or (st.strings key) := by
  cases c with
  | set k v => by_cases h : k = key <;> simp [Command.run, Command.value?, h, eq_comm (a := key)]
  | sadd k m => rfl

/-- A value after a run of commands: that of the last `SET` of its key, or the one before. -/
theorem runCommands_strings (key : String) :
    ∀ (cmds : List Command) (st : RedisState),
      (runCommands st cmds).strings key = (lastSet key cmds).or (st.strings key)
  | [], _ => rfl
  | c :: cs, st => by
    rw [runCommands, List.foldl_cons, ← runCommands, runCommands_strings key cs, run_strings,
      lastSet, Option.or_assoc]

theorem mem_run_sets (st : RedisState) (c : Command) (k x : String) :
    x ∈ (c.run st).sets k ↔ x ∈ st.sets k ∨ c = .sadd k x := by
  cases c with
  | set key v => simp [Command.run]
  | sadd key m => simp [Command.run, RedisState.mem_sadd, eq_comm, and_comm]

/-- A set after a run of commands: its members before, and the members its `SADD`s add. -/
theorem mem_runCommands_sets (k x : String) :
    ∀ (cmds : List Command) (st : RedisState),
      x ∈ (runCommands st cmds).sets k ↔ x ∈ st.sets k ∨ .sadd k x ∈ cmds
  | [], _ => by simp [runCommands]
  | c :: cs, st => by
    rw [runCommands, List.foldl_cons, ← runCommands, mem_runCommands_sets k x cs, mem_run_sets,
      List.mem_cons, or_assoc, eq_comm (a := c)]

theorem value?_eq_none {key : String} {c : Command} : c.value? key = none ↔ ∀ v, .set key v ≠ c := by
  cases c with
  | set k v =>
    by_cases h : k = key
    · subst h
      exact ⟨fun h => by simp [Command.value?] at h, fun h => absurd rfl (h v)⟩
    · simp [Command.value?, h, Ne.symm h]
  | sadd k m => simp [Command.value?]

theorem lastSet_eq_none {key : String} :
    ∀ {cmds : List Command}, lastSet key cmds = none ↔ ∀ v, .set key v ∉ cmds
  | [] => by simp [lastSet]
  | c :: cs => by
    rw [lastSet, Option.or_eq_none, lastSet_eq_none, value?_eq_none]
    simp only [List.mem_cons, not_or, forall_and]
    exact and_comm

theorem mem_of_lastSet {key : String} {v : Bytes} :
    ∀ {cmds : List Command}, lastSet key cmds = some v → .set key v ∈ cmds
  | [], h => by cases h
  | c :: cs, h => by
    rw [lastSet, Option.or_eq_some] at h
    rcases h with h | ⟨-, h⟩
    · exact List.mem_cons_of_mem _ (mem_of_lastSet h)
    · cases c with
      | set k v' =>
        simp only [Command.value?] at h
        split_ifs at h with hk
        cases h
        exact hk ▸ List.mem_cons_self _ _
      | sadd k m => cases h

/-- No two `SET`s of one key with different values. -/
def SetsAgree (cmds : List Command) : Prop :=
  ∀ key v v', .set key v ∈ cmds → .set key v' ∈ cmds → v = v'

/-- Reordering commands whose `SET`s of one key agree leaves the same values and the same set
members. -/
theorem runCommands_perm {cmds cmds' : List Command} (hp : cmds.Perm cmds') (hagree : SetsAgree cmds')
    (st : RedisState) :
    (runCommands st cmds).strings = (runCommands st cmds').strings ∧
      ∀ k x, x ∈ (runCommands st cmds).sets k ↔ x ∈ (runCommands st cmds').sets k := by
  refine ⟨funext fun key => ?_, fun k x => ?_⟩
  · rw [runCommands_strings, runCommands_strings]
    congr 1
    cases h' : lastSet key cmds' with
    | none => exact lastSet_eq_none.mpr fun v hv => lastSet_eq_none.mp h' v (hp.mem_iff.mp hv)
    | some v =>
      cases h : lastSet key cmds with
      | none => exact absurd (hp.mem_iff.mpr (mem_of_lastSet h')) (lastSet_eq_none.mp h v)
      | some w => exact congrArg some (hagree key w v (hp.mem_iff.mp (mem_of_lastSet h))
          (mem_of_lastSet h'))
  · rw [mem_runCommands_sets, mem_runCommands_sets, hp.mem_iff]

/-! ## Redis: saves in any order -/

theorem exists_of_forall₂ {records : List Record} {cmds : List (List Command)}
    (hcmds : List.Forall₂ (fun r cs => saveCommands opts codec r = some cs) records cmds) :
    ∀ cs ∈ cmds, ∃ r ∈ records, saveCommands opts codec r = some cs := by
  induction hcmds with
  | nil => intro _ h; cases h
  | cons hr _ ih =>
    intro cs hcs
    rcases List.mem_cons.mp hcs with rfl | hcs
    · exact ⟨_, List.mem_cons_self _ _, hr⟩
    · obtain ⟨r, hr', h⟩ := ih cs hcs
      exact ⟨r, List.mem_cons_of_mem _ hr', h⟩

/-- A run of successful saves is their commands, run one save after another. -/
theorem saveAll_eq_runCommands {records : List Record} {cmds : List (List Command)}
    (hcmds : List.Forall₂ (fun r cs => saveCommands opts codec r = some cs) records cmds) :
    ∀ {s s' : RedisState}, (storage opts codec).saveAll s records = some s' →
      s' = runCommands s cmds.flatten := by
  induction hcmds with
  | nil => intro s s' h; cases h; rfl
  | cons hr _ ih =>
    intro s s' h
    simp only [Storage.saveAll] at h
    split at h
    · rename_i s₁ hsave
      rw [List.flatten_cons, runCommands_append, ← save_eq_runCommands opts codec hsave hr]
      exact ih h
    · cases h

/-- The `SET`s of saves whose records under one key carry one payload agree. -/
theorem setsAgree_flatten {records : List Record} (hkeys : OnePayloadPerKey (recordKey opts) records)
    {cmds : List (List Command)}
    (hcmds : List.Forall₂ (fun r cs => saveCommands opts codec r = some cs) records cmds) :
    SetsAgree cmds.flatten := by
  intro key v v' hv hv'
  obtain ⟨cs, hcs, hv⟩ := List.mem_flatten.mp hv
  obtain ⟨cs', hcs', hv'⟩ := List.mem_flatten.mp hv'
  obtain ⟨r, hr, hc⟩ := exists_of_forall₂ opts codec hcmds cs hcs
  obtain ⟨r', hr', hc'⟩ := exists_of_forall₂ opts codec hcmds cs' hcs'
  obtain ⟨hk, hv⟩ := set_mem_saveCommands opts codec hc hv
  obtain ⟨hk', hv'⟩ := set_mem_saveCommands opts codec hc' hv'
  have hpay := hkeys r hr r' hr' (hk.trans hk'.symm) (by simp [hk])
  rw [hpay, hv'] at hv
  exact (Except.ok.inj hv).symm

/-- **Concurrent Redis saves.** Whatever order the server receives the commands of concurrent
saves in, it ends with the values and the set members that the saves one after another leave,
where no two of the records under one key differ in payload. -/
theorem redis_any_order {s s' : RedisState} {records : List Record}
    (hrun : (storage opts codec).saveAll s records = some s')
    (hkeys : OnePayloadPerKey (recordKey opts) records) {cmds : List (List Command)}
    (hcmds : List.Forall₂ (fun r cs => saveCommands opts codec r = some cs) records cmds)
    {received : List Command} (hperm : received.Perm cmds.flatten) :
    (runCommands s received).strings = s'.strings ∧
      ∀ k x, x ∈ (runCommands s received).sets k ↔ x ∈ s'.sets k := by
  rw [saveAll_eq_runCommands opts codec hcmds hrun]
  exact runCommands_perm hperm (setsAgree_flatten opts codec hkeys hcmds) s

/-- Two requests tagged `env=prod`, the second's commands received between the first's `SET`
and its `SADD`s. -/
theorem redis_any_order_interleaved :
    let opts : RedisOptions := ⟨"recorder", 3⟩
    let codec : Codec := ⟨fun d _ => .ok d, .ok⟩
    let r₁ : Record := ⟨"request", none, "req1", [1], [("env", "prod")]⟩
    let r₂ : Record := ⟨"request", none, "req2", [2], [("env", "prod")]⟩
    let c₁ := recordDataCommands opts "request" "req1" [1] (indexTags "request" r₁)
    let c₂ := recordDataCommands opts "request" "req2" [2] (indexTags "request" r₂)
    let s' := (save opts codec (save opts codec RedisState.empty r₁).2 r₂).2
    let received := c₁.take 1 ++ c₂ ++ c₁.drop 1
    (storage opts codec).saveAll RedisState.empty [r₁, r₂] = some s' ∧
      OnePayloadPerKey (recordKey opts) [r₁, r₂] ∧
      List.Forall₂ (fun r cs => saveCommands opts codec r = some cs) [r₁, r₂] [c₁, c₂] ∧
      received.Perm [c₁, c₂].flatten ∧
      (runCommands RedisState.empty received).strings = s'.strings ∧
      ∀ k x, x ∈ (runCommands RedisState.empty received).sets k ↔ x ∈ s'.sets k := by
  intro opts codec r₁ r₂ c₁ c₂ s' received
  have hrun : (storage opts codec).saveAll RedisState.empty [r₁, r₂] = some s' := rfl
  have hkeys : OnePayloadPerKey (recordKey opts) [r₁, r₂] := by
    simp only [opts, r₁, r₂]
    decide
  have hcmds : List.Forall₂ (fun r cs => saveCommands opts codec r = some cs) [r₁, r₂] [c₁, c₂] :=
    .cons rfl (.cons rfl .nil)
  have hperm : received.Perm [c₁, c₂].flatten := by
    simp only [received, List.flatten_cons, List.flatten_nil, List.append_nil, List.append_assoc]
    exact (List.perm_append_comm.append_left _).trans
      (by rw [← List.append_assoc, List.take_append_drop])
  exact ⟨hrun, hkeys, hcmds, hperm, redis_any_order opts codec hrun hkeys hcmds hperm⟩

end Redis

end Recorder
