import Recorder.Calls
import Recorder.Storage.Keyed
import Recorder.Value
import Mathlib.Data.List.Sort

/-!
# The callback backend

`callback_recorder` (unnamed/part_004): a storage whose three methods are functions the caller
hands over (`Options.Save`, `Load`, `Find`); a `nil` one fails with its own error, and
`New(opts, recorderOpts...)` is the base recorder over that storage.

The example program of examples/callback keeps its records in memory (`memStore`): one payload
per record type and request id, and a tag index from `k:v` to the set of `type:requestID`;
`Find` returns the set sorted (`sort.Strings`). Its mutex makes every call one step.

- `callbackStorage_missing`: a missing callback fails, and a failed save leaves the state as it
  was;
- `MemStore.keyedRefinement`: the store refines the keyed store under the pair of record type and
  request id, so after any run of saves `Load` returns the last payload saved under the pair
  (`MemStore.load_saveAll_last`), whatever the primary ids, unlike the Redis and file backends;
- `MemStore.find_saveAll`: after any run of saves, `Find(tag)` returns, strictly increasing, the
  `type:requestID` of every record saved with a tag `k=v` that reads `tag` as `k:v`, besides what
  the tag's set held before;
- `MemStore.find_order_independent`: saves run in any order leave the same answer to every
  `Find`;
- `MemStore.find_keys_loadable`: the index stays sound (`IndexSound`) over every run of calls of
  the example's recorder, whatever its options, so every key `FindByTag` returns can be loaded.
-/

namespace Recorder

namespace Callback

variable {S : Type}

/-- `callback_recorder.Options`: each callback, or `nil`. -/
structure Options (S : Type) where
  save : Option (S → Record → Except String Unit × S)
  load : Option (S → RecordType → String → Except String Bytes)
  find : Option (S → String → Except String (List String))

/-- `callbackStorage` -/
def callbackStorage (opts : Options S) : Storage S where
  save s record := match opts.save with
    | none => (.error "save not supported: no SaveFunc provided", s)
    | some save => save s record
  load s recordType requestID := match opts.load with
    | none => .error "load not supported: no LoadFunc provided"
    | some load => load s recordType requestID
  findByTag s tag := match opts.find with
    | none => .error "FindByTag is not supported in callback_recorder when FindFunc is nil"
    | some find => find s tag

/-- `callback_recorder.New` -/
def new (opts : Options S) (recorderOpts : List (Option RecorderOption)) : BaseRecorder S :=
  Recorder.new (callbackStorage opts) recorderOpts

/-- A missing callback fails with its own error, and a failed save leaves the state as it was. -/
theorem callbackStorage_missing (opts : Options S) (s : S) :
    (opts.save = none → ∀ r, (callbackStorage opts).save s r =
      (.error "save not supported: no SaveFunc provided", s)) ∧
    (opts.load = none → ∀ t id, (callbackStorage opts).load s t id =
      .error "load not supported: no LoadFunc provided") ∧
    (opts.find = none → ∀ tag, (callbackStorage opts).findByTag s tag =
      .error "FindByTag is not supported in callback_recorder when FindFunc is nil") := by
  refine ⟨fun h r => ?_, fun h t id => ?_, fun h tag => ?_⟩ <;> simp [callbackStorage, h]

end Callback

/-! ## The example's in-memory store -/

/-- The order `sort.Strings` sorts by: `a ≤ b` when not `b < a` in Go's string order. -/
def StringLe (a b : String) : Prop := Value.stringLess b a = false

instance instDecidableRelStringLe : DecidableRel StringLe :=
  fun a b => inferInstanceAs (Decidable (Value.stringLess b a = false))

instance instIsTransStringLe : IsTrans String StringLe where
  trans a b c (hab : Value.stringLess b a = false) (hbc : Value.stringLess c b = false) := by
    show Value.stringLess c a = false
    cases hca : Value.stringLess c a
    · rfl
    · by_cases hcb : c = b
      · subst hcb
        simp_all
      · rcases Value.stringLess_total hcb with h | h
        · simp_all
        · simp_all [Value.stringLess_trans h hca]

instance instIsTotalStringLe : IsTotal String StringLe where
  total a b := by
    by_cases hab : a = b
    · simp [StringLe, hab, Value.stringLess_irrefl]
    · rcases Value.stringLess_total hab with h | h <;> simp [StringLe, h, Value.stringLess_asymm h]

instance instIsAntisymmStringLe : IsAntisymm String StringLe where
  antisymm a b (hab : Value.stringLess b a = false) (hba : Value.stringLess a b = false) :=
    not_not.mp fun hne => by
      rcases Value.stringLess_total hne with h | h <;> simp_all

/-- `sort.Strings` -/
def sortStrings (l : List String) : List String :=
  l.insertionSort StringLe

theorem sortStrings_perm (l : List String) : (sortStrings l).Perm l :=
  List.perm_insertionSort _ _

/-- Two lists without duplicates and with the same members sort to the same list. -/
theorem sortStrings_eq {l l' : List String} (hnd : l.Nodup) (hnd' : l'.Nodup)
    (hmem : ∀ x, x ∈ l ↔ x ∈ l') : sortStrings l = sortStrings l' := by
  have hp : l.Perm l' := (List.perm_ext_iff_of_nodup hnd hnd').mpr hmem
  exact List.eq_of_perm_of_sorted (((sortStrings_perm l).trans hp).trans (sortStrings_perm l').symm)
    (List.sorted_insertionSort StringLe l) (List.sorted_insertionSort StringLe l')

/-- `sort.Strings` of a list without duplicates is strictly increasing. -/
theorem sorted_sortStrings {l : List String} (hnd : l.Nodup) :
    (sortStrings l).Pairwise fun a b => Value.stringLess a b := by
  refine ((List.sorted_insertionSort StringLe l).and ((sortStrings_perm l).nodup_iff.mpr hnd)).imp
    fun ⟨h, hne⟩ => ?_
  exact (Value.stringLess_total hne).resolve_right (by simpa using h)

/-- `set[member] = struct{}{}` on the set of `key`. -/
def addMember (index : String → List String) (key member : String) : String → List String :=
  fun k => if k = key ∧ member ∉ index k then index k ++ [member] else index k

/-- The loop over `r.Tags` in `memStore.Save`: `composite` added to the set of each `k:v`. -/
def indexTags (index : String → List String) (tags : Tags) (composite : String) :
    String → List String :=
  tags.foldl (fun index e => addMember index (e.1 ++ ":" ++ e.2) composite) index

theorem mem_addMember {index : String → List String} {key member k x : String} :
    x ∈ addMember index key member k ↔ x ∈ index k ∨ (k = key ∧ x = member) := by
  simp only [addMember]
  split_ifs with h
  · simp only [List.mem_append, List.mem_singleton, h.1, true_and]
  · refine ⟨.inl, ?_⟩
    rintro (hx | ⟨rfl, rfl⟩)
    · exact hx
    · exact not_not.mp fun hm => h ⟨rfl, hm⟩

theorem nodup_addMember {index : String → List String} (h : ∀ k, (index k).Nodup)
    (key member k : String) : (addMember index key member k).Nodup := by
  simp only [addMember]
  split_ifs with hk
  · exact List.nodup_append.mpr ⟨h k, List.nodup_singleton _, List.disjoint_singleton.mpr hk.2⟩
  · exact h k

theorem mem_indexTags {composite k x : String} :
    ∀ {index : String → List String} {tags : Tags}, x ∈ indexTags index tags composite k ↔
      x ∈ index k ∨ (x = composite ∧ ∃ e ∈ tags, e.1 ++ ":" ++ e.2 = k)
  | _, [] => by simp [indexTags]
  | index, e :: rest => by
    show x ∈ indexTags (addMember index (e.1 ++ ":" ++ e.2) composite) rest composite k ↔ _
    rw [mem_indexTags, mem_addMember]
    simp only [List.mem_cons, exists_eq_or_imp]
    constructor
    · rintro ((hx | ⟨rfl, rfl⟩) | ⟨rfl, he⟩)
      exacts [.inl hx, .inr ⟨rfl, .inl rfl⟩, .inr ⟨rfl, .inr he⟩]
    · rintro (hx | ⟨rfl, rfl | he⟩)
      exacts [.inl (.inl hx), .inl (.inr ⟨rfl, rfl⟩), .inr ⟨rfl, he⟩]

theorem nodup_indexTags {composite : String} :
    ∀ {index : String → List String} {tags : Tags}, (∀ k, (index k).Nodup) →
      ∀ k, (indexTags index tags composite k).Nodup
  | _, [], h => h
  | index, e :: rest, h =>
    @nodup_indexTags composite (addMember index (e.1 ++ ":" ++ e.2) composite) rest
      (nodup_addMember h _ _)

/-- `memStore` of examples/callback: payloads by record type and request id, and the tag index,
whose sets (Go's `map[string]struct{}`) hold each member once. -/
structure MemStore where
  data : RecordType → String → Option Bytes
  index : String → List String
  index_nodup : ∀ key, (index key).Nodup

namespace MemStore

/-- `newMemStore` -/
def empty : MemStore := ⟨fun _ _ => none, fun _ => [], fun _ => List.nodup_nil⟩

/-- `memStore.Save`: the payload under its type and request id; with tags, the record's
`type:requestID` added to the set of each `k:v`. -/
def save (m : MemStore) (r : Record) : Except String Unit × MemStore :=
  let data := fun t id => if t = r.type ∧ id = r.requestID then some r.payload else m.data t id
  if r.tags.isEmpty then (.ok (), { m with data := data })
  else
    let composite := r.type ++ ":" ++ r.requestID
    (.ok (), ⟨data, indexTags m.index r.tags composite, nodup_indexTags m.index_nodup⟩)

/-- `memStore.Load` -/
def load (m : MemStore) (t : RecordType) (requestID : String) : Except String Bytes :=
  match m.data t requestID with
  | some b => .ok b
  | none => .error ("not found: " ++ t ++ "/" ++ requestID)

/-- `memStore.Find`: the set of the tag, sorted; `nil` when it is empty. -/
def find (m : MemStore) (tag : String) : Except String (List String) :=
  if (m.index tag).isEmpty then .ok [] else .ok (sortStrings (m.index tag))

/-- The example's storage: the callback backend over the store's three methods. -/
def storage : Storage MemStore :=
  Callback.callbackStorage ⟨some save, some load, some find⟩

/-- The example's recorder: `callback_recorder.New` over the store's three methods (`main`
passes no options). -/
def recorder (opts : List (Option RecorderOption)) : BaseRecorder MemStore :=
  Callback.new ⟨some save, some load, some find⟩ opts

@[simp] theorem recorder_storage (opts : List (Option RecorderOption)) :
    (recorder opts).storage = storage := rfl

@[simp] theorem storage_findByTag (m : MemStore) (tag : String) :
    storage.findByTag m tag = find m tag := rfl

theorem storage_save (m : MemStore) (r : Record) : storage.save m r = (.ok (), (save m r).2) := by
  simp only [storage, Callback.callbackStorage, save]
  split <;> rfl

theorem save_data (m : MemStore) (r : Record) (t : RecordType) (id : String) :
    (save m r).2.data t id = if t = r.type ∧ id = r.requestID then some r.payload else m.data t id := by
  simp only [save]
  split <;> rfl

theorem mem_save_index {m : MemStore} {r : Record} {k x : String} :
    x ∈ (save m r).2.index k ↔
      x ∈ m.index k ∨ (x = r.type ++ ":" ++ r.requestID ∧ ∃ e ∈ r.tags, e.1 ++ ":" ++ e.2 = k) := by
  simp only [save]
  split_ifs with htags
  · simp [List.isEmpty_iff.mp htags]
  · exact mem_indexTags

theorem find_eq (m : MemStore) (tag : String) : find m tag = .ok (sortStrings (m.index tag)) := by
  simp only [find]
  split_ifs with h
  · rw [List.isEmpty_iff.mp h]
    rfl
  · rfl

/-- The example's store refines the keyed store, under the record type and the request id. -/
def keyedRefinement : KeyedRefinement storage (RecordType × String) where
  key r := some (r.type, r.requestID)
  read m k := m.data k.1 k.2
  save_read m r m' h := by
    rw [storage_save] at h
    cases h
    refine ⟨(r.type, r.requestID), rfl, fun k => ?_⟩
    simp only [save_data, Prod.ext_iff, eq_comm (a := k.1), eq_comm (a := k.2)]

/-- After any run of saves, `Load` returns the last payload saved under the record type and the
request id, whatever the records' primary ids. -/
theorem load_saveAll_last {m m' : MemStore} {records : List Record}
    (hrun : storage.saveAll m records = some m') {t : RecordType} {id : String} {p : Bytes}
    (hlast : lastSavedUnder keyedRefinement.key records (t, id) = some p) :
    load m' t id = .ok p := by
  have hread := keyedRefinement.read_saveAll hrun (t, id)
  rw [hlast] at hread
  simp only [keyedRefinement, Option.or_some] at hread
  simp only [load, hread]

/-- Every run of saves succeeds. -/
theorem saveAll_eq : ∀ (records : List Record) (m : MemStore),
    storage.saveAll m records = some (records.foldl (fun m r => (save m r).2) m)
  | [], _ => rfl
  | r :: rs, m => by simp only [Storage.saveAll, storage_save, List.foldl_cons, saveAll_eq rs]

/-- The tag sets after a run of saves, member by member. -/
theorem mem_saveAll_index (records : List Record) (m : MemStore) (k x : String) :
    x ∈ (records.foldl (fun m r => (save m r).2) m).index k ↔ x ∈ m.index k ∨
      ∃ r ∈ records, x = r.type ++ ":" ++ r.requestID ∧ ∃ e ∈ r.tags, e.1 ++ ":" ++ e.2 = k := by
  induction records generalizing m with
  | nil => simp
  | cons r rs ih =>
    rw [List.foldl_cons, ih, mem_save_index]
    simp only [List.mem_cons, exists_eq_or_imp, or_assoc]

/-- After any run of saves, `Find(tag)` returns, in strictly increasing order, the
`type:requestID` of every record saved with a tag `k=v` that reads `tag` as `k:v`, besides
what the tag's set held before. -/
theorem find_saveAll (m : MemStore) (records : List Record) (tag : String) :
    ∃ m' keys, storage.saveAll m records = some m' ∧ find m' tag = .ok keys ∧
      keys.Pairwise (fun a b => Value.stringLess a b) ∧
      ∀ x, x ∈ keys ↔ x ∈ m.index tag ∨
        ∃ r ∈ records, x = r.type ++ ":" ++ r.requestID ∧ ∃ e ∈ r.tags, e.1 ++ ":" ++ e.2 = tag := by
  refine ⟨_, _, saveAll_eq records m, find_eq _ tag, ?_, fun x => ?_⟩
  · exact sorted_sortStrings ((records.foldl _ m).index_nodup tag)
  · rw [(sortStrings_perm _).mem_iff, mem_saveAll_index]

/-- **`Find` does not depend on the order of the saves.** Saves run in any order, as the
example's concurrent callers may run them, leave the same answer to every `Find`: the sets hold
the same members, and `sort.Strings` orders them. -/
theorem find_order_independent (m : MemStore) {records records' : List Record}
    (hp : records.Perm records') (tag : String) :
    (storage.saveAll m records).map (find · tag) = (storage.saveAll m records').map (find · tag) := by
  rw [saveAll_eq, saveAll_eq, Option.map_some', Option.map_some', find_eq, find_eq]
  refine congrArg (some ∘ Except.ok) (sortStrings_eq (index_nodup _ tag) (index_nodup _ tag)
    fun x => ?_)
  simp only [mem_saveAll_index, hp.mem_iff]

/-- Two requests tagged `env=dev`, saved in the two orders. -/
theorem find_order_independent_swap :
    let r₁ : Record := ⟨"request", none, "req1", [1], [("env", "dev")]⟩
    let r₂ : Record := ⟨"request", none, "req2", [2], [("env", "dev")]⟩
    [r₁, r₂].Perm [r₂, r₁] ∧
      (storage.saveAll empty [r₁, r₂]).map (find · "env:dev") =
        (storage.saveAll empty [r₂, r₁]).map (find · "env:dev") := by
  intro r₁ r₂
  have hp : [r₁, r₂].Perm [r₂, r₁] := List.Perm.swap _ _ _
  exact ⟨hp, find_order_independent empty hp "env:dev"⟩

/-! ### Every key `Find` returns can be loaded -/

/-- Every member of a tag set names a record that `Load` finds. -/
def IndexSound (m : MemStore) : Prop :=
  ∀ k x, x ∈ m.index k → ∃ t id, x = t ++ ":" ++ id ∧ (m.data t id).isSome

theorem indexSound_empty : IndexSound empty :=
  fun _ _ h => absurd h (List.not_mem_nil _)

/-- A save keeps the index sound: it never removes a payload, and it indexes its own record. -/
theorem save_indexSound {m : MemStore} (h : IndexSound m) (r : Record) :
    IndexSound (save m r).2 := by
  intro k x hx
  rcases mem_save_index.mp hx with hx | ⟨rfl, -⟩
  · obtain ⟨t, id, rfl, hs⟩ := h k x hx
    refine ⟨t, id, rfl, ?_⟩
    rw [save_data]
    split_ifs <;> simp [hs]
  · exact ⟨r.type, r.requestID, rfl, by simp [save_data]⟩

/-- Whatever the recorder's options, after any run of calls from a sound store (the empty one of
`newMemStore` among them), every key the recorder's `FindByTag` returns is `type:requestID` of a
record that `Load` returns. -/
theorem find_keys_loadable (opts : List (Option RecorderOption)) (calls : List Call)
    {m : MemStore} (hm : IndexSound m) {tag : String} {keys : List String}
    (hfind : (recorder opts).findByTag (runCalls (recorder opts).call m calls).2 tag = .ok keys) :
    ∀ x ∈ keys, ∃ t id p, x = t ++ ":" ++ id ∧
      load (runCalls (recorder opts).call m calls).2 t id = .ok p := by
  have hsound := (recorder opts).runCalls_invariant (fun s rec h => by
    rw [recorder_storage, storage_save]
    exact save_indexSound h rec) calls m hm
  intro x hx
  simp only [BaseRecorder.findByTag] at hfind
  split_ifs at hfind
  rw [recorder_storage, storage_findByTag, find_eq] at hfind
  cases hfind
  obtain ⟨t, id, rfl, hs⟩ := hsound tag x ((sortStrings_perm _).mem_iff.mp hx)
  obtain ⟨p, hp⟩ := Option.isSome_iff_exists.mp hs
  exact ⟨t, id, p, rfl, by simp only [load, hp]⟩

/-- The run of the example's `main`: a request and its response tagged `env=dev`;
`FindByTag("env:dev")` returns both keys, and both load. -/
theorem find_keys_loadable_main :
    let calls := [Call.recordRequest none "req-42" [1] [("env", "dev")],
      Call.recordResponse none "req-42" [2] [("env", "dev")]]
    IndexSound empty ∧
    (recorder []).findByTag (runCalls (recorder []).call empty calls).2 "env:dev" =
      .ok ["request:req-42", "response:req-42"] ∧
    ∀ x ∈ ["request:req-42", "response:req-42"], ∃ t id p, x = t ++ ":" ++ id ∧
      load (runCalls (recorder []).call empty calls).2 t id = .ok p := by
  intro calls
  have hfind : (recorder []).findByTag (runCalls (recorder []).call empty calls).2 "env:dev" =
      .ok ["request:req-42", "response:req-42"] := by decide
  exact ⟨indexSound_empty, hfind, find_keys_loadable [] calls indexSound_empty hfind⟩

end MemStore

end Recorder
