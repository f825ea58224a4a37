import Recorder.Storage.Record

/-!
# The abstract store: one payload per key

What a backend's `Save` and `Load` are for: a successful save writes the record's payload under
a key computed from the record, and a load reads one key. `KeyedRefinement` ties a backend to
this model by an abstraction `read` of its state, under which a successful save changes exactly
the record's key. `KeyedRefinement.read_saveAll` then gives what any run of successful saves
leaves behind: under each key, the payload of the last save under that key
(`lastSavedUnder`), or what was there before.

Which key a backend computes is its own business (`Redis.recordKey`, `File.recordKey`,
`Gorm.recordKey`); the round-trip theorems compare those keys with the ones `Load` reads.
-/

namespace Recorder

variable {S K : Type} [DecidableEq K]

/-- Saving records one after another; `none` as soon as one save fails. -/
def Storage.saveAll (st : Storage S) : S → List Record → Option S
  | s, [] => some s
  | s, r :: rs =>
    match st.save s r with
    | (.ok (), s') => st.saveAll s' rs
    | (.error _, _) => none

/-- Every record of a successful run was saved successfully, from some state. -/
theorem Storage.save_ok_of_saveAll (st : Storage S) {records : List Record} :
    ∀ {s s' : S}, st.saveAll s records = some s' →
      ∀ r ∈ records, ∃ s₁ s₂, st.save s₁ r = (.ok (), s₂) := by
  induction records with
  | nil => intro _ _ _ r hr; cases hr
  | cons x xs ih =>
    intro s s' h r hr
    simp only [Storage.saveAll] at h
    split at h
    · rename_i s₁ hsave
      rcases List.mem_cons.mp hr with rfl | hr
      · exact ⟨s, s₁, hsave⟩
      · exact ih h r hr
    · cases h

/-- The last of `records` whose key is `k`. -/
def lastRecordUnder (key : Record → Option K) : List Record → K → Option Record
  | [], _ => none
  | r :: rs, k => (lastRecordUnder key rs k).or (if key r = some k then some r else none)

/-- The payload of the last of `records` whose key is `k`. -/
def lastSavedUnder (key : Record → Option K) (records : List Record) (k : K) : Option Bytes :=
  (lastRecordUnder key records k).map Record.payload

@[simp] theorem lastSavedUnder_nil (key : Record → Option K) (k : K) :
    lastSavedUnder key [] k = none := rfl

theorem lastSavedUnder_cons (key : Record → Option K) (r : Record) (rs : List Record) (k : K) :
    lastSavedUnder key (r :: rs) k =
      (lastSavedUnder key rs k).or (if key r = some k then some r.payload else none) := by
  simp only [lastSavedUnder, lastRecordUnder]
  cases lastRecordUnder key rs k <;> split <;> rfl

/-- The last record under a key is one of the records, and has that key. -/
theorem lastRecordUnder_mem {key : Record → Option K} {records : List Record} {k : K}
    {r : Record} (h : lastRecordUnder key records k = some r) : r ∈ records ∧ key r = some k := by
  induction records with
  | nil => cases h
  | cons x xs ih =>
    simp only [lastRecordUnder] at h
    cases hx : lastRecordUnder key xs k with
    | some y =>
      rw [hx] at h
      cases h
      exact ⟨List.mem_cons_of_mem _ (ih hx).1, (ih hx).2⟩
    | none =>
      rw [hx] at h
      split at h
      · cases h
        exact ⟨List.mem_cons_self _ _, ‹_›⟩
      · cases h

/-- No record of `records` has key `k` exactly when there is no last one. -/
theorem lastRecordUnder_eq_none {key : Record → Option K} {records : List Record} {k : K} :
    lastRecordUnder key records k = none ↔ ∀ r ∈ records, key r ≠ some k := by
  induction records with
  | nil => simp [lastRecordUnder]
  | cons x xs ih =>
    simp only [lastRecordUnder, Option.or_eq_none, ih, List.mem_cons, forall_eq_or_imp]
    constructor
    · rintro ⟨h1, h2⟩
      exact ⟨fun hx => by simp [hx] at h2, h1⟩
    · rintro ⟨h1, h2⟩
      exact ⟨h2, by simp [h1]⟩

/-- A backend refines the keyed store: `read` abstracts its state into a payload per key, and a
successful save of `r` changes `read` at `r`'s key only, to `r`'s payload. -/
structure KeyedRefinement (st : Storage S) (K : Type) [DecidableEq K] where
  key : Record → Option K
  read : S → K → Option Bytes
  save_read : ∀ s r s', st.save s r = (.ok (), s') →
    ∃ k, key r = some k ∧ ∀ k', read s' k' = if k = k' then some r.payload else read s k'

namespace KeyedRefinement

variable {st : Storage S} (R : KeyedRefinement st K)

/-- One save, as seen through `read`. -/
theorem read_save {s s' : S} {r : Record} (h : st.save s r = (.ok (), s')) (k : K) :
    R.read s' k = (if R.key r = some k then some r.payload else none).or (R.read s k) := by
  obtain ⟨kr, hkr, hread⟩ := R.save_read s r s' h
  rw [hread, hkr]
  by_cases hk : kr = k <;> simp [hk]

/-- A run of successful saves leaves, under each key, the payload of the last save under it. -/
theorem read_saveAll {records : List Record} :
    ∀ {s s' : S}, st.saveAll s records = some s' →
      ∀ k, R.read s' k = (lastSavedUnder R.key records k).or (R.read s k) := by
  induction records with
  | nil =>
    intro s s' h k
    cases h
    rfl
  | cons r rs ih =>
    intro s s' h k
    simp only [Storage.saveAll] at h
    split at h
    · rename_i s₁ hsave
      rw [ih h, R.read_save hsave, lastSavedUnder_cons, Option.or_assoc]
    · cases h

end KeyedRefinement

end Recorder
