import Recorder.Storage.GormSequential

/-!
# Concurrent `Save` calls on the GORM backend

Several goroutines call `Save` on one database. Each SQL statement is one atomic step, and the
steps of different calls interleave in any order. A call (`Caller`) goes through the statements
of `saveWithOptimizedTransaction`: the `First` lookup and the `tx.Save` of `saveRecord`, the
commit of that transaction, and, when the record has tags, the delete and the batched inserts of
`saveTags`. A write is visible to the statements that follow it; the interleavings below read
only what was committed before them, so they are also executions under `READ COMMITTED` and
`REPEATABLE READ`, where the lookup takes no lock.

`World.run_idInv`: every interleaving keeps the record ids distinct and below the counter
(`IdInv`), so what the retrying `Save` of `Recorder.Storage.GormTx` guarantees from such tables
holds from every table concurrent calls build. `runAlone_start` connects the two models: a call whose steps are not interleaved with others
does what the sequential `Gorm.save` does. `saves_interleaved_duplicate` replays an
interleaving of two calls for one pair in which both lookups miss: the table ends with two rows
for the pair, and `Load` returns the payload of the call that committed first.
-/

namespace Recorder

namespace Gorm

/-- The next statement of a `Save` call. -/
inductive SavePhase where
  /-- `First` in `saveRecord` -/
  | lookup
  /-- `tx.Save(model)`, with what the lookup found -/
  | write (found : Option RecordRow)
  /-- the commit of `saveRecord`'s transaction -/
  | commit (recordID : Nat)
  /-- the `Delete` of `saveTags` -/
  | deleteTags (recordID : Nat)
  /-- one `CreateInBatches` batch of at most two tags -/
  | insertTags (recordID : Nat) (pending : Tags)
  /-- returned -/
  | done
deriving DecidableEq, Repr

/-- The first statement of a call: none when the payload check fails. -/
def SavePhase.start (record : Record) : SavePhase :=
  if record.payload.isEmpty then .done else .lookup

/-- One statement of a call on the database: the new database, the next phase, and whether the
record's transaction committed. -/
def stepCall (db : GormDB) (record : Record) : SavePhase → Option (GormDB × SavePhase × Bool)
  | .lookup => some (db, .write (first db record.type record.requestID), false)
  | .write found =>
    let written := writeRecord db found record
    some (written.2, .commit written.1, false)
  | .commit rid => some (db, if record.tags.isEmpty then .done else .deleteTags rid, true)
  | .deleteTags rid => some (deleteTags db rid, .insertTags rid (sortTags record.tags), false)
  | .insertTags rid pending =>
    some (insertTags db rid (pending.take 2),
      if (pending.drop 2).isEmpty then .done else .insertTags rid (pending.drop 2), false)
  | .done => none

/-- A `Save` call in progress. -/
structure Caller where
  record : Record
  phase : SavePhase
deriving DecidableEq, Repr

/-- The database, the calls, and the calls in the order their records committed. -/
structure World where
  db : GormDB
  callers : List Caller
  commits : List Nat
deriving DecidableEq, Repr

/-- Calls about to start on a database. -/
def World.init (db : GormDB) (records : List Record) : World :=
  ⟨db, records.map fun r => ⟨r, SavePhase.start r⟩, []⟩

/-- Call `i` runs its next statement. -/
def World.step (w : World) (i : Nat) : Option World :=
  match w.callers[i]? with
  | none => none
  | some c =>
    (stepCall w.db c.record c.phase).map fun next =>
      ⟨next.1, w.callers.set i ⟨c.record, next.2.1⟩,
        if next.2.2 then w.commits ++ [i] else w.commits⟩

/-- Run the statements of the calls in the order of `schedule`. -/
def World.run : World → List Nat → Option World
  | w, [] => some w
  | w, i :: rest => (w.step i).bind (·.run rest)

/-! ## The ids under every interleaving -/

/-- Every statement keeps `IdInv`, whatever an earlier lookup of its call found. -/
theorem IdInv.stepCall {db : GormDB} {record : Record} {phase : SavePhase}
    {next : GormDB × SavePhase × Bool} (h : IdInv db) (hs : stepCall db record phase = some next) :
    IdInv next.1 := by
  cases phase with
  | lookup => cases hs; exact h
  | write found => cases hs; exact h.writeRecord found record
  | commit rid => cases hs; exact h
  | deleteTags rid => cases hs; exact h.of_eq rfl rfl
  | insertTags rid pending =>
    cases hs
    exact h.of_eq (insertTags_records ..) (insertTags_nextRecordID ..)
  | done => cases hs

theorem World.step_idInv {w w' : World} {i : Nat} (h : IdInv w.db) (hs : w.step i = some w') :
    IdInv w'.db := by
  unfold World.step at hs
  split at hs
  · cases hs
  · obtain ⟨next, hnext, rfl⟩ := Option.map_eq_some'.mp hs
    exact h.stepCall hnext

/-- Every interleaving of the calls' statements keeps `IdInv`. -/
theorem World.run_idInv : ∀ (w : World) (schedule : List Nat) {w' : World},
    IdInv w.db → w.run schedule = some w' → IdInv w'.db
  | _, [], _, h, hr => by cases hr; exact h
  | w, i :: rest, _, h, hr => by
    obtain ⟨w₁, h₁, hr⟩ := Option.bind_eq_some.mp hr
    exact World.run_idInv w₁ rest (World.step_idInv h h₁) hr

/-! ## A call on its own -/

/-- Run one call for `fuel` statements, with no other call in between. -/
def runAlone (db : GormDB) (record : Record) : SavePhase → Nat → GormDB × SavePhase
  | phase, 0 => (db, phase)
  | phase, fuel + 1 =>
    match stepCall db record phase with
    | none => (db, phase)
    | some next => runAlone next.1 record next.2.1 fuel

theorem insertTags_append (db : GormDB) (rid : Nat) (a b : Tags) :
    insertTags db rid (a ++ b) = insertTags (insertTags db rid a) rid b := by
  induction a generalizing db with
  | nil => rfl
  | cons e rest ih => exact ih _

@[simp] theorem runAlone_done (db : GormDB) (record : Record) (fuel : Nat) :
    runAlone db record .done fuel = (db, .done) := by
  cases fuel <;> rfl

/-- The batches insert the pending tags, in order, in one statement per two tags. -/
theorem runAlone_insertTags (record : Record) (rid : Nat) :
    ∀ (n : Nat) (db : GormDB) (pending : Tags), pending ≠ [] → pending.length ≤ 2 * n →
      runAlone db record (.insertTags rid pending) n = (insertTags db rid pending, .done)
  | 0, _, pending, hne, hlen => absurd (List.eq_nil_of_length_eq_zero (by omega)) hne
  | n + 1, db, pending, _, hlen => by
    rw [runAlone, stepCall]
    dsimp only
    rw [← List.take_append_drop 2 pending, insertTags_append, List.take_append_drop]
    split_ifs with hd
    · rw [List.isEmpty_iff.mp hd, runAlone_done]
      rfl
    · exact runAlone_insertTags record rid n _ _ (by simpa using hd)
        (by rw [List.length_drop]; omega)

/-- The number of statements of a call run on its own. -/
def aloneFuel (record : Record) : Nat :=
  if record.payload.isEmpty then 0
  else if record.tags.isEmpty then 3
  else 4 + (record.tags.length + 1) / 2

/-- A call whose statements are not interleaved with others does what `Gorm.save` does. -/
theorem runAlone_start (db : GormDB) (record : Record) :
    runAlone db record (SavePhase.start record) (aloneFuel record) = ((save db record).2, .done) := by
  unfold SavePhase.start aloneFuel save saveRecord
  split_ifs with hp ht
  · rfl
  · simp only [runAlone, stepCall, if_pos ht]
  · have hs : sortTags record.tags ≠ [] := by
      rw [← List.length_pos, length_sortTags, List.length_pos]
      simpa using ht
    rw [show 4 + (record.tags.length + 1) / 2 = (record.tags.length + 1) / 2 + 1 + 1 + 1 + 1 by
      omega]
    simp only [runAlone, stepCall, if_neg ht]
    rw [saveTags, if_neg ht]
    exact runAlone_insertTags record _ ((record.tags.length + 1) / 2) _ _ hs
      (by rw [length_sortTags]; omega)

/-! ## Two calls for one pair -/

/-- Two calls save the pair `(request, r)` with payloads `[1]` and `[2]` and no tags; both
lookups run before either write. Both calls return, the second committed last, and the table
holds two rows for the pair, of which `Load` returns the first call's payload. -/
theorem saves_interleaved_duplicate :
    (((World.init empty [⟨"request", none, "r", [1], []⟩, ⟨"request", none, "r", [2], []⟩]).run
        [0, 1, 0, 0, 1, 1]).map fun w =>
      (w.callers.map (·.phase), w.commits, rowCount w.db "request" "r", load w.db "request" "r")) =
      some ([.done, .done], [0, 1], 2, .ok [1]) := by
  decide

/-- The tables of that interleaving: two rows for the pair, ids `1` and `2` below the counter. -/
example : ((World.init empty [⟨"request", none, "r", [1], []⟩, ⟨"request", none, "r", [2], []⟩]).run
    [0, 1, 0, 0, 1, 1]).map (·.db) =
      some ⟨[⟨1, "request", "r", none, [1]⟩, ⟨2, "request", "r", none, [2]⟩], [], 3, 1⟩ := by
  decide

end Gorm

end Recorder
