import Recorder.Storage.GormSequential
import Recorder.Scrubber.Rule

/-!
# Failing statements, transactions and retries of the GORM backend

`Recorder.Storage.Gorm` runs every statement to success. Here the database may refuse any
statement: the call's connection (`Conn`) carries the database's answers to the statements
still to come, in the order they are sent, and every result below holds for every list of
answers, so for a failure at any point. A transaction (`Stmt.transaction`, GORM's
`db.Transaction`) sends `BEGIN`, runs its body, and sends `COMMIT`; when the body or the commit
fails, the tables go back to where it began.

`Save` (`Tx.save`) runs its attempts in a loop: an attempt (`saveWithOptimizedTransaction`) is
`saveRecord` in one transaction and then, when the record has tags, `saveTags` in a second one.
A deadlock error starts the next attempt after a back-off, in which the call's context may be
done (`ctx.Err()` is returned); any other error is returned at once; after `maxRetries + 1`
deadlocked attempts the last deadlock error is wrapped and returned. The retry count comes
from counters every call updates and the back-off from the clock, so the retry count is a
parameter and the back-off is the context's answer at each attempt (`cancel`).

- `Stmt.Implements m f`: whenever `m` succeeds, it did what `f` does on the tables;
  `transaction_implements`, `transaction_atomic` are the transaction's two properties;
- `saveRecord_implements`, `saveTags_implements`: the two transactions do what the fault-free
  `Gorm.saveRecord` and `Gorm.saveTags` do, or nothing;
- `saveRecord_saveRecord`: on tables whose record ids are distinct and below the counter
  (`IdInv`, which every interleaving of calls keeps), writing the record's row twice is writing it
  once, so a retry after a committed `saveRecord` changes nothing more;
- **`gorm_save_atomicity`**: the retrying `Save` either leaves the tables as the fault-free
  `Save` does, or fails with the tag rows untouched and the record's row either untouched or
  written; `gorm_save_commits_record_without_tags` is a failure of the second kind;
- **`gorm_single_save_atomic`**: the single-transaction `Save` of gorm_recorder/recorder.go is
  all-or-nothing.

The MySQL-only `SET TRANSACTION ISOLATION LEVEL` statement of `saveTags`, whose error is
ignored, is left out, as is the `ROLLBACK` statement, whose failure leaves an uncommitted
transaction uncommitted.
-/

namespace Recorder

namespace Gorm

/-- The connection of a call: the tables as its statements see them, and the database's answers
to the statements still to come (`some err`: the statement fails with `err`; past the end of the
list, every statement succeeds). -/
structure Conn where
  db : GormDB
  answers : List (Option String)
deriving DecidableEq, Repr

/-- A piece of a call's work: its result and the connection it leaves. -/
def Stmt (α : Type) := Conn → Except String α × Conn

namespace Stmt

variable {α β : Type}

/-- Run `m`; on success go on with `k`, on an error return it (`if err != nil { return err }`). -/
def bind (m : Stmt α) (k : α → Stmt β) : Stmt β := fun c =>
  match m c with
  | (.error e, c') => (.error e, c')
  | (.ok a, c') => k a c'

/-- Return `a` without touching the database. -/
def pure (a : α) : Stmt α := fun c => (.ok a, c)

/-- One SQL statement and its effect on the tables; the database's next answer decides whether
it fails. -/
def exec (stmt : GormDB → α × GormDB) : Stmt α := fun c =>
  match c.answers with
  | some e :: rest => (.error e, ⟨c.db, rest⟩)
  | _ => ((.ok (stmt c.db).1), ⟨(stmt c.db).2, c.answers.tail⟩)

/-- A statement that reads and writes nothing: `BEGIN`, `COMMIT`. -/
def control : Stmt Unit :=
  exec fun db => ((), db)

/-- `db.Transaction(fc)`: `BEGIN`, the body, `COMMIT`; when the body or the commit fails, the
tables go back to where the transaction began. -/
def transaction (body : Stmt α) : Stmt α := fun c =>
  match control c with
  | (.error e, c') => (.error e, c')
  | (.ok (), c') =>
    match body c' with
    | (.error e, c'') => (.error e, { c'' with db := c.db })
    | (.ok a, c'') =>
      match control c'' with
      | (.error e, c''') => (.error e, { c''' with db := c.db })
      | (.ok (), c''') => (.ok a, c''')

/-- Whenever `m` succeeds, it returned what `f` returns and left the tables as `f` does. -/
def Implements (m : Stmt α) (f : GormDB → α × GormDB) : Prop :=
  ∀ c a c', m c = (.ok a, c') → a = (f c.db).1 ∧ c'.db = (f c.db).2

/-- Whenever `m` fails, it left the tables as they were. -/
def Atomic (m : Stmt α) : Prop :=
  ∀ c e c', m c = (.error e, c') → c'.db = c.db

theorem exec_implements (stmt : GormDB → α × GormDB) : (exec stmt).Implements stmt := by
  intro c a c' h
  unfold exec at h
  split at h
  · cases h
  · cases h
    exact ⟨rfl, rfl⟩

theorem exec_atomic (stmt : GormDB → α × GormDB) : (exec stmt).Atomic := by
  intro c e c' h
  unfold exec at h
  split at h
  · cases h
    rfl
  · cases h

theorem pure_implements (a : α) : (pure a).Implements fun db => (a, db) := by
  intro c a' c' h
  cases h
  exact ⟨rfl, rfl⟩

theorem bind_implements {m : Stmt α} {k : α → Stmt β} {f : GormDB → α × GormDB}
    {g : α → GormDB → β × GormDB} (hm : m.Implements f) (hk : ∀ a, (k a).Implements (g a)) :
    (m.bind k).Implements fun db => g (f db).1 (f db).2 := by
  intro c b c' h
  unfold bind at h
  split at h
  · cases h
  · rename_i a c₁ hmc
    obtain ⟨rfl, hdb⟩ := hm c a c₁ hmc
    show b = (g (f c.db).1 (f c.db).2).1 ∧ c'.db = (g (f c.db).1 (f c.db).2).2
    rw [← hdb]
    exact hk _ c₁ b c' h

theorem ite_implements {c : Prop} [Decidable c] {m m' : Stmt α} {f f' : GormDB → α × GormDB}
    (h : m.Implements f) (h' : m'.Implements f') :
    (if c then m else m').Implements fun db => if c then f db else f' db := by
  by_cases hc : c
  · simpa only [if_pos hc] using h
  · simpa only [if_neg hc] using h'

/-- A committed transaction did what its body does. -/
theorem transaction_implements {body : Stmt α} {f : GormDB → α × GormDB}
    (h : body.Implements f) : (transaction body).Implements f := by
  intro c a c' ht
  unfold transaction at ht
  split at ht
  · cases ht
  · split at ht
    · cases ht
    · split at ht
      · cases ht
      · rename_i c₁ hbegin _ a' c₂ hbody _ c₃ hcommit
        cases ht
        obtain ⟨rfl, h₂⟩ := h c₁ _ c₂ hbody
        have h₁ := (exec_implements _ c () c₁ hbegin).2
        have h₃ := (exec_implements _ c₂ () _ hcommit).2
        exact ⟨by rw [h₁], by rw [h₃, h₂, h₁]⟩

theorem Implements.congr {m : Stmt α} {f f' : GormDB → α × GormDB} (h : m.Implements f)
    (hf : ∀ db, f db = f' db) : m.Implements f' := by
  intro c a c' hm
  rw [← hf]
  exact h c a c' hm

/-- **A failed transaction leaves the tables as they were.** -/
theorem transaction_atomic (body : Stmt α) : (transaction body).Atomic := by
  intro c e c' ht
  unfold transaction at ht
  split at ht
  · cases ht
    exact exec_atomic _ c e _ ‹_›
  · split at ht
    · cases ht
      rfl
    · split at ht
      · cases ht
        rfl
      · cases ht

end Stmt

/-! ## The two versions of `Save` -/

namespace Tx

open Stmt

/-- `saveRecord`: in one transaction, `First` on the record's pair, then `tx.Save(model)`; the
record row's id. -/
def saveRecord (record : Record) : Stmt Nat :=
  transaction ((exec fun db => (first db record.type record.requestID, db)).bind fun found =>
    exec fun db => writeRecord db found record)

/-- The batches of `saveTags`: one `INSERT` per two tags, in order. -/
def insertBatches (rid : Nat) : Tags → Stmt Unit
  | [] => pure ()
  | [a] => exec fun db => ((), insertTags db rid [a])
  | a :: b :: rest =>
    (exec fun db => ((), insertTags db rid [a, b])).bind fun _ => insertBatches rid rest

/-- `saveTags`: in one transaction, delete the record's tag rows, then insert the tags sorted by
key and value. -/
def saveTags (rid : Nat) (tags : Tags) : Stmt Unit :=
  transaction ((exec fun db => ((), deleteTags db rid)).bind fun _ =>
    if tags.isEmpty then pure () else insertBatches rid (sortTags tags))

/-- `saveWithOptimizedTransaction`: `saveRecord`, then `saveTags` when the record has tags. -/
def saveWithOptimizedTransaction (record : Record) : Stmt Unit :=
  (saveRecord record).bind fun rid =>
    if record.tags.isEmpty then pure () else saveTags rid record.tags

/-- `isDeadlockError`: the lower-cased message (`strings.ToLower`, given `unicode.ToLower` as
`lower`) contains one of MySQL's deadlock or lock-timeout texts. -/
def isDeadlockError (lower : Char → Char) (err : String) : Bool :=
  let errStr := toLower lower err
  ["error 1213", "deadlock found when trying to get lock", "deadlock", "lock wait timeout",
    "error 1205"].any fun part => errStr.toList.tails.any part.toList.isPrefixOf

/-- The retry loop of `Save` at attempt `attempt`, with `left` attempts to go and the last
deadlock error `lastErr`. Before every attempt but the first, the back-off returns the
context's error when `cancel attempt` says the context is done. -/
def saveLoop (isDeadlock : String → Bool) (maxRetries : Nat) (cancel : Nat → Option String)
    (record : Record) : Nat → Nat → String → Stmt Unit
  | _, 0, lastErr => fun c =>
    (.error ("gorm recorder: failed after " ++ toString maxRetries ++
      " retries due to deadlocks: " ++ lastErr), c)
  | attempt, left + 1, _ => fun c =>
    match (if attempt > 0 then cancel attempt else none) with
    | some e => (.error e, c)
    | none =>
      match saveWithOptimizedTransaction record c with
      | (.ok (), c') => (.ok (), c')
      | (.error e, c') =>
        if isDeadlock e then saveLoop isDeadlock maxRetries cancel record (attempt + 1) left e c'
        else (.error e, c')

/-- `Save`: the payload check, then `maxRetries + 1` attempts at most. -/
def save (lower : Char → Char) (maxRetries : Nat) (cancel : Nat → Option String)
    (record : Record) : Stmt Unit := fun c =>
  if record.payload.isEmpty then (.error "gorm recorder: payload cannot be empty", c)
  else saveLoop (isDeadlockError lower) maxRetries cancel record 0 (maxRetries + 1) "" c

/-- The single-transaction `Save` of gorm_recorder/recorder.go: one transaction for the lookup,
the row, the deletion of the record's tag rows and the insertion of its tags. -/
def saveSingleTransaction (record : Record) : Stmt Unit := fun c =>
  if record.payload.isEmpty then (.error "gorm recorder: payload cannot be empty", c)
  else transaction
    ((exec fun db => (first db record.type record.requestID, db)).bind fun found =>
      (exec fun db => writeRecord db found record).bind fun rid =>
        (exec fun db => ((), deleteTags db rid)).bind fun _ =>
          if record.tags.isEmpty then pure () else exec fun db => ((), insertTags db rid record.tags))
    c

end Tx

/-! ## Writing the record's row twice -/

/-- Changing rows without changing their ids does not change which row has the least id. -/
theorem minById_map (f : RecordRow → RecordRow) (hf : ∀ r, (f r).id = r.id) :
    ∀ l, minById (l.map f) = (minById l).map f
  | [] => rfl
  | r :: rest => by
    simp only [List.map_cons, minById, minById_map f hf rest]
    cases minById rest with
    | none => rfl
    | some m => by_cases h : r.id ≤ m.id <;> simp [h, hf]

/-- A change of rows that keeps each row's membership in a pair commutes with the lookup's
filter. -/
theorem filter_map_of_congr {p : RecordRow → Bool} {f : RecordRow → RecordRow}
    {l : List RecordRow} (h : ∀ r ∈ l, p (f r) = p r) : (l.map f).filter p = (l.filter p).map f := by
  rw [List.filter_map]
  exact congrArg _ (List.filter_congr h)

/-- On tables of `IdInv`, `First` after `saveRecord` finds the row it wrote, even when the pair
had more than one row: an update keeps the least id of the pair, an insert is the pair's only
row. -/
theorem first_saveRecord_self {db : GormDB} (h : IdInv db) (record : Record) :
    first (saveRecord db record).2 record.type record.requestID =
      some (savedRow (saveRecord db record).1 record) := by
  unfold saveRecord writeRecord
  split
  · rename_i row hrow
    obtain ⟨hmem, hpair⟩ := mem_of_first hrow
    have hrow' : { row with primaryID := record.primaryID, payload := record.payload } =
        savedRow row.id record := by
      simp only [RecordRow.pair, Prod.mk.injEq] at hpair
      simp only [savedRow, hpair]
    have hfor : ∀ r ∈ db.records, RecordRow.isFor record.type record.requestID
        (if r.id = row.id then savedRow row.id record else r) =
          RecordRow.isFor record.type record.requestID r := fun r hr => by
      split
      · rw [List.inj_on_of_nodup_map h.ids_nodup hr hmem ‹_›,
          RecordRow.isFor_iff.mpr (savedRow_pair _ _), RecordRow.isFor_iff.mpr hpair]
      · rfl
    show minById ((db.records.map fun r => if r.id = row.id then _ else r).filter _) = _
    rw [hrow', filter_map_of_congr hfor,
      minById_map _ fun r => by split; exacts [(‹r.id = row.id›).symm, rfl]]
    rw [first] at hrow
    simp [hrow]
  · rename_i hnone
    simp only [first, insertRow, List.filter_append, minById_eq_none.mp hnone, List.nil_append]
    simp [List.filter, RecordRow.isFor, minById, savedRow]

/-- Writing back a row of the tables under its own id changes nothing when no other row has it. -/
theorem updateRow_self {db : GormDB} (h : IdInv db) {row : RecordRow} (hrow : row ∈ db.records) :
    updateRow db row = db := by
  have hmap : db.records.map (fun r => if r.id = row.id then row else r) = db.records := by
    refine (List.map_congr_left fun r hr => ?_).trans (List.map_id _)
    split
    · exact (List.inj_on_of_nodup_map h.ids_nodup hr hrow ‹_›).symm
    · rfl
  simp only [updateRow, hmap]

/-- On tables of `IdInv`, writing the record's row a second time changes nothing: the second
`First` finds the row the first wrote, and `Save` writes it back as it is. Two rows of one pair
do not matter. -/
theorem saveRecord_saveRecord {db : GormDB} (h : IdInv db) (record : Record) :
    saveRecord (saveRecord db record).2 record = saveRecord db record := by
  have hfirst := first_saveRecord_self h record
  rw [saveRecord, hfirst, writeRecord]
  exact Prod.ext rfl (updateRow_self (h.writeRecord _ record) (mem_of_first hfirst).1)

/-- So a `Save` after the record's row was written leaves what a `Save` from before it leaves. -/
theorem save_saveRecord {db : GormDB} (hinv : IdInv db) {record : Record}
    (hp : record.payload.isEmpty = false) :
    (save (saveRecord db record).2 record).2 = (save db record).2 := by
  simp only [save, hp, Bool.false_eq_true, if_false, saveRecord_saveRecord hinv]

/-- What a call may leave on the tables `db₀`: on success, what the fault-free `Save` leaves; on
an error, `db₀`, or `db₀` with only the record's row written. -/
def Leaves (db₀ : GormDB) (record : Record) : Except String Unit × Conn → Prop
  | (.ok (), c') => c'.db = (save db₀ record).2
  | (.error _, c') => c'.db = db₀ ∨ c'.db = (saveRecord db₀ record).2

namespace Tx

open Stmt

/-! ## What each transaction does -/

/-- A committed `saveRecord` wrote the row `Gorm.saveRecord` writes and returned its id. -/
theorem saveRecord_implements (record : Record) :
    (saveRecord record).Implements (Gorm.saveRecord · record) :=
  transaction_implements (bind_implements (exec_implements _) fun _ => exec_implements _)

/-- The batches of two insert the rows one `INSERT` of all the tags inserts. -/
theorem insertBatches_implements (rid : Nat) :
    ∀ tags, (insertBatches rid tags).Implements fun db => ((), insertTags db rid tags)
  | [] => pure_implements ()
  | [_] => exec_implements _
  | _ :: _ :: rest => bind_implements (exec_implements _) fun _ => insertBatches_implements rid rest

/-- A committed `saveTags` did what `Gorm.saveTags` does. -/
theorem saveTags_implements (rid : Nat) (tags : Tags) :
    (saveTags rid tags).Implements fun db => ((), Gorm.saveTags db rid tags) :=
  transaction_implements <|
    (bind_implements (exec_implements _) fun _ =>
      ite_implements (pure_implements ()) (insertBatches_implements rid _)).congr fun db => by
    unfold Gorm.saveTags
    split <;> rfl

/-- An attempt that returns `nil` did what the fault-free `Save` does. -/
theorem saveWithOptimizedTransaction_implements {record : Record}
    (hp : record.payload.isEmpty = false) :
    (saveWithOptimizedTransaction record).Implements fun db => ((), (Gorm.save db record).2) :=
  (bind_implements (saveRecord_implements record) fun rid =>
    ite_implements (pure_implements ()) (saveTags_implements rid record.tags)).congr fun db => by
    simp only [Gorm.save, hp, Bool.false_eq_true, if_false]
    split <;> rfl

/-- A failed attempt failed in `saveRecord`, which rolled back, or in `saveTags` after
`saveRecord` committed. -/
theorem saveWithOptimizedTransaction_error {record : Record} {c c' : Conn} {e : String}
    (h : saveWithOptimizedTransaction record c = (.error e, c')) :
    c'.db = c.db ∨ c'.db = (Gorm.saveRecord c.db record).2 := by
  unfold saveWithOptimizedTransaction Stmt.bind at h
  split at h
  · cases h
    exact .inl (transaction_atomic _ c e _ ‹_›)
  · rename_i rid c₁ hrec
    have h₁ := (saveRecord_implements record c rid c₁ hrec).2
    split at h
    · cases h
    · exact .inr (h₁ ▸ transaction_atomic _ c₁ e c' h)

/-! ## The retry loop -/

section Loop

variable {db₀ : GormDB} {record : Record} (isDeadlock : String → Bool) (maxRetries : Nat)
  (cancel : Nat → Option String)

/-- One attempt from tables that are `db₀` or `db₀` with the record's row written. -/
theorem attempt_leaves (hinv : IdInv db₀) (hp : record.payload.isEmpty = false) {c : Conn}
    (hc : c.db = db₀ ∨ c.db = (Gorm.saveRecord db₀ record).2) :
    Leaves db₀ record (saveWithOptimizedTransaction record c) := by
  match h : saveWithOptimizedTransaction record c with
  | (.ok (), c') =>
    show c'.db = _
    rw [(saveWithOptimizedTransaction_implements hp c () c' h).2]
    rcases hc with hc | hc <;> rw [hc]
    exact save_saveRecord hinv hp
  | (.error e, c') =>
    show c'.db = db₀ ∨ c'.db = _
    have hs := saveRecord_saveRecord hinv record
    rcases hc with hc | hc <;> rcases saveWithOptimizedTransaction_error h with h' | h' <;>
      rw [h', hc] <;> simp only [hs, true_or, or_true]

/-- The retry loop, by induction on the attempts left: every attempt starts from `db₀` or from
`db₀` with the record's row written, whatever the earlier attempts committed. -/
theorem saveLoop_leaves (hinv : IdInv db₀) (hp : record.payload.isEmpty = false) :
    ∀ left attempt lastErr (c : Conn), (c.db = db₀ ∨ c.db = (Gorm.saveRecord db₀ record).2) →
      Leaves db₀ record (saveLoop isDeadlock maxRetries cancel record attempt left lastErr c)
  | 0, _, _, _, hc => hc
  | left + 1, attempt, lastErr, c, hc => by
    unfold saveLoop
    split
    · exact hc
    · have h := attempt_leaves hinv hp hc
      split
      · rename_i heq
        rwa [heq] at h
      · rename_i e c' heq
        rw [heq] at h
        split
        · exact saveLoop_leaves hinv hp left _ e c' h
        · exact h

end Loop

end Tx

/-! ## All or nothing -/

/-- **What `Save` leaves, for every fault schedule.** On tables whose record ids are distinct
and below the counter (those every run of the backend's calls builds, interleaved or not:
`World.run_idInv`; a pair may have two rows), whichever statements fail and whenever the context
is done: when `Save` returns `nil`, the tables are those the fault-free `Save` leaves (the record's
row written, and its tag rows replaced by its tags when it has some); when it returns an error,
the tables are as they were, or as they were with only the record's row written
(`saveRecord_tags`: the tag rows are untouched). -/
theorem gorm_save_atomicity (lower : Char → Char) (maxRetries : Nat)
    (cancel : Nat → Option String) (record : Record) (c : Conn) (hinv : IdInv c.db) :
    (∀ c', Tx.save lower maxRetries cancel record c = (.ok (), c') →
        c'.db = (save c.db record).2) ∧
      ∀ e c', Tx.save lower maxRetries cancel record c = (.error e, c') →
        c'.db = c.db ∨ c'.db = (saveRecord c.db record).2 := by
  have h : Leaves c.db record (Tx.save lower maxRetries cancel record c) := by
    unfold Tx.save
    split
    · exact .inl rfl
    · exact Tx.saveLoop_leaves _ _ _ hinv (Bool.eq_false_iff.mpr ‹_›) _ _ _ _ (.inl rfl)
  exact ⟨fun c' hs => by rwa [hs] at h, fun e c' hs => by rwa [hs] at h⟩

/-- Tables with two rows for the pair `(request, r)`, as two interleaved calls leave them
(`saves_interleaved_duplicate`); they satisfy `IdInv` (`World.run_idInv`). -/
def duplicatePairDB : GormDB :=
  ⟨[⟨1, "request", "r", none, [1]⟩, ⟨2, "request", "r", none, [2]⟩], [], 3, 1⟩

/-- On those tables, a first attempt deadlocks in the tag transaction after the record's row was
committed; the second attempt succeeds. -/
theorem gorm_save_atomicity_retried :
    IdInv duplicatePairDB ∧
      (∀ c', Tx.save Char.toLower 5 (fun _ => none) ⟨"request", none, "r", [3], [("k", "v")]⟩
          ⟨duplicatePairDB, [none, none, none, none, none, none, some "Error 1213: Deadlock found"]⟩ =
            (.ok (), c') →
          c'.db = (save duplicatePairDB ⟨"request", none, "r", [3], [("k", "v")]⟩).2) ∧
      ∀ e c', Tx.save Char.toLower 5 (fun _ => none) ⟨"request", none, "r", [3], [("k", "v")]⟩
          ⟨duplicatePairDB, [none, none, none, none, none, none, some "Error 1213: Deadlock found"]⟩ =
            (.error e, c') →
          c'.db = duplicatePairDB ∨
            c'.db = (saveRecord duplicatePairDB ⟨"request", none, "r", [3], [("k", "v")]⟩).2 :=
  ⟨⟨by decide, by decide⟩, gorm_save_atomicity _ _ _ _ ⟨duplicatePairDB, _⟩ ⟨by decide, by decide⟩⟩

/-- There the retried `Save` returns `nil` and rewrites the pair's row of least id. -/
example : Tx.save Char.toLower 5 (fun _ => none) ⟨"request", none, "r", [3], [("k", "v")]⟩
    ⟨duplicatePairDB, [none, none, none, none, none, none, some "Error 1213: Deadlock found"]⟩ =
      (.ok (), ⟨⟨[⟨1, "request", "r", none, [3]⟩, ⟨2, "request", "r", none, [2]⟩],
        [⟨1, 1, "k", "v"⟩], 3, 2⟩, []⟩) :=
  rfl

/-- The record's transaction commits and the tag transaction's `DELETE` fails: `Save` returns
the error, and the records table holds the new row. -/
theorem gorm_save_commits_record_without_tags :
    Tx.save Char.toLower 5 (fun _ => none) ⟨"request", none, "r", [1], [("k", "v")]⟩
        ⟨empty, [none, none, none, none, none, some "connection reset"]⟩ =
      (.error "connection reset",
        ⟨⟨[⟨1, "request", "r", none, [1]⟩], [], 2, 1⟩, []⟩) :=
  rfl

open Stmt in
/-- **The single-transaction `Save` is all-or-nothing.** When it returns `nil`, the tables are
those of the fault-free single-transaction `Save`; when it returns an error, they are as they
were. -/
theorem gorm_single_save_atomic (record : Record) (c : Conn) :
    (∀ c', Tx.saveSingleTransaction record c = (.ok (), c') →
        c'.db = (saveSingleTransaction c.db record).2) ∧
      ∀ e c', Tx.saveSingleTransaction record c = (.error e, c') → c'.db = c.db := by
  unfold Tx.saveSingleTransaction
  split
  · exact ⟨fun _ h => (by cases h), fun _ _ h => (by cases h; rfl)⟩
  · rename_i hp
    refine ⟨fun c' h => ?_, fun e c' h => transaction_atomic _ c e c' h⟩
    refine (transaction_implements (f := fun db => ((), (saveSingleTransaction db record).2)) ?_
      c () c' h).2
    refine Implements.congr (bind_implements (exec_implements _) fun _ =>
      bind_implements (exec_implements _) fun _ => bind_implements (exec_implements _) fun _ =>
        ite_implements (pure_implements ()) (exec_implements _)) fun db => ?_
    simp only [saveSingleTransaction, hp, if_false]
    split
    · rename_i ht
      rw [List.isEmpty_iff.mp ht]
      rfl
    · rfl

end Gorm

end Recorder
