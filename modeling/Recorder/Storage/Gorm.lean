import Recorder.Storage.Keyed
import Recorder.Value

/-!
# The GORM backend

`gormStorage` (the gorm_recorder package). A record is one row of `recorder_records`, found by
its `(type, request_id)` pair and updated in place, or inserted when there is none; its tags are
rows of `recorder_tags` pointing at the record row's id. `Save` (`saveWithOptimizedTransaction`)
runs two transactions: `saveRecord`, then, only when the record has tags, `saveTags`, which
deletes the record's tag rows and inserts the new ones sorted by key and value. The sibling
single-transaction `Save` (`saveSingleTransaction` here) deletes the record's tag rows on every
call. `Load` reads the first matching row by id; `FindByTag` splits its argument at the first
`:` and joins the matching tag rows with their records.

The tables are lists of rows in insertion order, with auto-increment counters. Statements do
not fail here (errors, deadlock retries and back-off are left out), and every transaction runs
on its own; `Recorder.Storage.GormConcurrent` interleaves them. Column and table names are the
default models' (`recordModel`, `recordTag`); the timestamps are left out.
-/

namespace Recorder

/-- A row of `recorder_records` (`recordModel`). -/
structure RecordRow where
  id : Nat
  type : String
  requestID : String
  primaryID : Option String
  payload : Bytes
deriving DecidableEq, Repr

/-- The `(type, request_id)` pair of a record row. -/
def RecordRow.pair (row : RecordRow) : String × String :=
  (row.type, row.requestID)

/-- `WHERE type = ? AND request_id = ?` -/
def RecordRow.isFor (type requestID : String) (row : RecordRow) : Bool :=
  row.type = type ∧ row.requestID = requestID

/-- A row of `recorder_tags` (`recordTag`). -/
structure TagRow where
  id : Nat
  recordID : Nat
  key : String
  value : String
deriving DecidableEq, Repr

/-- The two tables and their auto-increment counters. -/
structure GormDB where
  records : List RecordRow
  tags : List TagRow
  nextRecordID : Nat
  nextTagID : Nat
deriving DecidableEq, Repr

namespace Gorm

/-- Empty tables; ids start at 1 (an id of 0 marks a model that is not saved yet). -/
def empty : GormDB := ⟨[], [], 1, 1⟩

/-- The row of least id: `ORDER BY id LIMIT 1`. -/
def minById : List RecordRow → Option RecordRow
  | [] => none
  | r :: rest =>
    match minById rest with
    | none => some r
    | some m => if r.id ≤ m.id then some r else some m

/-- `Where(type, request_id).First(model)` -/
def first (db : GormDB) (type requestID : String) : Option RecordRow :=
  minById (db.records.filter (RecordRow.isFor type requestID))

/-- The number of rows of a pair. -/
def rowCount (db : GormDB) (t id : String) : Nat :=
  (db.records.filter (RecordRow.isFor t id)).length

/-- `tx.Save(model)` for a model read by `First`: update the row with its id. -/
def updateRow (db : GormDB) (row : RecordRow) : GormDB :=
  { db with records := db.records.map fun r => if r.id = row.id then row else r }

/-- `tx.Save(model)` for a new model: insert with the next id. -/
def insertRow (db : GormDB) (type requestID : String) (primaryID : Option String)
    (payload : Bytes) : RecordRow × GormDB :=
  let row : RecordRow := ⟨db.nextRecordID, type, requestID, primaryID, payload⟩
  (row, { db with records := db.records ++ [row], nextRecordID := db.nextRecordID + 1 })

/-- The record row `saveRecord` writes, from what its `First` found. -/
def writeRecord (db : GormDB) (found : Option RecordRow) (record : Record) : Nat × GormDB :=
  match found with
  | some row =>
    (row.id, updateRow db { row with primaryID := record.primaryID, payload := record.payload })
  | none =>
    let inserted := insertRow db record.type record.requestID record.primaryID record.payload
    (inserted.1.id, inserted.2)

/-- `saveRecord`: look the pair up, then update or insert; the record row's id. -/
def saveRecord (db : GormDB) (record : Record) : Nat × GormDB :=
  writeRecord db (first db record.type record.requestID) record

/-- The order of `sort.Slice` in `saveTags`: by key, then by value. -/
def tagLess (a b : String × String) : Bool :=
  if a.1 = b.1 then Value.stringLess a.2 b.2 else Value.stringLess a.1 b.1

/-- Insert a tag into a sorted list. -/
def insertTag (a : String × String) : List (String × String) → List (String × String)
  | [] => [a]
  | b :: rest => if tagLess b a then b :: insertTag a rest else a :: b :: rest

/-- The tags in `saveTags`' order. -/
def sortTags (tags : Tags) : Tags :=
  tags.foldr insertTag []

theorem length_insertTag (a : String × String) (tags : Tags) :
    (insertTag a tags).length = tags.length + 1 := by
  induction tags with
  | nil => rfl
  | cons b rest ih =>
    unfold insertTag
    split <;> simp [ih]

theorem length_sortTags (tags : Tags) : (sortTags tags).length = tags.length := by
  induction tags with
  | nil => rfl
  | cons a rest ih => simp [sortTags, length_insertTag, ← ih]

/-- `Where(record_id).Delete(tagModel)` -/
def deleteTags (db : GormDB) (recordID : Nat) : GormDB :=
  { db with tags := db.tags.filter (·.recordID ≠ recordID) }

/-- Insert tag rows for a record, in order, with the next ids. -/
def insertTags (db : GormDB) (recordID : Nat) : Tags → GormDB
  | [] => db
  | (k, v) :: rest =>
    insertTags { db with tags := db.tags ++ [⟨db.nextTagID, recordID, k, v⟩],
                         nextTagID := db.nextTagID + 1 } recordID rest

/-- `saveTags`: delete the record's tag rows, then insert the tags sorted (the batches of two
insert the same rows in the same order). -/
def saveTags (db : GormDB) (recordID : Nat) (tags : Tags) : GormDB :=
  let db := deleteTags db recordID
  if tags.isEmpty then db else insertTags db recordID (sortTags tags)

/-- `Save` (`saveWithOptimizedTransaction` after the payload check). -/
def save (db : GormDB) (record : Record) : Except String Unit × GormDB :=
  if record.payload.isEmpty then (.error "gorm recorder: payload cannot be empty", db)
  else
    let saved := saveRecord db record
    if record.tags.isEmpty then (.ok (), saved.2) else (.ok (), saveTags saved.2 saved.1 record.tags)

/-- The single-transaction `Save`: the record's tag rows are deleted on every call, and the tags
inserted in the map's order. -/
def saveSingleTransaction (db : GormDB) (record : Record) : Except String Unit × GormDB :=
  if record.payload.isEmpty then (.error "gorm recorder: payload cannot be empty", db)
  else
    let saved := saveRecord db record
    (.ok (), insertTags (deleteTags saved.2 saved.1) saved.1 record.tags)

/-- `Load` -/
def load (db : GormDB) (recordType : RecordType) (requestID : String) : Except String Bytes :=
  match first db recordType requestID with
  | none => .error "record not found"
  | some row =>
    if row.payload.isEmpty then
      .error ("gorm recorder: empty payload for record " ++ recordType ++ "/" ++ requestID)
    else .ok row.payload

/-- `strings.SplitN(s, ":", 2)` on characters: the text before the first `:`, and the text after
it if there is one. -/
def splitAtColon : List Char → List Char × Option (List Char)
  | [] => ([], none)
  | c :: rest =>
    if c = ':' then ([], some rest)
    else ((c :: (splitAtColon rest).1), (splitAtColon rest).2)

/-- `splitTag` -/
def splitTag (tag : String) : Except String (String × String) :=
  if tag = "" then .error "gorm recorder: tag cannot be empty"
  else
    match splitAtColon tag.data with
    | (k, some v) =>
      if k = [] ∨ v = [] then .error "gorm recorder: tag must be in key:value format"
      else .ok (⟨k⟩, ⟨v⟩)
    | (_, none) => .error "gorm recorder: tag must be in key:value format"

/-- The `type:request_id` strings of the records joined with the tag rows `key = value`. -/
def taggedComposites (db : GormDB) (key value : String) : List String :=
  (db.tags.filter fun t => t.key = key ∧ t.value = value).flatMap fun t =>
    (db.records.filter (·.id = t.recordID)).map fun r => r.type ++ ":" ++ r.requestID

/-- The `seen` loop of `FindByTag`: first occurrences, in order. -/
def dedupSeen : List String → List String → List String
  | _, [] => []
  | seen, c :: rest => if c ∈ seen then dedupSeen seen rest else c :: dedupSeen (c :: seen) rest

/-- `FindByTag` -/
def findByTag (db : GormDB) (tag : String) : Except String (List String) :=
  match splitTag tag with
  | .error e => .error e
  | .ok (key, value) => .ok (dedupSeen [] (taggedComposites db key value))

end Gorm

end Recorder
