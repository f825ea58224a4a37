import Recorder.Storage.Gorm
import Mathlib.Data.List.Nodup

/-!
# Sequential runs of the GORM backend

When the calls run one after another, the tables keep an invariant (`Gorm.Inv`): record ids are
below the counter and distinct (`Gorm.IdInv`, which interleaved calls keep as well), and no two
record rows share a `(type, request_id)` pair. Under
it, `First` finds the pair's only row (`first_eq_some_iff`), and one call of `saveRecord` or
`Save` is described by its effect on `First` and on the tag rows of each pair
(`first_saveRecord`, `pairTags_save_self`, `pairTags_save_other`). `ValidDB` carries the
invariant, so the backend is a `Storage ValidDB`, and these step lemmas lift to whole runs.

`save` keeps the old tag rows of a pair when a later call has no tags, where the
single-transaction sibling deletes them; the results below describe a pair's tags when its last
save carried some.
-/

namespace Recorder

namespace Gorm

theorem RecordRow.isFor_iff {t id : String} {row : RecordRow} :
    RecordRow.isFor t id row = true ↔ row.pair = (t, id) := by
  simp [RecordRow.isFor, RecordRow.pair]

/-- What every interleaving of calls keeps (`World.run_idInv`): the record rows' ids are below
the counter and distinct. Two rows may share a pair, as concurrent calls leave them. -/
structure IdInv (db : GormDB) : Prop where
  ids_lt : ∀ r ∈ db.records, r.id < db.nextRecordID
  ids_nodup : (db.records.map RecordRow.id).Nodup

/-- The invariant of the tables under sequential calls: in addition, one row per pair. -/
structure Inv (db : GormDB) extends IdInv db : Prop where
  pairs_nodup : (db.records.map RecordRow.pair).Nodup

theorem inv_empty : Inv empty :=
  ⟨⟨by simp [empty], by simp [empty]⟩, by simp [empty]⟩

/-- `IdInv` reads only the record rows and the counter. -/
theorem IdInv.of_eq {db db' : GormDB} (h : IdInv db) (hr : db'.records = db.records)
    (hn : db'.nextRecordID = db.nextRecordID) : IdInv db' :=
  ⟨hr ▸ hn ▸ h.ids_lt, hr ▸ h.ids_nodup⟩

/-- Writing the record's row keeps `IdInv`, whatever the lookup before it found: an update keeps
every id, an insert takes the counter's. -/
theorem IdInv.writeRecord {db : GormDB} (h : IdInv db) (found : Option RecordRow)
    (record : Record) : IdInv (writeRecord db found record).2 := by
  cases found with
  | some row =>
    have hids : (updateRow db
        { row with primaryID := record.primaryID, payload := record.payload }).records.map
          RecordRow.id = db.records.map RecordRow.id := by
      simp only [updateRow, List.map_map]
      exact List.map_congr_left fun r _ => by by_cases hid : r.id = row.id <;> simp [hid]
    refine ⟨fun r hr => ?_, hids ▸ h.ids_nodup⟩
    have : r.id ∈ db.records.map RecordRow.id := hids ▸ List.mem_map_of_mem _ hr
    obtain ⟨x, hx, hxr⟩ := List.mem_map.mp this
    exact hxr ▸ h.ids_lt x hx
  | none =>
    refine ⟨?_, ?_⟩
    · simp only [Gorm.writeRecord, insertRow, List.mem_append, List.mem_singleton]
      rintro r (hr | rfl)
      · exact Nat.lt_succ_of_lt (h.ids_lt r hr)
      · exact Nat.lt_succ_self _
    · simp only [Gorm.writeRecord, insertRow, List.map_append, List.map_singleton]
      refine List.nodup_append.mpr ⟨h.ids_nodup, List.nodup_singleton _, ?_⟩
      simp only [List.disjoint_singleton, List.mem_map, not_exists, not_and]
      exact fun r hr hid => absurd (h.ids_lt r hr) (by simp [hid])

theorem minById_eq_none {l : List RecordRow} : minById l = none ↔ l = [] := by
  cases l with
  | nil => simp [minById]
  | cons r rest =>
    simp only [minById, reduceCtorEq, iff_false]
    split
    · simp
    · split <;> simp

theorem minById_mem {l : List RecordRow} {r : RecordRow} (h : minById l = some r) : r ∈ l := by
  induction l with
  | nil => cases h
  | cons x rest ih =>
    simp only [minById] at h
    split at h
    · cases h
      exact List.mem_cons_self _ _
    · rename_i m hm
      split at h <;> cases h
      · exact List.mem_cons_self _ _
      · exact List.mem_cons_of_mem _ (ih hm)

/-- What `First` finds is a row of the pair. -/
theorem mem_of_first {db : GormDB} {t id : String} {row : RecordRow}
    (h : first db t id = some row) : row ∈ db.records ∧ row.pair = (t, id) := by
  have := minById_mem h
  rw [List.mem_filter, RecordRow.isFor_iff] at this
  exact this

/-- Under the invariant, at most one row belongs to a pair. -/
theorem length_filter_isFor_le {db : GormDB} (hinv : Inv db) (t id : String) :
    (db.records.filter (RecordRow.isFor t id)).length ≤ 1 := by
  have hnodup : ((db.records.filter (RecordRow.isFor t id)).map RecordRow.pair).Nodup :=
    hinv.pairs_nodup.sublist ((List.filter_sublist _).map _)
  have hall : ∀ p ∈ (db.records.filter (RecordRow.isFor t id)).map RecordRow.pair, p = (t, id) := by
    simp only [List.mem_map, List.mem_filter, RecordRow.isFor_iff]
    rintro _ ⟨row, ⟨-, h⟩, rfl⟩
    exact h
  rw [List.eq_replicate_iff.mpr ⟨rfl, hall⟩, List.nodup_replicate] at hnodup
  simpa using hnodup

/-- Under the invariant, `First` finds a row exactly when it is the pair's row. -/
theorem first_eq_some_iff {db : GormDB} (hinv : Inv db) {t id : String} {row : RecordRow} :
    first db t id = some row ↔ row ∈ db.records ∧ row.pair = (t, id) := by
  refine ⟨mem_of_first, fun ⟨hmem, hpair⟩ => ?_⟩
  have hin : row ∈ db.records.filter (RecordRow.isFor t id) := by
    simp [List.mem_filter, RecordRow.isFor_iff, hmem, hpair]
  have hlen := length_filter_isFor_le hinv t id
  unfold first
  match hf : db.records.filter (RecordRow.isFor t id), hin, hlen with
  | [x], hin, _ =>
    rw [List.mem_singleton] at hin
    subst hin
    rfl
  | _ :: _ :: _, _, hlen => simp at hlen

/-- `First` finds nothing exactly when the pair has no row. -/
theorem first_eq_none_iff {db : GormDB} {t id : String} :
    first db t id = none ↔ ∀ row ∈ db.records, row.pair ≠ (t, id) := by
  simp [first, minById_eq_none, List.filter_eq_nil_iff, RecordRow.isFor_iff]

theorem eq_of_pair_eq {db : GormDB} (hinv : Inv db) {x y : RecordRow} (hx : x ∈ db.records)
    (hy : y ∈ db.records) (h : x.pair = y.pair) : x = y :=
  List.inj_on_of_nodup_map hinv.pairs_nodup hx hy h

theorem eq_of_id_eq {db : GormDB} (hinv : Inv db) {x y : RecordRow} (hx : x ∈ db.records)
    (hy : y ∈ db.records) (h : x.id = y.id) : x = y :=
  List.inj_on_of_nodup_map hinv.ids_nodup hx hy h

/-! ## One `saveRecord` -/

/-- The row `saveRecord` leaves for the record's pair, under the id `rid`. -/
def savedRow (rid : Nat) (record : Record) : RecordRow :=
  ⟨rid, record.type, record.requestID, record.primaryID, record.payload⟩

@[simp] theorem savedRow_pair (rid : Nat) (record : Record) :
    (savedRow rid record).pair = (record.type, record.requestID) := rfl

@[simp] theorem saveRecord_tags (db : GormDB) (record : Record) :
    (saveRecord db record).2.tags = db.tags := by
  unfold saveRecord writeRecord
  split <;> rfl

@[simp] theorem saveRecord_nextTagID (db : GormDB) (record : Record) :
    (saveRecord db record).2.nextTagID = db.nextTagID := by
  unfold saveRecord writeRecord
  split <;> rfl

/-- After `saveRecord`, the rows are the other pairs' rows and the record's row. -/
theorem mem_saveRecord {db : GormDB} (hinv : Inv db) (record : Record) {x : RecordRow} :
    x ∈ (saveRecord db record).2.records ↔
      (x ∈ db.records ∧ x.pair ≠ (record.type, record.requestID)) ∨
        x = savedRow (saveRecord db record).1 record := by
  unfold saveRecord writeRecord
  split
  · rename_i row hrow
    obtain ⟨hmem, hpair⟩ := (first_eq_some_iff hinv).mp hrow
    have hnew : { row with primaryID := record.primaryID, payload := record.payload } =
        savedRow row.id record := by
      simp only [RecordRow.pair, Prod.mk.injEq] at hpair
      simp [savedRow, hpair]
    simp only [updateRow, hnew, List.mem_map]
    constructor
    · rintro ⟨y, hy, rfl⟩
      split_ifs with hid
      · exact .inr rfl
      · refine .inl ⟨hy, fun h => hid ?_⟩
        rw [eq_of_pair_eq hinv hy hmem (h.trans hpair.symm)]
    · rintro (⟨hx, hne⟩ | rfl)
      · refine ⟨x, hx, if_neg fun hid => hne ?_⟩
        rw [eq_of_id_eq hinv hx hmem hid, hpair]
      · exact ⟨row, hmem, if_pos rfl⟩
  · rename_i hnone
    rw [first_eq_none_iff] at hnone
    simp only [insertRow, List.mem_append, List.mem_singleton]
    constructor
    · rintro (hx | rfl)
      · exact .inl ⟨hx, hnone x hx⟩
      · exact .inr rfl
    · rintro (⟨hx, -⟩ | rfl)
      · exact .inl hx
      · exact .inr rfl

/-- `saveRecord` keeps the invariant. -/
theorem inv_saveRecord {db : GormDB} (hinv : Inv db) (record : Record) :
    Inv (saveRecord db record).2 := by
  refine ⟨hinv.toIdInv.writeRecord _ record, ?_⟩
  unfold saveRecord writeRecord
  split
  · rename_i row hrow
    obtain ⟨hmem, -⟩ := (first_eq_some_iff hinv).mp hrow
    have hpairs : ∀ y ∈ db.records, (if y.id = row.id then
        { row with primaryID := record.primaryID, payload := record.payload } else y).pair =
          y.pair := by
      intro y hy
      split
      · rw [eq_of_id_eq hinv hy hmem ‹_›]
        rfl
      · rfl
    simpa only [updateRow, List.map_map] using (List.map_congr_left hpairs).symm ▸ hinv.pairs_nodup
  · rename_i hnone
    rw [first_eq_none_iff] at hnone
    simp only [insertRow, List.map_append, List.map_singleton]
    refine List.nodup_append.mpr ⟨hinv.pairs_nodup, List.nodup_singleton _, ?_⟩
    simp only [List.disjoint_singleton, List.mem_map, not_exists, not_and]
    exact fun y hy h => hnone y hy h

/-- `First` after `saveRecord`: the record's row for its pair, and as before for the others. -/
theorem first_saveRecord {db : GormDB} (hinv : Inv db) (record : Record) (t id : String) :
    first (saveRecord db record).2 t id =
      if (t, id) = (record.type, record.requestID) then
        some (savedRow (saveRecord db record).1 record)
      else first db t id := by
  apply Option.ext
  intro x
  rw [Option.mem_def, first_eq_some_iff (inv_saveRecord hinv record), mem_saveRecord hinv]
  split_ifs with hk
  · rw [Option.mem_def, Option.some_inj]
    constructor
    · rintro ⟨(⟨-, hne⟩ | rfl), hpair⟩
      · exact absurd (hpair.trans hk) hne
      · rfl
    · rintro rfl
      exact ⟨.inr rfl, by simp [hk]⟩
  · rw [Option.mem_def, first_eq_some_iff hinv]
    constructor
    · rintro ⟨(⟨hx, -⟩ | rfl), hpair⟩
      · exact ⟨hx, hpair⟩
      · exact absurd hpair.symm (by simpa using hk)
    · rintro ⟨hx, hpair⟩
      exact ⟨.inl ⟨hx, hpair ▸ fun h => hk (h ▸ rfl)⟩, hpair⟩

/-- The id `saveRecord` wrote differs from the ids of the other pairs' rows. -/
theorem id_ne_saveRecord {db : GormDB} (hinv : Inv db) (record : Record) {x : RecordRow}
    (hx : x ∈ db.records) (hne : x.pair ≠ (record.type, record.requestID)) :
    x.id ≠ (saveRecord db record).1 := by
  intro hid
  have hinv' := inv_saveRecord hinv record
  have hxm := (mem_saveRecord hinv record).mpr (.inl ⟨hx, hne⟩)
  have hsm := (mem_saveRecord hinv record).mpr (.inr rfl)
  exact hne (congrArg RecordRow.pair (eq_of_id_eq hinv' hxm hsm hid))

/-! ## Tag rows -/

/-- The tags of the record row `rid`, as key-value pairs in row order. -/
def tagsOf (db : GormDB) (rid : Nat) : Tags :=
  (db.tags.filter (·.recordID = rid)).map fun t => (t.key, t.value)

/-- The tags of a pair: those of its row. -/
def pairTags (db : GormDB) (t id : String) : Tags :=
  match first db t id with
  | some row => tagsOf db row.id
  | none => []

@[simp] theorem deleteTags_records (db : GormDB) (rid : Nat) :
    (deleteTags db rid).records = db.records := rfl

@[simp] theorem insertTags_records (db : GormDB) (rid : Nat) (tags : Tags) :
    (insertTags db rid tags).records = db.records := by
  induction tags generalizing db with
  | nil => rfl
  | cons e rest ih => exact ih _

@[simp] theorem saveTags_records (db : GormDB) (rid : Nat) (tags : Tags) :
    (saveTags db rid tags).records = db.records := by
  unfold saveTags
  split <;> simp

@[simp] theorem insertTags_nextRecordID (db : GormDB) (rid : Nat) (tags : Tags) :
    (insertTags db rid tags).nextRecordID = db.nextRecordID := by
  induction tags generalizing db with
  | nil => rfl
  | cons e rest ih => exact ih _

@[simp] theorem saveTags_nextRecordID (db : GormDB) (rid : Nat) (tags : Tags) :
    (saveTags db rid tags).nextRecordID = db.nextRecordID := by
  unfold saveTags
  split <;> simp [deleteTags]

@[simp] theorem tagsOf_saveRecord (db : GormDB) (record : Record) (rid : Nat) :
    tagsOf (saveRecord db record).2 rid = tagsOf db rid := by
  simp [tagsOf]

theorem tagsOf_deleteTags (db : GormDB) (rid rid' : Nat) :
    tagsOf (deleteTags db rid) rid' = if rid' = rid then [] else tagsOf db rid' := by
  unfold tagsOf deleteTags
  split_ifs with h
  · subst h
    simp [List.filter_filter]
  · congr 1
    rw [List.filter_filter]
    refine List.filter_congr fun t _ => ?_
    by_cases ht : t.recordID = rid' <;> simp [ht, h]

theorem tagsOf_insertTags (db : GormDB) (rid rid' : Nat) (tags : Tags) :
    tagsOf (insertTags db rid tags) rid' = tagsOf db rid' ++ if rid' = rid then tags else [] := by
  induction tags generalizing db with
  | nil => simp [insertTags]
  | cons e rest ih =>
    obtain ⟨k, v⟩ := e
    rw [insertTags, ih]
    by_cases h : rid' = rid
    · subst h
      simp [tagsOf]
    · simp [tagsOf, h, Ne.symm h]

theorem tagsOf_saveTags (db : GormDB) (rid rid' : Nat) (tags : Tags) :
    tagsOf (saveTags db rid tags) rid' =
      if rid' = rid then (if tags.isEmpty then [] else sortTags tags) else tagsOf db rid' := by
  unfold saveTags
  by_cases h : rid' = rid <;> split_ifs <;> simp [tagsOf_insertTags, tagsOf_deleteTags, h]

/-! ## One `Save` -/

/-- `Save` keeps the invariant. -/
theorem inv_save {db : GormDB} (hinv : Inv db) (record : Record) : Inv (save db record).2 := by
  unfold save
  split_ifs
  · exact hinv
  · exact inv_saveRecord hinv record
  · have h := inv_saveRecord hinv record
    exact ⟨h.toIdInv.of_eq (by simp) (by simp), by simpa using h.pairs_nodup⟩

/-- A successful `Save` had a non-empty payload and ran `saveRecord`. -/
theorem save_ok {db db' : GormDB} {record : Record} (h : save db record = (.ok (), db')) :
    record.payload ≠ [] ∧ db'.records = (saveRecord db record).2.records := by
  unfold save at h
  split_ifs at h with hp ht
  · simp at h
  · cases h
    exact ⟨by simpa using hp, rfl⟩
  · cases h
    exact ⟨by simpa using hp, saveTags_records ..⟩

/-- `First` after a successful `Save`. -/
theorem first_save {db db' : GormDB} (hinv : Inv db) {record : Record}
    (h : save db record = (.ok (), db')) (t id : String) :
    first db' t id =
      if (t, id) = (record.type, record.requestID) then
        some (savedRow (saveRecord db record).1 record)
      else first db t id := by
  rw [← first_saveRecord hinv]
  simp only [first, (save_ok h).2]

/-- A `Save` with tags leaves exactly those tags, sorted, on the record's pair. -/
theorem pairTags_save_self {db db' : GormDB} (hinv : Inv db) {record : Record}
    (h : save db record = (.ok (), db')) (htags : record.tags ≠ []) :
    pairTags db' record.type record.requestID = sortTags record.tags := by
  have hp := (save_ok h).1
  unfold save at h
  rw [if_neg (by simpa using hp), if_neg (by simpa using htags)] at h
  cases h
  simp only [pairTags, first, saveTags_records]
  rw [show minById _ = first (saveRecord db record).2 record.type record.requestID from rfl,
    first_saveRecord hinv, if_pos rfl]
  simp [savedRow, tagsOf_saveTags, htags]

/-- A `Save` leaves the other pairs' tags alone. -/
theorem pairTags_save_other {db db' : GormDB} (hinv : Inv db) {record : Record}
    (h : save db record = (.ok (), db')) {t id : String}
    (hk : (t, id) ≠ (record.type, record.requestID)) :
    pairTags db' t id = pairTags db t id := by
  have hfirst := first_save hinv h t id
  rw [if_neg hk] at hfirst
  unfold pairTags
  rw [hfirst]
  cases hrow : first db t id with
  | none => rfl
  | some row =>
    obtain ⟨hmem, hpair⟩ := mem_of_first hrow
    have hid := id_ne_saveRecord hinv record hmem (hpair ▸ hk)
    unfold save at h
    split_ifs at h with hp ht
    · simp at h
    · cases h
      simp
    · cases h
      simp [tagsOf_saveTags, hid]

/-! ## `FindByTag` -/

theorem mem_dedupSeen {seen l : List String} {c : String} :
    c ∈ dedupSeen seen l ↔ c ∈ l ∧ c ∉ seen := by
  induction l generalizing seen with
  | nil => simp [dedupSeen]
  | cons x rest ih =>
    unfold dedupSeen
    split_ifs with hx
    all_goals
      simp only [List.mem_cons, ih, not_or]
      by_cases hc : c = x
      · subst hc
        simp [hx]
      · simp [hc]

theorem nodup_dedupSeen (seen l : List String) : (dedupSeen seen l).Nodup := by
  induction l generalizing seen with
  | nil => exact List.nodup_nil
  | cons x rest ih =>
    unfold dedupSeen
    split_ifs
    · exact ih seen
    · exact List.nodup_cons.mpr ⟨fun h => (mem_dedupSeen.mp h).2 (List.mem_cons_self _ _), ih _⟩

theorem splitAtColon_append {k : List Char} (hk : ':' ∉ k) (v : List Char) :
    splitAtColon (k ++ ':' :: v) = (k, some v) := by
  induction k with
  | nil => simp [splitAtColon]
  | cons c rest ih =>
    simp only [List.mem_cons, not_or] at hk
    simp [splitAtColon, Ne.symm hk.1, ih hk.2]

/-- A tag `key:value` whose key has no `:` splits into that key and value. -/
theorem splitTag_append {k v : String} (hk0 : k ≠ "") (hk : ':' ∉ k.data) (hv : v ≠ "") :
    splitTag (k ++ ":" ++ v) = .ok (k, v) := by
  have hkd : k.data ≠ [] := fun h => hk0 (String.ext h)
  have hvd : v.data ≠ [] := fun h => hv (String.ext h)
  have hdata : (k ++ ":" ++ v).data = k.data ++ ':' :: v.data := by simp
  have hne : k ++ ":" ++ v ≠ "" := fun h => hkd (by simpa using congrArg String.data h)
  simp [splitTag, hne, hdata, splitAtColon_append hk, hkd, hvd]

/-- Under the invariant, the composites the join yields are those of the pairs carrying the
tag. -/
theorem mem_taggedComposites {db : GormDB} (hinv : Inv db) {key value c : String} :
    c ∈ taggedComposites db key value ↔
      ∃ t id, c = t ++ ":" ++ id ∧ (key, value) ∈ pairTags db t id := by
  simp only [taggedComposites, List.mem_flatMap, List.mem_filter, List.mem_map, decide_eq_true_eq]
  constructor
  · rintro ⟨tag, ⟨htag, hk, hv⟩, row, ⟨hrow, hid⟩, rfl⟩
    refine ⟨row.type, row.requestID, rfl, ?_⟩
    rw [pairTags, (first_eq_some_iff hinv).mpr ⟨hrow, rfl⟩]
    simp only [tagsOf, List.mem_map, List.mem_filter, decide_eq_true_eq]
    exact ⟨tag, ⟨htag, hid.symm⟩, by rw [hk, hv]⟩
  · rintro ⟨t, id, rfl, h⟩
    unfold pairTags at h
    split at h
    · rename_i row hrow
      obtain ⟨hmem, hpair⟩ := mem_of_first hrow
      simp only [tagsOf, List.mem_map, List.mem_filter, decide_eq_true_eq, Prod.mk.injEq] at h
      obtain ⟨tag, ⟨htag, hid⟩, hk, hv⟩ := h
      simp only [RecordRow.pair, Prod.mk.injEq] at hpair
      exact ⟨tag, ⟨htag, hk, hv⟩, row, ⟨hmem, hid.symm⟩, by rw [hpair.1, hpair.2]⟩
    · cases h

/-- `FindByTag` of `key:value`, for a key without `:`: each composite of a pair carrying the tag,
once. -/
theorem findByTag_spec {db : GormDB} (hinv : Inv db) {key value : String} (hk0 : key ≠ "")
    (hk : ':' ∉ key.data) (hv : value ≠ "") :
    ∃ l, findByTag db (key ++ ":" ++ value) = .ok l ∧ l.Nodup ∧
      ∀ c, c ∈ l ↔ ∃ t id, c = t ++ ":" ++ id ∧ (key, value) ∈ pairTags db t id := by
  refine ⟨dedupSeen [] (taggedComposites db key value),
    by simp only [findByTag, splitTag_append hk0 hk hv], nodup_dedupSeen _ _, fun c => ?_⟩
  rw [mem_dedupSeen, ← mem_taggedComposites hinv]
  simp

end Gorm

/-! ## The backend over valid tables -/

/-- Tables that satisfy the invariant. -/
structure ValidDB where
  db : GormDB
  inv : Gorm.Inv db

namespace Gorm

/-- The empty tables. -/
def validEmpty : ValidDB := ⟨empty, inv_empty⟩

/-- The GORM backend as a `Storage` of valid tables. -/
def validStorage : Storage ValidDB where
  save v record := ((save v.db record).1, ⟨(save v.db record).2, inv_save v.inv record⟩)
  load v := load v.db
  findByTag v := findByTag v.db

theorem save_of_validStorage {v v' : ValidDB} {record : Record}
    (h : validStorage.save v record = (.ok (), v')) : save v.db record = (.ok (), v'.db) := by
  simp only [validStorage, Prod.mk.injEq] at h
  rw [← h.2]
  exact Prod.ext h.1 rfl

/-- The key of a record: its pair. -/
def recordKey (record : Record) : Option (String × String) :=
  some (record.type, record.requestID)

/-- The payload of a pair's row. -/
def read (v : ValidDB) (k : String × String) : Option Bytes :=
  (first v.db k.1 k.2).map RecordRow.payload

/-- The GORM backend refines the keyed store, keyed by `(type, request_id)`. -/
def keyedRefinement : KeyedRefinement validStorage (String × String) where
  key := recordKey
  read := read
  save_read := by
    intro v record v' h
    refine ⟨(record.type, record.requestID), rfl, fun k => ?_⟩
    rw [read, read, first_save v.inv (save_of_validStorage h)]
    by_cases hk : (record.type, record.requestID) = k
    · subst hk
      simp [savedRow]
    · simp [hk, Ne.symm hk]

/-- `Load` returns the payload of the pair's row, when it is not empty. -/
theorem load_of_read {v : ValidDB} {t id : String} {p : Bytes} (h : read v (t, id) = some p)
    (hp : p ≠ []) : load v.db t id = .ok p := by
  simp only [read, Option.map_eq_some'] at h
  obtain ⟨row, hrow, rfl⟩ := h
  simp [load, hrow, hp]

/-! ## Runs -/

/-- Saves of other pairs leave a pair's tags alone. -/
theorem pairTags_saveAll_frame {t id : String} {records : List Record}
    (hother : ∀ r ∈ records, recordKey r ≠ some (t, id)) :
    ∀ {v v' : ValidDB}, validStorage.saveAll v records = some v' →
      pairTags v'.db t id = pairTags v.db t id := by
  induction records with
  | nil =>
    intro v v' h
    cases h
    rfl
  | cons x xs ih =>
    intro v v' h
    simp only [Storage.saveAll] at h
    split at h
    · rename_i v₁ hsave
      rw [ih (fun r hr => hother r (List.mem_cons_of_mem _ hr)) h,
        pairTags_save_other v.inv (save_of_validStorage hsave)
          (fun hk => hother x (List.mem_cons_self _ _) (by simp [recordKey, hk]))]
    · cases h

/-- After a run, a pair whose last save carried tags has exactly those tags, sorted. -/
theorem pairTags_saveAll_last {records : List Record} :
    ∀ {v v' : ValidDB}, validStorage.saveAll v records = some v' →
      ∀ {t id : String} {r : Record}, lastRecordUnder recordKey records (t, id) = some r →
        r.tags ≠ [] → pairTags v'.db t id = sortTags r.tags := by
  induction records with
  | nil => intro v v' _ t id r h; cases h
  | cons x xs ih =>
    intro v v' h t id r hlast htags
    simp only [Storage.saveAll] at h
    split at h
    · rename_i v₁ hsave
      simp only [lastRecordUnder] at hlast
      cases hxs : lastRecordUnder recordKey xs (t, id) with
      | some r' =>
        rw [hxs] at hlast
        cases hlast
        exact ih h hxs htags
      | none =>
        rw [hxs] at hlast
        simp only [Option.none_or] at hlast
        split at hlast
        · rename_i hkey
          cases hlast
          simp only [recordKey, Option.some.injEq, Prod.mk.injEq] at hkey
          rw [pairTags_saveAll_frame (lastRecordUnder_eq_none.mp hxs) h, ← hkey.1, ← hkey.2]
          exact pairTags_save_self v.inv (save_of_validStorage hsave) htags
        · cases hlast
    · cases h

/-- After a run of successful saves, `Load` returns the payload of the pair's last save. -/
theorem load_saveAll_last {v v' : ValidDB} {records : List Record}
    (hrun : validStorage.saveAll v records = some v') {t id : String} {p : Bytes}
    (hp : lastSavedUnder recordKey records (t, id) = some p) : load v'.db t id = .ok p := by
  have hread : read v' (t, id) = (lastSavedUnder recordKey records (t, id)).or (read v (t, id)) :=
    keyedRefinement.read_saveAll hrun _
  obtain ⟨rec, hrec, rfl⟩ := Option.map_eq_some'.mp hp
  obtain ⟨hmem, -⟩ := lastRecordUnder_mem hrec
  obtain ⟨s₁, s₂, hsave⟩ := validStorage.save_ok_of_saveAll hrun rec hmem
  refine load_of_read ?_ (save_ok (save_of_validStorage hsave)).1
  rw [hread, hp]
  rfl

/-- For every run of successful `Save` calls from valid tables: each saved pair has exactly one
row; `Load` returns the payload of the pair's last save; a pair whose last save carried tags has
exactly those tag rows (sorted by key and value); and `FindByTag(key:value)`, for a non-empty
key without `:` and a non-empty value, returns the `type:request_id` of each pair holding that
tag once. -/
theorem gorm_sequential_saves {v v' : ValidDB} {records : List Record}
    (hrun : validStorage.saveAll v records = some v') :
    (∀ r ∈ records, rowCount v'.db r.type r.requestID = 1) ∧
    (∀ t id p, lastSavedUnder recordKey records (t, id) = some p → load v'.db t id = .ok p) ∧
    (∀ t id r, lastRecordUnder recordKey records (t, id) = some r → r.tags ≠ [] →
      pairTags v'.db t id = sortTags r.tags) ∧
    (∀ key value, key ≠ "" → ':' ∉ key.data → value ≠ "" →
      ∃ l, findByTag v'.db (key ++ ":" ++ value) = .ok l ∧ l.Nodup ∧
        ∀ c, c ∈ l ↔ ∃ t id, c = t ++ ":" ++ id ∧ (key, value) ∈ pairTags v'.db t id) := by
  have hread : ∀ k, read v' k = (lastSavedUnder recordKey records k).or (read v k) :=
    keyedRefinement.read_saveAll hrun
  refine ⟨fun r hr => ?_, fun t id p hp => ?_, fun t id r hr htags => pairTags_saveAll_last hrun hr
    htags, fun key value hk0 hk hv => findByTag_spec v'.inv hk0 hk hv⟩
  · have hsome : (lastSavedUnder recordKey records (r.type, r.requestID)).isSome := by
      cases hl : lastRecordUnder recordKey records (r.type, r.requestID) with
      | none => exact absurd rfl (lastRecordUnder_eq_none.mp hl r hr)
      | some _ => simp [lastSavedUnder, hl]
    obtain ⟨p, hp⟩ := Option.isSome_iff_exists.mp hsome
    have hfirst := hread (r.type, r.requestID)
    rw [hp] at hfirst
    obtain ⟨row, hrow, -⟩ := Option.map_eq_some'.mp hfirst
    have hlen := length_filter_isFor_le v'.inv r.type r.requestID
    have hne : (v'.db.records.filter (RecordRow.isFor r.type r.requestID)) ≠ [] := by
      intro h
      simp [first, h, minById] at hrow
    unfold rowCount
    have := List.length_pos.mpr hne
    omega
  · exact load_saveAll_last hrun hp

/-- Two saves of one pair, the second with new data, leave one row holding the second payload. -/
theorem gorm_sequential_saves_twice :
    rowCount (save (save empty ⟨"request", none, "r", [1], [("a", "1")]⟩).2
        ⟨"request", some "p", "r", [2], [("b", "2")]⟩).2 "request" "r" = 1 ∧
    load (save (save empty ⟨"request", none, "r", [1], [("a", "1")]⟩).2
        ⟨"request", some "p", "r", [2], [("b", "2")]⟩).2 "request" "r" = .ok [2] :=
  let h := @gorm_sequential_saves validEmpty
    ⟨_, inv_save (inv_save inv_empty _) ⟨"request", some "p", "r", [2], [("b", "2")]⟩⟩
    [⟨"request", none, "r", [1], [("a", "1")]⟩, ⟨"request", some "p", "r", [2], [("b", "2")]⟩] rfl
  ⟨h.1 _ (List.mem_cons_self _ _), h.2.1 "request" "r" [2] rfl⟩

/-- A pair saved with the tag `a=1` and then without tags keeps the tag, where the
single-transaction `Save` drops it; and a tag whose key holds a `:` is split at that `:` by
`FindByTag`, which then finds nothing. -/
theorem gorm_untagged_save_keeps_tags :
    let tagged : Record := ⟨"request", none, "r", [1], [("a", "1")]⟩
    let untagged : Record := ⟨"request", none, "r", [2], []⟩
    pairTags (save (save empty tagged).2 untagged).2 "request" "r" = [("a", "1")] ∧
    findByTag (save (save empty tagged).2 untagged).2 "a:1" = .ok ["request:r"] ∧
    pairTags (saveSingleTransaction (saveSingleTransaction empty tagged).2 untagged).2
      "request" "r" = [] ∧
    findByTag (save empty ⟨"request", none, "r", [1], [("a:b", "c")]⟩).2 ("a:b" ++ ":" ++ "c") =
      .ok [] := by
  dsimp only
  decide

end Gorm

end Recorder
