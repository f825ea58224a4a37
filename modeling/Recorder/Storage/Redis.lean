import Recorder.Storage.Keyed
import Mathlib.Data.List.Nodup

/-!
# The Redis backend

`redisRecorder` (redis_recorder/recorder.go). A record is stored compressed under
`<Prefix>:<prefix>:<id>`, where `prefix` names the record type and `id` is
`PrimaryID:RequestID`, or `RequestID` when the primary id is `nil` or empty. Each tag `k=v`,
together with `request_id=<id>` and `record_type=<prefix>`, adds the record's key to the set
`<Prefix>:tag:<k>:<v>`. `Load` reads `<Prefix>:<prefix>:<requestID>`: the request id alone.

The Redis server is a map from keys to strings and a map from keys to sets; expiry (`TTL`), the
client's network errors, and the logging and metrics calls around each command are left out.
gzip is a parameter (`Codec`), whose round trip the results assume where they need it.
-/

namespace Recorder

/-- The options the storage reads: `Prefix` (after `applyRedisDefaults`) and `CompressionLvl`. -/
structure RedisOptions where
  keyPrefix : String
  compressionLvl : Int

/-- `compressor`: gzip at a level, and its inverse. -/
structure Codec where
  compressData : Bytes → Int → Except String Bytes
  decompressData : Bytes → Except String Bytes

/-- The server: string values (`SET`/`GET`) and sets (`SADD`/`SMEMBERS`, in one order), a set
holding each member once. -/
structure RedisState where
  strings : String → Option Bytes
  sets : String → List String
  sets_nodup : ∀ k, (sets k).Nodup

namespace RedisState

/-- The empty server. -/
def empty : RedisState := ⟨fun _ => none, fun _ => [], fun _ => List.nodup_nil⟩

/-- `SET key value` -/
def set (st : RedisState) (key : String) (value : Bytes) : RedisState :=
  { st with strings := fun k => if k = key then some value else st.strings k }

/-- `SADD key member`: a member the set already holds is not added again. -/
def sadd (st : RedisState) (key member : String) : RedisState where
  strings := st.strings
  sets k := if k = key ∧ member ∉ st.sets k then st.sets k ++ [member] else st.sets k
  sets_nodup k := by
    dsimp only
    split
    · rename_i h
      exact List.nodup_append.mpr
        ⟨st.sets_nodup k, List.nodup_singleton _, List.disjoint_singleton.mpr h.2⟩
    · exact st.sets_nodup k

@[simp] theorem set_strings (st : RedisState) (key : String) (value : Bytes) (k : String) :
    (st.set key value).strings k = if k = key then some value else st.strings k := rfl

@[simp] theorem sadd_strings (st : RedisState) (key member : String) :
    (st.sadd key member).strings = st.strings := rfl

end RedisState

namespace Redis

variable (opts : RedisOptions) (codec : Codec)

/-- `TagsPrefix` -/
def tagsPrefix : String := "tag"

/-- `prefixFor` -/
def prefixFor : RecordType → Except String String :=
  prefixBy ("request", "response", "error", "metrics") "unknown record type"

/-- The key of a record's data: `fmt.Sprintf("%s:%s:%s", Prefix, prefix, id)`. -/
def dataKey (pfx id : String) : String :=
  opts.keyPrefix ++ ":" ++ pfx ++ ":" ++ id

/-- The key of a tag's set: `fmt.Sprintf("%s:%s:%s", Prefix, TagsPrefix, tag)`. -/
def tagKey (tag : String) : String :=
  opts.keyPrefix ++ ":" ++ tagsPrefix ++ ":" ++ tag

/-- `tags[k] = v` -/
def setTag (tags : Tags) (k v : String) : Tags :=
  tags.filter (·.1 ≠ k) ++ [(k, v)]

/-- `updateTagIndex`: add the item's key to the set of every tag. -/
def updateTagIndex (st : RedisState) (tags : Tags) (itemKey : String) : RedisState :=
  tags.foldl (fun st e => st.sadd (tagKey opts (e.1 ++ ":" ++ e.2)) itemKey) st

/-- `recordData` -/
def recordData (st : RedisState) (pfx id : String) (compressedData : Bytes) (tags : Tags) :
    Except String Unit × RedisState :=
  let key := dataKey opts pfx id
  (.ok (), updateTagIndex opts (st.set key compressedData) tags key)

/-- `Save` -/
def save (st : RedisState) (record : Record) : Except String Unit × RedisState :=
  if record.requestID = "" then (.error "requestID cannot be empty", st)
  else if record.payload.isEmpty then (.error "data cannot be nil or empty", st)
  else
    match prefixFor record.type with
    | .error e => (.error e, st)
    | .ok pfx =>
      match codec.compressData record.payload opts.compressionLvl with
      | .error e => (.error ("failed to compress " ++ pfx ++ " data: " ++ e), st)
      | .ok compressedData =>
        let id := record.storageID ":"
        let tags := setTag (setTag record.tags "request_id" id) "record_type" pfx
        recordData opts st pfx id compressedData tags

/-- `getData` -/
def getData (st : RedisState) (pfx id : String) : Except String Bytes :=
  match st.strings (dataKey opts pfx id) with
  | none => .error (pfx ++ " data not found for id: " ++ id)
  | some data =>
    match codec.decompressData data with
    | .error e => .error ("failed to decompress " ++ pfx ++ " data: " ++ e)
    | .ok decompressedData => .ok decompressedData

/-- `Load` -/
def load (st : RedisState) (recordType : RecordType) (requestID : String) : Except String Bytes :=
  if requestID = "" then .error "requestID cannot be empty"
  else
    match prefixFor recordType with
    | .error e => .error e
    | .ok pfx => getData opts codec st pfx requestID

/-- `FindByTag`: the members of the tag's set. -/
def findByTag (st : RedisState) (tag : String) : Except String (List String) :=
  if tag = "" then .error "tag cannot be empty" else .ok (st.sets (tagKey opts tag))

/-- The Redis backend as a `Storage`. -/
def storage : Storage RedisState :=
  ⟨save opts codec, load opts codec, findByTag opts⟩

/-- The key a record is saved under, for a record type the backend knows. -/
def recordKey (record : Record) : Option String :=
  match prefixFor record.type with
  | .ok pfx => some (dataKey opts pfx (record.storageID ":"))
  | .error _ => none

/-! ## Saving through the keyed store -/

@[simp] theorem updateTagIndex_strings (st : RedisState) (tags : Tags) (itemKey : String) :
    (updateTagIndex opts st tags itemKey).strings = st.strings := by
  induction tags generalizing st with
  | nil => rfl
  | cons e rest ih => exact (ih _).trans rfl

/-- What a successful save did: it compressed the payload and set the record's key. -/
theorem save_ok {st st' : RedisState} {record : Record} (h : save opts codec st record = (.ok (), st')) :
    ∃ pfx c, prefixFor record.type = .ok pfx ∧
      codec.compressData record.payload opts.compressionLvl = .ok c ∧
      st'.strings = (st.set (dataKey opts pfx (record.storageID ":")) c).strings := by
  unfold save at h
  split_ifs at h
  · simp at h
  · simp at h
  split at h
  · cases h
  · rename_i pfx hpfx
    split at h
    · cases h
    · rename_i c hc
      cases h
      exact ⟨pfx, c, hpfx, hc, updateTagIndex_strings ..⟩

/-- What the backend holds under a key: the decompressed value. -/
def read (st : RedisState) (key : String) : Option Bytes :=
  (st.strings key).bind fun data => (codec.decompressData data).toOption

/-- When decompression inverts compression, the Redis backend refines the keyed store. -/
def keyedRefinement
    (hcodec : ∀ d c, codec.compressData d opts.compressionLvl = .ok c → codec.decompressData c = .ok d) :
    KeyedRefinement (storage opts codec) String where
  key := recordKey opts
  read := read codec
  save_read := by
    intro st record st' h
    obtain ⟨pfx, c, hpfx, hc, hst⟩ := save_ok opts codec h
    refine ⟨dataKey opts pfx (record.storageID ":"), by simp [recordKey, hpfx], fun k => ?_⟩
    simp only [read, hst, RedisState.set_strings, eq_comm (a := k)]
    split
    · simp [hcodec _ _ hc, Except.toOption]
    · rfl

/-- `Load` returns what the backend holds under `Prefix:prefix:requestID`. -/
theorem load_of_read {st : RedisState} {t : RecordType} {pfx id : String} {p : Bytes}
    (hid : id ≠ "") (ht : prefixFor t = .ok pfx) (h : read codec st (dataKey opts pfx id) = some p) :
    load opts codec st t id = .ok p := by
  simp only [read, Option.bind_eq_some] at h
  obtain ⟨data, hdata, hp⟩ := h
  simp only [load, hid, if_false, ht, getData, hdata]
  split <;> simp_all [Except.toOption]

/-- After a run of successful saves, `Load` returns the payload of the last save under the key
it reads. -/
theorem load_saveAll_last
    (hcodec : ∀ d c, codec.compressData d opts.compressionLvl = .ok c → codec.decompressData c = .ok d)
    {s s' : RedisState} {records : List Record} (hrun : (storage opts codec).saveAll s records = some s')
    {t : RecordType} {pfx id : String} {p : Bytes} (hid : id ≠ "") (ht : prefixFor t = .ok pfx)
    (hlast : lastSavedUnder (recordKey opts) records (dataKey opts pfx id) = some p) :
    load opts codec s' t id = .ok p := by
  refine load_of_read opts codec hid ht ?_
  have hread : read codec s' (dataKey opts pfx id) =
      (lastSavedUnder (recordKey opts) records (dataKey opts pfx id)).or
        (read codec s (dataKey opts pfx id)) :=
    (keyedRefinement opts codec hcodec).read_saveAll hrun _
  rw [hread, hlast]
  rfl

end Redis

end Recorder
