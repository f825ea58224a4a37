import Recorder.Storage.Record
import Recorder.Scrubber.Traversal
import Recorder.Json.Encode

/-!
# The base recorder

`New` and the methods of `baseRecorder` (base_recorder.go), with the recorder options of the
scrubber binding file (`WithPayloadScrubber`, `WithTagScrubber`). Every method validates its
arguments, scrubs the payload and the tags through the configured hooks, and hands one `Record`
to the storage; the getters validate the id and call `Load`.

`RecordRequest` and `RecordResponse` differ only in their record type and the word in their
error texts, and are one definition (`recordPayload`); `RecordError` checks its error first and
`RecordMetrics` marshals its map, so each keeps its own body around the common tail
`scrubAndSave`. The asynchronous wrappers (`Async`) run the same calls on a goroutine and are
not modelled. A Go `error` value is `none` for `nil` and otherwise its `Error()` text.
-/

namespace Recorder

/-- `PayloadScrubFunc` -/
abbrev PayloadScrubFunc := RecordType → Bytes → Except String Bytes

/-- `TagScrubFunc` -/
abbrev TagScrubFunc := RecordType → Tags → Except String Tags

/-- `recorderOptions` -/
structure RecorderOptions where
  payloadScrubber : Option PayloadScrubFunc
  tagScrubber : Option TagScrubFunc

/-- `RecorderOption` -/
abbrev RecorderOption := RecorderOptions → RecorderOptions

/-- `WithPayloadScrubber` -/
def withPayloadScrubber (fn : Option PayloadScrubFunc) : RecorderOption :=
  fun o => { o with payloadScrubber := fn }

/-- `WithTagScrubber` -/
def withTagScrubber (fn : Option TagScrubFunc) : RecorderOption :=
  fun o => { o with tagScrubber := fn }

/-- `baseRecorder` over a storage with state `S`. -/
structure BaseRecorder (S : Type) where
  storage : Storage S
  payloadScrubber : Option PayloadScrubFunc
  tagScrubber : Option TagScrubFunc

/-- `New`: apply the options in order, skipping `nil` ones. -/
def new {S : Type} (storage : Storage S) (opts : List (Option RecorderOption)) : BaseRecorder S :=
  let cfg := opts.foldl (fun cfg opt => match opt with | some o => o cfg | none => cfg)
    ⟨none, none⟩
  ⟨storage, cfg.payloadScrubber, cfg.tagScrubber⟩

namespace BaseRecorder

variable {S : Type} (r : BaseRecorder S)

/-- `scrubPayload`: the hook, unless there is none or the payload is empty. -/
def scrubPayload (recordType : RecordType) (payload : Bytes) : Except String Bytes :=
  match r.payloadScrubber with
  | some f => if payload.isEmpty then .ok payload else f recordType payload
  | none => .ok payload

/-- `prepareTags`: the hook on a copy of the tags, unless there is none or the copy is empty. -/
def prepareTags (recordType : RecordType) (tags : Tags) : Except String Tags :=
  let cloned := cloneTags tags
  match r.tagScrubber with
  | some f => if cloned.isEmpty then .ok cloned else f recordType cloned
  | none => .ok cloned

/-- The tail of the four `Record*` methods: scrub the payload and the tags, then save; `what`
names the record in the error texts. -/
def scrubAndSave (s : S) (recordType : RecordType) (what : String) (primaryID : Option String)
    (requestID : String) (payload : Bytes) (tags : Tags) : Except String Unit × S :=
  match r.scrubPayload recordType payload with
  | .error e => (.error ("scrub " ++ what ++ " payload: " ++ e), s)
  | .ok sanitizedPayload =>
    match r.prepareTags recordType tags with
    | .error e => (.error ("scrub " ++ what ++ " tags: " ++ e), s)
    | .ok sanitizedTags =>
      r.storage.save s ⟨recordType, primaryID, requestID, sanitizedPayload, sanitizedTags⟩

/-- `RecordRequest` and `RecordResponse`. -/
def recordPayload (s : S) (recordType : RecordType) (what : String) (primaryID : Option String)
    (requestID : String) (payload : Bytes) (tags : Tags) : Except String Unit × S :=
  if requestID = "" then (.error "requestID cannot be empty", s)
  else if payload.isEmpty then (.error (what ++ " cannot be nil or empty"), s)
  else r.scrubAndSave s recordType what primaryID requestID payload tags

/-- `RecordRequest` -/
def recordRequest (s : S) (primaryID : Option String) (requestID : String) (request : Bytes)
    (tags : Tags) : Except String Unit × S :=
  r.recordPayload s RecordType.request "request" primaryID requestID request tags

/-- `RecordResponse` -/
def recordResponse (s : S) (primaryID : Option String) (requestID : String) (response : Bytes)
    (tags : Tags) : Except String Unit × S :=
  r.recordPayload s RecordType.response "response" primaryID requestID response tags

/-- `RecordError`: the error is checked before the id, and its text is the payload. -/
def recordError (s : S) (id : Option String) (requestID : String) (err : Option String)
    (tags : Tags) : Except String Unit × S :=
  match err with
  | none => (.error "error cannot be nil", s)
  | some text =>
    if requestID = "" then (.error "requestID cannot be empty", s)
    else r.scrubAndSave s RecordType.error "error" id requestID (Json.utf8 text.data) tags

/-- `RecordMetrics`: the metrics map is marshalled to JSON (which cannot fail for a
`map[string]string`). -/
def recordMetrics (s : S) (primaryID : Option String) (requestID : String) (metrics : Tags)
    (tags : Tags) : Except String Unit × S :=
  if requestID = "" then (.error "requestID cannot be empty", s)
  else if metrics.isEmpty then (.error "metrics cannot be nil or empty", s)
  else r.scrubAndSave s RecordType.metrics "metrics" primaryID requestID
    (Json.marshalStringMap metrics) tags

/-- `GetRequest` and `GetResponse`. -/
def getPayload (s : S) (recordType : RecordType) (requestID : String) : Except String Bytes :=
  if requestID = "" then .error "requestID cannot be empty"
  else r.storage.load s recordType requestID

/-- `GetRequest` -/
def getRequest (s : S) (requestID : String) : Except String Bytes :=
  r.getPayload s RecordType.request requestID

/-- `GetResponse` -/
def getResponse (s : S) (requestID : String) : Except String Bytes :=
  r.getPayload s RecordType.response requestID

/-- `FindByTag` -/
def findByTag (s : S) (tag : String) : Except String (List String) :=
  if tag = "" then .error "tag cannot be empty" else r.storage.findByTag s tag

/-! ## What reaches the storage -/

/-- Without hooks, a request or response that passes validation is saved as it is. -/
theorem recordPayload_of_valid (hp : r.payloadScrubber = none) (ht : r.tagScrubber = none)
    (s : S) (recordType what : String) (primaryID : Option String) {requestID : String}
    {payload : Bytes} (hid : requestID ≠ "") (hpayload : payload ≠ []) (tags : Tags) :
    r.recordPayload s recordType what primaryID requestID payload tags =
      r.storage.save s ⟨recordType, primaryID, requestID, payload, tags⟩ := by
  simp [recordPayload, scrubAndSave, scrubPayload, prepareTags, hp, ht, hid, hpayload, cloneTags]

/-- A request or response that fails leaves the storage's state as it was, unless the error is
the storage's own. -/
theorem recordPayload_error (s : S) (recordType what : String) (primaryID : Option String)
    (requestID : String) (payload : Bytes) (tags : Tags) {e : String} {s' : S}
    (h : r.recordPayload s recordType what primaryID requestID payload tags = (.error e, s')) :
    s' = s ∨ ∃ rec, r.storage.save s rec = (.error e, s') := by
  unfold recordPayload scrubAndSave at h
  split_ifs at h
  · exact .inl (Prod.ext_iff.mp h).2.symm
  · exact .inl (Prod.ext_iff.mp h).2.symm
  · split at h
    · exact .inl (Prod.ext_iff.mp h).2.symm
    · split at h
      · exact .inl (Prod.ext_iff.mp h).2.symm
      · exact .inr ⟨_, h⟩

end BaseRecorder

end Recorder
