import Recorder.Calls
import Recorder.Storage.File

/-!
# The first base recorder

The base recorder as it stood before the scrubbing hooks (the second file of scrubber.go,
lines 536–752): `New(storage)` takes no options, and every `Record*` method validates its
arguments and hands the record, with a copy of its tags, straight to `Save`.

**`base_without_hooks_agrees`**: the current `New`, given options whose hooks come out `nil`
(none at all, `nil` options, or `WithPayloadScrubber(nil)` and `WithTagScrubber(nil)`), answers
every run of calls as the first one does, over every storage and from every state. The hooks
are the whole of what the current recorder adds. `New(nil)` panics in the first version; a
`Storage` here is always a value.
-/

namespace Recorder

namespace LegacyBase

variable {S : Type} (storage : Storage S)

/-- `RecordRequest` and `RecordResponse`. -/
def recordPayload (s : S) (recordType what : String) (primaryID : Option String)
    (requestID : String) (payload : Bytes) (tags : Tags) : Except String Unit × S :=
  if requestID = "" then (.error "requestID cannot be empty", s)
  else if payload.isEmpty then (.error (what ++ " cannot be nil or empty"), s)
  else storage.save s ⟨recordType, primaryID, requestID, payload, cloneTags tags⟩

/-- `RecordRequest` -/
def recordRequest (s : S) (primaryID : Option String) (requestID : String) (request : Bytes)
    (tags : Tags) : Except String Unit × S :=
  recordPayload storage s RecordType.request "request" primaryID requestID request tags

/-- `RecordResponse` -/
def recordResponse (s : S) (primaryID : Option String) (requestID : String) (response : Bytes)
    (tags : Tags) : Except String Unit × S :=
  recordPayload storage s RecordType.response "response" primaryID requestID response tags

/-- `RecordError`: the error is checked before the id. -/
def recordError (s : S) (id : Option String) (requestID : String) (err : Option String)
    (tags : Tags) : Except String Unit × S :=
  match err with
  | none => (.error "error cannot be nil", s)
  | some text =>
    if requestID = "" then (.error "requestID cannot be empty", s)
    else storage.save s ⟨RecordType.error, id, requestID, Json.utf8 text.data, cloneTags tags⟩

/-- `RecordMetrics` -/
def recordMetrics (s : S) (primaryID : Option String) (requestID : String) (metrics : Tags)
    (tags : Tags) : Except String Unit × S :=
  if requestID = "" then (.error "requestID cannot be empty", s)
  else if metrics.isEmpty then (.error "metrics cannot be nil or empty", s)
  else storage.save s
    ⟨RecordType.metrics, primaryID, requestID, Json.marshalStringMap metrics, cloneTags tags⟩

/-- `GetRequest` and `GetResponse`. -/
def getPayload (s : S) (recordType : RecordType) (requestID : String) : Except String Bytes :=
  if requestID = "" then .error "requestID cannot be empty" else storage.load s recordType requestID

/-- `FindByTag` -/
def findByTag (s : S) (tag : String) : Except String (List String) :=
  if tag = "" then .error "tag cannot be empty" else storage.findByTag s tag

/-- The first base recorder's answer to a call. -/
def call (s : S) : Call → Except String Reply × S
  | .recordRequest p id d t => Reply.ofUnit (recordRequest storage s p id d t)
  | .recordResponse p id d t => Reply.ofUnit (recordResponse storage s p id d t)
  | .recordError p id e t => Reply.ofUnit (recordError storage s p id e t)
  | .recordMetrics p id m t => Reply.ofUnit (recordMetrics storage s p id m t)
  | .getRequest id => ((getPayload storage s RecordType.request id).map .payload, s)
  | .getResponse id => ((getPayload storage s RecordType.response id).map .payload, s)
  | .findByTag tag => ((findByTag storage s tag).map .keys, s)

section NoHooks

variable {opts : List (Option RecorderOption)} (hp : (new storage opts).payloadScrubber = none)
  (ht : (new storage opts).tagScrubber = none)
include hp ht

/-- Without hooks, the current recorder saves what the first one saves. -/
theorem scrubAndSave_eq (s : S) (t what : String) (p : Option String) (id : String) (d : Bytes)
    (tags : Tags) :
    (new storage opts).scrubAndSave s t what p id d tags = storage.save s ⟨t, p, id, d, cloneTags tags⟩ := by
  simp [BaseRecorder.scrubAndSave, BaseRecorder.scrubPayload, BaseRecorder.prepareTags, hp, ht]

/-- Without hooks, the current recorder answers every call as the first one does. -/
theorem call_eq (s : S) : ∀ c, (new storage opts).call s c = call storage s c
  | .recordRequest .. | .recordResponse .. | .recordMetrics .. => by
    simp only [BaseRecorder.call, call, BaseRecorder.recordRequest, BaseRecorder.recordResponse,
      BaseRecorder.recordMetrics, BaseRecorder.recordPayload, recordRequest, recordResponse,
      recordMetrics, recordPayload, scrubAndSave_eq storage hp ht, BaseRecorder.new_storage]
  | .recordError _ _ e _ => by
    cases e <;> simp only [BaseRecorder.call, call, BaseRecorder.recordError, recordError,
      scrubAndSave_eq storage hp ht]
  | .getRequest _ | .getResponse _ | .findByTag _ => rfl

/-- **The hooks are all the current base recorder adds.** Built with options whose hooks come
out `nil`, it answers every run of calls, over every storage and from every state, as the first
base recorder does, and leaves the storage in the same state. -/
theorem base_without_hooks_agrees (s : S) (calls : List Call) :
    runCalls (new storage opts).call s calls = runCalls (call storage) s calls :=
  congrArg (fun step => runCalls step s calls) (funext₂ (call_eq storage hp ht))

end NoHooks

/-- The file backend with `nil` hooks, on a request and its read back. -/
theorem base_without_hooks_agrees_nil :
    let opts := [some (withPayloadScrubber none), none, some (withTagScrubber none)]
    let calls := [Call.recordRequest none "req1" [1] [("env", "prod")], .getRequest "req1"]
    (new (File.storage "/data") opts).payloadScrubber = none ∧
      (new (File.storage "/data") opts).tagScrubber = none ∧
      runCalls (new (File.storage "/data") opts).call FileSystem.empty calls =
        runCalls (call (File.storage "/data")) FileSystem.empty calls := by
  intro opts calls
  refine ⟨rfl, rfl, ?_⟩
  apply base_without_hooks_agrees <;> rfl

end LegacyBase

end Recorder
