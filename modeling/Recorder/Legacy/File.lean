import Recorder.Calls
import Recorder.Storage.File

/-!
# The legacy file recorder

`fileRecorder` (file_recorder, unnamed/part_009) implements the `Recorder` methods itself:
each `Record*` method builds the payload, joins the primary id to the request id with `_`, and
writes `filepath.Join(basePath, prefix, id+".json")`; the getters read the file of the request
id. Its successor is the base recorder over `fileStorage` (`NewFileRecorder` of
unnamed/part_010), which validates the ids before it saves.

**`legacy_file_agrees`**: from the same files, the two answer every run of plain calls
(`Plain`) alike and leave the same files.

## Where the two differ

Outside `Plain` they do not agree, and the differences are the point of the successor:

- an empty request id: the legacy recorder writes and reads `<prefix>/.json` (or
  `<prefix>/<primary>_.json`); the base recorder refuses with `requestID cannot be empty`;
- a primary id pointing to `""`: the legacy recorder files the record as `_<requestID>.json`,
  the successor as `<requestID>.json`;
- an empty request or response payload: both refuse, with `data cannot be nil or empty` and
  `request cannot be nil or empty` (`response …`);
- `FindByTag("")`: `FindByTag is not supported …` against `tag cannot be empty`.

`legacy_file_divergence` shows the first two.
-/

namespace Recorder

namespace LegacyFile

variable (basePath : String)

/-- `fileRecorder.record`: any primary id is joined, an empty one too. -/
def record (fs : FileSystem) (pfx : String) (primaryID : Option String) (id : String)
    (data : Bytes) : Except String Unit × FileSystem :=
  if data.isEmpty then (.error "data cannot be nil or empty", fs)
  else File.saveToFile basePath fs pfx (joinID "_" primaryID id) data

/-- `RecordRequest` -/
def recordRequest (fs : FileSystem) (primaryID : Option String) (requestID : String)
    (request : Bytes) (_tags : Tags) : Except String Unit × FileSystem :=
  record basePath fs "requests" primaryID requestID request

/-- `RecordResponse` -/
def recordResponse (fs : FileSystem) (primaryID : Option String) (requestID : String)
    (response : Bytes) (_tags : Tags) : Except String Unit × FileSystem :=
  record basePath fs "responses" primaryID requestID response

/-- `RecordError` -/
def recordError (fs : FileSystem) (id : Option String) (requestID : String) (err : Option String)
    (_tags : Tags) : Except String Unit × FileSystem :=
  match err with
  | none => (.error "error cannot be nil", fs)
  | some text => record basePath fs "errors" id requestID (Json.utf8 text.data)

/-- `RecordMetrics` -/
def recordMetrics (fs : FileSystem) (primaryID : Option String) (requestID : String)
    (metrics : Tags) (_tags : Tags) : Except String Unit × FileSystem :=
  if metrics.isEmpty then (.error "metrics cannot be nil or empty", fs)
  else record basePath fs "metrics" primaryID requestID (Json.marshalStringMap metrics)

/-- `FindByTag` -/
def findByTag (_fs : FileSystem) (_tag : String) : Except String (List String) :=
  .error "FindByTag is not supported in file_recorder-based recorder"

/-- The legacy recorder's answer to a call. -/
def call (fs : FileSystem) : Call → Except String Reply × FileSystem
  | .recordRequest p id d t => Reply.ofUnit (recordRequest basePath fs p id d t)
  | .recordResponse p id d t => Reply.ofUnit (recordResponse basePath fs p id d t)
  | .recordError p id e t => Reply.ofUnit (recordError basePath fs p id e t)
  | .recordMetrics p id m t => Reply.ofUnit (recordMetrics basePath fs p id m t)
  | .getRequest id => ((File.loadFromFile basePath fs "requests" id).map .payload, fs)
  | .getResponse id => ((File.loadFromFile basePath fs "responses" id).map .payload, fs)
  | .findByTag tag => ((findByTag fs tag).map .keys, fs)

/-- The calls the two file recorders answer alike: request ids and tags that are not empty,
primary ids that are absent or not empty, and a payload for `RecordRequest` and
`RecordResponse`. -/
def Plain : Call → Prop
  | .recordRequest p id d _ | .recordResponse p id d _ => p ≠ some "" ∧ id ≠ "" ∧ d ≠ []
  | .recordError p id _ _ | .recordMetrics p id _ _ => p ≠ some "" ∧ id ≠ ""
  | .getRequest id | .getResponse id => id ≠ ""
  | .findByTag tag => tag ≠ ""

/-- The base recorder over `fileStorage`, as `NewFileRecorder(basePath)` builds it. -/
def successor : BaseRecorder FileSystem :=
  new (File.storage basePath) []

/-- The calls are decided, so a run can be checked to be plain. -/
instance instDecidablePredPlain : DecidablePred Plain := fun c => by
  cases c <;> unfold Plain <;> infer_instance

/-- A plain record is written where the legacy recorder writes it. -/
theorem save_eq_record (fs : FileSystem) (t : RecordType) (pfx : String)
    (ht : File.prefixFor t = .ok pfx) {p : Option String} (hp : p ≠ some "") (id : String)
    (d : Bytes) (tags : Tags) :
    File.save basePath fs ⟨t, p, id, d, tags⟩ = record basePath fs pfx p id d := by
  unfold record File.save
  split_ifs
  · rfl
  · rw [ht, storageID_eq_joinID "_" hp]

/-- One plain call: the same reply and the same files. -/
theorem call_eq (fs : FileSystem) : ∀ c, Plain c → call basePath fs c = (successor basePath).call fs c
  | .recordRequest p id d t, ⟨hp, hid, hd⟩ => by
    simp [call, BaseRecorder.call, successor, recordRequest, BaseRecorder.recordRequest,
      BaseRecorder.recordPayload, hid, hd, File.storage,
      save_eq_record basePath fs RecordType.request "requests" rfl hp]
  | .recordResponse p id d t, ⟨hp, hid, hd⟩ => by
    simp [call, BaseRecorder.call, successor, recordResponse, BaseRecorder.recordResponse,
      BaseRecorder.recordPayload, hid, hd, File.storage,
      save_eq_record basePath fs RecordType.response "responses" rfl hp]
  | .recordError p id e t, ⟨hp, hid⟩ => by
    cases e <;> simp [call, BaseRecorder.call, successor, recordError, BaseRecorder.recordError,
      hid, File.storage, save_eq_record basePath fs RecordType.error "errors" rfl hp]
  | .recordMetrics p id m t, ⟨hp, hid⟩ => by
    simp [call, BaseRecorder.call, successor, recordMetrics, BaseRecorder.recordMetrics, hid,
      File.storage, save_eq_record basePath fs RecordType.metrics "metrics" rfl hp]
  | .getRequest id, (hid : id ≠ "") => by
    simp [call, BaseRecorder.call, successor, BaseRecorder.getRequest, BaseRecorder.getPayload,
      hid, File.storage, File.load, File.prefixFor, prefixBy]
  | .getResponse id, (hid : id ≠ "") => by
    simp [call, BaseRecorder.call, successor, BaseRecorder.getResponse, BaseRecorder.getPayload,
      hid, File.storage, File.load, File.prefixFor, prefixBy, RecordType.request,
      RecordType.response]
  | .findByTag tag, (htag : tag ≠ "") => by
    simp [call, BaseRecorder.call, successor, BaseRecorder.findByTag, htag, findByTag,
      File.storage, File.findByTag]

/-- **The legacy file recorder and its successor agree on plain calls.** From the same files,
every run of plain calls gets the same replies from both and leaves the same files. -/
theorem legacy_file_agrees {calls : List Call} (hplain : ∀ c ∈ calls, Plain c) (fs : FileSystem) :
    runCalls (call basePath) fs calls = runCalls (successor basePath).call fs calls := by
  have hstep : ∀ (s t : FileSystem) c, s = t → Plain c →
      Alike Eq (call basePath s c) ((successor basePath).call t c) := by
    rintro s _ c rfl hc
    rw [call_eq basePath s c hc]
    exact ⟨rfl, rfl⟩
  obtain ⟨h₁, h₂⟩ := runCalls_simulation _ _ hstep calls fs fs rfl hplain
  exact Prod.ext h₁ h₂

/-- A request under a primary id, read back by its full id. -/
theorem legacy_file_agrees_read_back :
    (∀ c ∈ [Call.recordRequest (some "order") "req1" [1] [], .getRequest "order_req1"], Plain c) ∧
    runCalls (call "/data") FileSystem.empty
        [.recordRequest (some "order") "req1" [1] [], .getRequest "order_req1"] =
      runCalls (successor "/data").call FileSystem.empty
        [.recordRequest (some "order") "req1" [1] [], .getRequest "order_req1"] :=
  ⟨by decide, legacy_file_agrees "/data" (by decide) _⟩

/-- Outside `Plain`: the legacy recorder writes a request with an empty id to `requests/.json`,
which its successor refuses, and one whose primary id is `""` to `requests/_<requestID>.json`,
which its successor writes to `requests/<requestID>.json`. -/
theorem legacy_file_divergence (fs : FileSystem) {d : Bytes} (hd : d ≠ []) (tags : Tags)
    {id : String} (hid : id ≠ "") :
    call basePath fs (.recordRequest none "" d tags) =
        Reply.ofUnit (File.saveToFile basePath fs "requests" "" d) ∧
      (successor basePath).call fs (.recordRequest none "" d tags) =
        (.error "requestID cannot be empty", fs) ∧
      call basePath fs (.recordRequest (some "") id d tags) =
        Reply.ofUnit (File.saveToFile basePath fs "requests" ("_" ++ id) d) ∧
      (successor basePath).call fs (.recordRequest (some "") id d tags) =
        Reply.ofUnit (File.saveToFile basePath fs "requests" id d) := by
  simp [call, BaseRecorder.call, successor, recordRequest, record, BaseRecorder.recordRequest,
    BaseRecorder.recordPayload, hd, hid, File.storage, File.save, File.prefixFor, prefixBy,
    Record.storageID, joinID, Reply.ofUnit, Except.map]

end LegacyFile

end Recorder
