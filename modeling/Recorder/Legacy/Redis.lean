import Recorder.Calls
import Recorder.Storage.RedisIndex

/-!
# The legacy Redis recorder

The first `redisRecorder` of redis_recorder/options.go implements the `Recorder` methods
itself: each `Record*` method validates its arguments, compresses the payload, joins the primary
id to the request id with `:`, sets `request_id` in the caller's tags and stores the record under
`<Prefix>:<prefix>:<id>`, indexed under each tag. Its successor is the base recorder over the
Redis storage (`recorder.New(storage)` in `NewRedisRecorderWithValidation` of recorder.go), whose
`Save` also indexes every record under `record_type=<prefix>`. `getData`, `updateTagIndex` and
`FindByTag`'s body are the same code in both and are shared with `Recorder.Redis`.

- `Agree`: the relation between a legacy server and a current one: the same values, and the same
  sets except the `record_type` sets, which only the successor fills;
- `record_agrees`, `call_agrees`, `runCalls_agree`: one plain call keeps `Agree`, with the same
  reply, and so does every run of plain calls on maps given by value;
- `RefCall`, `refCall`: a program's calls with their maps as addresses in the caller's heap, into
  which the legacy `record` writes `request_id`; `runCalls_refCall`: over a run that passes no
  map twice, that write is never read;
- **`legacy_redis_agrees`**: from agreeing servers, every run of plain calls that passes no map
  twice gets the same replies from both recorders and leaves them agreeing.

## Where the two differ

Outside `Plain` they do not agree:

- a primary id pointing to `""`: the legacy key is `<Prefix>:<prefix>::<requestID>`, the
  successor's `<Prefix>:<prefix>:<requestID>`;
- a caller's tag named `record_type`: the legacy recorder indexes it as given, the successor
  replaces its value by the record's prefix;
- an empty request or response payload: `data cannot be nil or empty` against
  `request cannot be nil or empty` (`response …`);
- `FindByTag("record_type:<v>")`: the legacy server's set holds only what callers tagged so;
- a map passed twice: a tag map passed again as metrics carries the legacy recorder's
  `request_id` into the stored metrics.

The second legacy recorder of the file differs from the first only in `getData`'s error for a
value that does not decompress (`legacy_generations_agree`).
-/

namespace Recorder

namespace LegacyRedis

open Redis

variable (opts : RedisOptions) (codec : Codec)

/-- `redisRecorder.record`: any primary id is joined, an empty one too, and `request_id` is
written into the caller's tag map (`tags["request_id"] = id`), which is returned with the result
and the server. The key and the index are written by `recordData`, whose extra `data` argument
the legacy code does not read. -/
def record (st : RedisState) (pfx : String) (primaryID : Option String) (id : String)
    (data : Bytes) (tags : Tags) : Except String Unit × RedisState × Tags :=
  if data.isEmpty then (.error "data cannot be nil or empty", st, tags)
  else
    match codec.compressData data opts.compressionLvl with
    | .error e => (.error ("failed to compress " ++ pfx ++ " data: " ++ e), st, tags)
    | .ok compressedData =>
      let id := joinID ":" primaryID id
      let tags := setTag tags "request_id" id
      let stored := recordData opts st pfx id compressedData tags
      (stored.1, stored.2, tags)

/-- `RecordRequest` and `RecordResponse`, with `RequestPrefix` or `ResponsePrefix`. -/
def recordPayload (st : RedisState) (pfx : String) (primaryID : Option String) (requestID : String)
    (payload : Bytes) (tags : Tags) : Except String Unit × RedisState × Tags :=
  if requestID = "" then (.error "requestID cannot be empty", st, tags)
  else record opts codec st pfx primaryID requestID payload tags

/-- `RecordRequest` -/
def recordRequest (st : RedisState) (primaryID : Option String) (requestID : String)
    (request : Bytes) (tags : Tags) : Except String Unit × RedisState × Tags :=
  recordPayload opts codec st "request" primaryID requestID request tags

/-- `RecordResponse` -/
def recordResponse (st : RedisState) (primaryID : Option String) (requestID : String)
    (response : Bytes) (tags : Tags) : Except String Unit × RedisState × Tags :=
  recordPayload opts codec st "response" primaryID requestID response tags

/-- `RecordError`: the error is checked before the id. -/
def recordError (st : RedisState) (id : Option String) (requestID : String) (err : Option String)
    (tags : Tags) : Except String Unit × RedisState × Tags :=
  match err with
  | none => (.error "error cannot be nil", st, tags)
  | some text =>
    if requestID = "" then (.error "requestID cannot be empty", st, tags)
    else record opts codec st "error" id requestID (Json.utf8 text.data) tags

/-- `RecordMetrics`: the metrics map is read, never written. -/
def recordMetrics (st : RedisState) (primaryID : Option String) (requestID : String)
    (metrics : Tags) (tags : Tags) : Except String Unit × RedisState × Tags :=
  if requestID = "" then (.error "requestID cannot be empty", st, tags)
  else if metrics.isEmpty then (.error "metrics cannot be nil or empty", st, tags)
  else record opts codec st "metrics" primaryID requestID (Json.marshalStringMap metrics) tags

/-- `GetRequest` and `GetResponse`. -/
def getPayload (st : RedisState) (pfx requestID : String) : Except String Bytes :=
  if requestID = "" then .error "requestID cannot be empty" else getData opts codec st pfx requestID

/-- The reply of a `Record*` method, and its server and the caller's tag map afterwards. -/
def Reply.ofRecorded (r : Except String Unit × RedisState × Tags) :
    (Except String Reply × RedisState) × Tags :=
  (Reply.ofUnit (r.1, r.2.1), r.2.2)

/-- The legacy recorder's answer to a call, and the caller's tag map after it (`[]` for the calls
without one). -/
def callWithTags (st : RedisState) : Call → (Except String Reply × RedisState) × Tags
  | .recordRequest p id d t => Reply.ofRecorded (recordRequest opts codec st p id d t)
  | .recordResponse p id d t => Reply.ofRecorded (recordResponse opts codec st p id d t)
  | .recordError p id e t => Reply.ofRecorded (recordError opts codec st p id e t)
  | .recordMetrics p id m t => Reply.ofRecorded (recordMetrics opts codec st p id m t)
  | .getRequest id => (((getPayload opts codec st "request" id).map .payload, st), [])
  | .getResponse id => (((getPayload opts codec st "response" id).map .payload, st), [])
  | .findByTag tag => (((findByTag opts st tag).map .keys, st), [])

/-- The legacy recorder's answer to a call. -/
def call (st : RedisState) (c : Call) : Except String Reply × RedisState :=
  (callWithTags opts codec st c).1

/-- The base recorder over the Redis storage, as `NewRedisRecorderWithValidation` builds it. -/
def successor : BaseRecorder RedisState :=
  new (storage opts codec) []

/-- The key of the set of `record_type=<pfx>`. -/
def recordTypeKey (pfx : String) : String :=
  tagKey opts ("record_type" ++ ":" ++ pfx)

/-- A legacy server and a current one agree: the same values, and the same sets except those of
`record_type`. -/
def Agree (st st' : RedisState) : Prop :=
  st.strings = st'.strings ∧ ∀ k, (∀ pfx, k ≠ recordTypeKey opts pfx) → st.sets k = st'.sets k

/-- The calls the two Redis recorders answer alike: primary ids that are absent or not empty, no
caller's tag named `record_type`, a payload for `RecordRequest` and `RecordResponse`, and no
search of a tag that starts with `record_type:`. -/
def Plain : Call → Prop
  | .recordRequest p _ d t | .recordResponse p _ d t =>
    p ≠ some "" ∧ d ≠ [] ∧ "record_type" ∉ t.map Prod.fst
  | .recordError p _ _ t | .recordMetrics p _ _ t => p ≠ some "" ∧ "record_type" ∉ t.map Prod.fst
  | .getRequest _ | .getResponse _ => True
  | .findByTag tag => ¬ ("record_type" ++ ":").data <+: tag.data

instance instDecidablePredPlain : DecidablePred Plain := fun c => by
  cases c <;> unfold Plain <;> infer_instance

/-! ### One call -/

/-- Without a caller's `record_type`, the successor's tags are the legacy ones and
`record_type` last. -/
theorem setTag_recordType {tags : Tags} (htags : "record_type" ∉ tags.map Prod.fst) (id pfx : String) :
    setTag (setTag tags "request_id" id) "record_type" pfx =
      setTag tags "request_id" id ++ [("record_type", pfx)] := by
  refine congrArg (· ++ _) (List.filter_eq_self.mpr fun e he => ?_)
  simp only [setTag, List.mem_append, List.mem_filter, List.mem_singleton] at he
  rcases he with ⟨he, -⟩ | rfl
  · exact decide_eq_true fun h => htags (h ▸ List.mem_map_of_mem _ he)
  · exact decide_eq_true (show "request_id" ≠ "record_type" by decide)

/-- Storing under one key, indexed under the same tags and, on the current server,
`record_type`, keeps the servers in agreement. -/
theorem agree_recordData {st st' : RedisState} (h : Agree opts st st') (key : String) (c : Bytes)
    (tags : Tags) (pfx : String) :
    Agree opts (updateTagIndex opts (st.set key c) tags key)
      (updateTagIndex opts (st'.set key c) (tags ++ [("record_type", pfx)]) key) := by
  refine ⟨by simp only [updateTagIndex_strings, RedisState.set, h.1], fun k hk => ?_⟩
  have hset : (st.set key c).sets k = (st'.set key c).sets k := h.2 k hk
  rw [updateTagIndex_append, updateTagIndex_sets_congr opts tags key k hset]
  exact (RedisState.sadd_sets_of_ne (hk pfx)).symm

/-- A plain record with a request id: the legacy `record` and the successor's `Save` reply
alike and keep the servers in agreement. -/
theorem record_agrees {st st' : RedisState} (h : Agree opts st st') {t : RecordType}
    {pfx : String} (ht : prefixFor t = .ok pfx) {p : Option String} (hp : p ≠ some "")
    {id : String} (hid : id ≠ "") (d : Bytes) {tags : Tags}
    (htags : "record_type" ∉ tags.map Prod.fst) :
    Alike (Agree opts) ((record opts codec st pfx p id d tags).1,
        (record opts codec st pfx p id d tags).2.1)
      (save opts codec st' ⟨t, p, id, d, tags⟩) := by
  unfold record save
  simp only [hid, if_false, ht]
  split_ifs
  · exact ⟨rfl, h⟩
  rcases codec.compressData d opts.compressionLvl with e | c
  · exact ⟨rfl, h⟩
  · simp only [recordData, storageID_eq_joinID ":" hp, setTag_recordType htags]
    exact ⟨rfl, agree_recordData opts h _ c _ pfx⟩

theorem getPayload_agrees {st st' : RedisState} (h : Agree opts st st') {t : RecordType}
    {pfx : String} (ht : prefixFor t = .ok pfx) (id : String) :
    getPayload opts codec st pfx id = (successor opts codec).getPayload st' t id := by
  by_cases hid : id = "" <;>
    simp [getPayload, BaseRecorder.getPayload, successor, storage, load, ht, getData, h.1, hid]

/-- One plain call keeps the servers in agreement, with the same reply. -/
theorem call_agrees {st st' : RedisState} (h : Agree opts st st') :
    ∀ c, Plain c → Alike (Agree opts) (call opts codec st c) ((successor opts codec).call st' c)
  | .recordRequest p id d t, ⟨hp, hd, ht⟩ => by
    refine Alike.ofUnit ?_
    simp only [recordRequest, BaseRecorder.recordRequest, recordPayload,
      BaseRecorder.recordPayload, successor, BaseRecorder.scrubAndSave_new, hd, List.isEmpty_eq_true, if_false]
    split_ifs with hid
    · exact ⟨rfl, h⟩
    · exact record_agrees opts codec h (t := RecordType.request) rfl hp hid d ht
  | .recordResponse p id d t, ⟨hp, hd, ht⟩ => by
    refine Alike.ofUnit ?_
    simp only [recordResponse, BaseRecorder.recordResponse, recordPayload,
      BaseRecorder.recordPayload, successor, BaseRecorder.scrubAndSave_new, hd, List.isEmpty_eq_true, if_false]
    split_ifs with hid
    · exact ⟨rfl, h⟩
    · exact record_agrees opts codec h (t := RecordType.response) rfl hp hid d ht
  | .recordError p id e t, ⟨hp, ht⟩ => by
    refine Alike.ofUnit ?_
    rcases e with _ | text
    · exact ⟨rfl, h⟩
    simp only [recordError, BaseRecorder.recordError, successor, BaseRecorder.scrubAndSave_new]
    split_ifs with hid
    · exact ⟨rfl, h⟩
    · exact record_agrees opts codec h (t := RecordType.error) rfl hp hid _ ht
  | .recordMetrics p id m t, ⟨hp, ht⟩ => by
    refine Alike.ofUnit ?_
    simp only [recordMetrics, BaseRecorder.recordMetrics, successor, BaseRecorder.scrubAndSave_new]
    split_ifs with hid
    · exact ⟨rfl, h⟩
    · exact ⟨rfl, h⟩
    · exact record_agrees opts codec h (t := RecordType.metrics) rfl hp hid _ ht
  | .getRequest id, _ =>
    ⟨congrArg (Except.map Reply.payload) (getPayload_agrees opts codec h (t := RecordType.request) rfl id), h⟩
  | .getResponse id, _ =>
    ⟨congrArg (Except.map Reply.payload) (getPayload_agrees opts codec h (t := RecordType.response) rfl id), h⟩
  | .findByTag tag, htag => by
    refine ⟨?_, h⟩
    have hk : ∀ pfx, tagKey opts tag ≠ recordTypeKey opts pfx := fun pfx hk =>
      htag ⟨pfx.data, by rw [(tagKey_eq_tagKey opts).mp hk]; simp only [String.data_append]⟩
    by_cases htag0 : tag = "" <;>
      simp [call, callWithTags, BaseRecorder.call, successor, BaseRecorder.findByTag, storage,
        findByTag, htag0, h.2 _ hk]

/-! ### Runs -/

/-- From agreeing servers, every run of plain calls, each with its maps as values, gets the same
replies from both recorders and leaves servers that hold the same values and the same sets
except those of `record_type`. -/
theorem runCalls_agree {calls : List Call} (hplain : ∀ c ∈ calls, Plain c)
    {st st' : RedisState} (h : Agree opts st st') :
    Alike (Agree opts) (runCalls (call opts codec) st calls)
      (runCalls (successor opts codec).call st' calls) :=
  runCalls_simulation _ _ (fun _ _ c h hc => call_agrees opts codec h c hc) calls st st' h hplain

/-! ### The caller's maps

A Go map is a reference. `record` writes `request_id` into the tag map its caller passed, so a
later call that is passed the same map reads that entry too; the successor copies the tags
(`cloneTags`) and reads the metrics, and leaves the caller's maps as they were. Here a program's
calls name their maps by address in the caller's heap (`RefCall`), and the legacy recorder writes
back the tag map `record` returns. Over a run that passes no map twice, what it writes is never
read again, and the run is the run on the maps the heap held at the start. -/

/-- A map argument: `nil`, or the address of one of the caller's maps. -/
abbrev MapRef := Option Nat

/-- The caller's maps. -/
abbrev Heap := Nat → Tags

/-- The map an argument passes: `nil` reads as empty. -/
def readMap (heap : Heap) : MapRef → Tags
  | none => []
  | some a => heap a

theorem readMap_congr {heap heap' : Heap} {m : MapRef} (h : ∀ a ∈ m.toList, heap a = heap' a) :
    readMap heap m = readMap heap' m := by
  cases m with
  | none => rfl
  | some a => exact h a (List.mem_singleton_self a)

/-- A call of a program whose map arguments are addresses. -/
inductive RefCall where
  | recordRequest (primaryID : Option String) (requestID : String) (request : Bytes) (tags : MapRef)
  | recordResponse (primaryID : Option String) (requestID : String) (response : Bytes) (tags : MapRef)
  | recordError (id : Option String) (requestID : String) (err : Option String) (tags : MapRef)
  | recordMetrics (primaryID : Option String) (requestID : String) (metrics tags : MapRef)
  | getRequest (requestID : String)
  | getResponse (requestID : String)
  | findByTag (tag : String)
deriving DecidableEq, Repr

namespace RefCall

/-- The call on the maps its addresses hold. -/
def resolve (heap : Heap) : RefCall → Call
  | .recordRequest p id d t => .recordRequest p id d (readMap heap t)
  | .recordResponse p id d t => .recordResponse p id d (readMap heap t)
  | .recordError p id e t => .recordError p id e (readMap heap t)
  | .recordMetrics p id m t => .recordMetrics p id (readMap heap m) (readMap heap t)
  | .getRequest id => .getRequest id
  | .getResponse id => .getResponse id
  | .findByTag tag => .findByTag tag

/-- The address of the call's tag map, when it passes one. -/
def tagsRef : RefCall → MapRef
  | .recordRequest _ _ _ t | .recordResponse _ _ _ t | .recordError _ _ _ t
  | .recordMetrics _ _ _ t => t
  | .getRequest _ | .getResponse _ | .findByTag _ => none

/-- The addresses the call passes. -/
def refs : RefCall → List Nat
  | .recordMetrics _ _ m t => m.toList ++ t.toList
  | c => c.tagsRef.toList

theorem tagsRef_subset_refs (c : RefCall) : ∀ a ∈ c.tagsRef.toList, a ∈ c.refs := by
  cases c <;> simp +contextual [refs, tagsRef]

/-- A call reads only the maps it passes. -/
theorem resolve_congr {c : RefCall} {heap heap' : Heap} (h : ∀ a ∈ c.refs, heap a = heap' a) :
    c.resolve heap = c.resolve heap' := by
  cases c with
  | recordMetrics p id m t =>
    simp only [refs, List.mem_append] at h
    simp only [resolve, readMap_congr fun a ha => h a (.inl ha), readMap_congr fun a ha => h a (.inr ha)]
  | recordRequest _ _ _ t | recordResponse _ _ _ t | recordError _ _ _ t =>
    simp only [resolve, readMap_congr (m := t) h]
  | getRequest | getResponse | findByTag => rfl

end RefCall

/-- The legacy recorder on a call of addresses: the call reads its maps from the heap, and the
tag map it passed, unless `nil`, becomes the map `record` returns. -/
def refCall (s : RedisState × Heap) (c : RefCall) : Except String Reply × (RedisState × Heap) :=
  ((callWithTags opts codec s.1 (c.resolve s.2)).1.1, (callWithTags opts codec s.1 (c.resolve s.2)).1.2,
    match c.tagsRef with
    | some a => Function.update s.2 a (callWithTags opts codec s.1 (c.resolve s.2)).2
    | none => s.2)

/-- A call writes no map but its own tag map. -/
theorem refCall_heap_of_not_mem (s : RedisState × Heap) (c : RefCall) {a : Nat}
    (ha : a ∉ c.refs) : (refCall opts codec s c).2.2 a = s.2 a := by
  unfold refCall
  split
  · rename_i b hb
    refine Function.update_noteq (fun hab => ha ?_) _ _
    exact hab ▸ c.tagsRef_subset_refs b (by simp [hb])
  · rfl

/-- Over a run that passes no map twice, the legacy recorder with the caller's heap answers as
it does on the maps the heap holds at the start. -/
theorem runCalls_refCall : ∀ (calls : List RefCall) (st : RedisState) (heap : Heap),
    (calls.flatMap RefCall.refs).Nodup →
      ((runCalls (refCall opts codec) (st, heap) calls).1,
        (runCalls (refCall opts codec) (st, heap) calls).2.1) =
      runCalls (call opts codec) st (calls.map (RefCall.resolve heap))
  | [], _, _, _ => rfl
  | c :: cs, st, heap, hnd => by
    rw [List.flatMap_cons, List.nodup_append] at hnd
    obtain ⟨-, hcs, hdisj⟩ := hnd
    have hrest : cs.map (RefCall.resolve (refCall opts codec (st, heap) c).2.2) =
        cs.map (RefCall.resolve heap) :=
      List.map_congr_left fun c' hc' => RefCall.resolve_congr fun a ha =>
        refCall_heap_of_not_mem opts codec _ c fun hac =>
          hdisj hac (List.mem_flatMap.mpr ⟨c', hc', ha⟩)
    have ih := runCalls_refCall cs (refCall opts codec (st, heap) c).2.1
      (refCall opts codec (st, heap) c).2.2 hcs
    rw [hrest] at ih
    rw [runCalls, List.map_cons, runCalls,
      show (call opts codec st (c.resolve heap)).2 = (refCall opts codec (st, heap) c).2.1 from rfl, ← ih]
    rfl

/-- **The legacy Redis recorder and its successor agree on plain calls that pass no map twice.**
For every program whose calls name their maps by address in the caller's heap: from agreeing
servers, every run of plain calls in which no map is passed twice, as tags or as metrics, gets
the same replies from the legacy recorder, which writes `request_id` into each tag map it is
passed, and from the successor, which copies the tags and so runs on the maps the heap held at
the start; and it leaves servers that hold the same values and the same sets except those of
`record_type`. -/
theorem legacy_redis_agrees (heap : Heap) {calls : List RefCall}
    (hplain : ∀ c ∈ calls, Plain (c.resolve heap)) (hrefs : (calls.flatMap RefCall.refs).Nodup)
    {st st' : RedisState} (h : Agree opts st st') :
    Alike (fun s st' => Agree opts s.1 st') (runCalls (refCall opts codec) (st, heap) calls)
      (runCalls (successor opts codec).call st' (calls.map (RefCall.resolve heap))) := by
  have hval := runCalls_agree opts codec (List.forall_mem_map.mpr hplain) h
  rwa [← runCalls_refCall opts codec calls st heap hrefs] at hval

/-- A tagged request saved and searched for, from two empty servers. -/
theorem legacy_redis_agrees_tagged :
    let heap : Heap := fun _ => [("env", "prod")]
    let calls := [RefCall.recordRequest none "req1" [1] (some 0), .findByTag "env:prod"]
    (∀ c ∈ calls, Plain (c.resolve heap)) ∧ (calls.flatMap RefCall.refs).Nodup ∧
      Agree ⟨"recorder", 3⟩ RedisState.empty RedisState.empty ∧
      Alike (fun s st' => Agree ⟨"recorder", 3⟩ s.1 st')
        (runCalls (refCall ⟨"recorder", 3⟩ ⟨fun d _ => .ok d, .ok⟩) (RedisState.empty, heap) calls)
        (runCalls (successor ⟨"recorder", 3⟩ ⟨fun d _ => .ok d, .ok⟩).call RedisState.empty
          (calls.map (RefCall.resolve heap))) :=
  have hplain : ∀ c ∈ [RefCall.recordRequest none "req1" [1] (some 0), .findByTag "env:prod"],
      Plain (c.resolve fun _ => [("env", "prod")]) := by decide
  have hagree : Agree ⟨"recorder", 3⟩ RedisState.empty RedisState.empty := ⟨rfl, fun _ _ => rfl⟩
  ⟨hplain, by decide, hagree, legacy_redis_agrees _ _ _ hplain (by decide) hagree⟩

/-- A map passed as a request's tags and then as metrics: the legacy recorder stores the metrics
with the `request_id` it wrote into the map, the successor without it. -/
example :
    let heap : Heap := fun _ => [("env", "prod")]
    let calls := [RefCall.recordRequest none "r1" [1] (some 0), .recordMetrics none "r1" (some 0) none]
    (runCalls (refCall ⟨"recorder", 3⟩ ⟨fun d _ => .ok d, .ok⟩) (RedisState.empty, heap)
        calls).2.1.strings "recorder:metrics:r1" ≠
      (runCalls (successor ⟨"recorder", 3⟩ ⟨fun d _ => .ok d, .ok⟩).call RedisState.empty
        (calls.map (RefCall.resolve heap))).2.strings "recorder:metrics:r1" := by
  decide

/-! ### The second legacy recorder

The second `redisRecorder` of redis_recorder/options.go has the same `Record*` methods,
`updateTagIndex` and `FindByTag` as the first, up to logging and metrics; its `getData` returns
the decompression error as it is, where the first wraps it. -/

/-- `getData` of the second legacy recorder. -/
def getDataV2 (st : RedisState) (pfx id : String) : Except String Bytes :=
  match st.strings (dataKey opts pfx id) with
  | none => .error (pfx ++ " data not found for id: " ++ id)
  | some data => codec.decompressData data

/-- `GetRequest` and `GetResponse` of the second legacy recorder. -/
def getPayloadV2 (st : RedisState) (pfx requestID : String) : Except String Bytes :=
  if requestID = "" then .error "requestID cannot be empty" else getDataV2 opts codec st pfx requestID

/-- The second legacy recorder's answer to a call. -/
def callV2 (st : RedisState) : Call → Except String Reply × RedisState
  | .getRequest id => ((getPayloadV2 opts codec st "request" id).map .payload, st)
  | .getResponse id => ((getPayloadV2 opts codec st "response" id).map .payload, st)
  | c => call opts codec st c

/-- Two replies of the legacy generations: equal, or the first's wrapping of the second's
decompression error. -/
def Rewrapped (r₂ r₁ : Except String Reply) : Prop :=
  r₂ = r₁ ∨ ∃ pfx e, r₁ = .error ("failed to decompress " ++ pfx ++ " data: " ++ e) ∧ r₂ = .error e

theorem getPayloadV2_rewrapped (st : RedisState) (pfx id : String) :
    Rewrapped ((getPayloadV2 opts codec st pfx id).map .payload)
      ((getPayload opts codec st pfx id).map .payload) := by
  unfold getPayloadV2 getPayload getDataV2 getData
  split_ifs
  · exact .inl rfl
  cases st.strings (dataKey opts pfx id) with
  | none => exact .inl rfl
  | some data =>
    dsimp only
    cases codec.decompressData data with
    | error e => exact .inr ⟨pfx, e, rfl, rfl⟩
    | ok d => exact .inl rfl

/-- One call: the same server afterwards, and replies equal up to the wrapping. -/
theorem callV2_rewrapped (st : RedisState) (c : Call) :
    (callV2 opts codec st c).2 = (call opts codec st c).2 ∧
      Rewrapped (callV2 opts codec st c).1 (call opts codec st c).1 := by
  cases c with
  | getRequest id | getResponse id => exact ⟨rfl, getPayloadV2_rewrapped opts codec st _ id⟩
  | _ => exact ⟨rfl, .inl rfl⟩

/-- **The two legacy generations agree up to one error text.** From the same server, every run
of calls leaves the same server behind on both, and each reply of the second is the first's, or
the decompression error the first wraps in `failed to decompress <prefix> data: `. -/
theorem legacy_generations_agree : ∀ (calls : List Call) (st : RedisState),
    (runCalls (callV2 opts codec) st calls).2 = (runCalls (call opts codec) st calls).2 ∧
      List.Forall₂ Rewrapped (runCalls (callV2 opts codec) st calls).1
        (runCalls (call opts codec) st calls).1
  | [], _ => ⟨rfl, .nil⟩
  | c :: cs, st => by
    obtain ⟨hs, hr⟩ := callV2_rewrapped opts codec st c
    obtain ⟨ih₁, ih₂⟩ := legacy_generations_agree cs (call opts codec st c).2
    simp only [runCalls, hs]
    exact ⟨ih₁, .cons hr ih₂⟩

end LegacyRedis

end Recorder
