import Recorder.BaseRecorder
import Recorder.Storage.Redis
import Recorder.Storage.File
import Recorder.Storage.GormSequential

/-!
# The recorders over each backend

What `Load` returns after a run of saves, for the three backends of the repository, and where
the file backend puts its files.

Each backend stores a record under its own key: Redis under `<Prefix>:<prefix>:<id>`, the file
backend at `filepath.Join(basePath, prefix, id+".json")`, with `id` the primary id and the
request id joined by `:` or `_`, and GORM under the `(type, request_id)` pair. `Load` reads the
key built from the request id alone. Through the keyed-store refinement of each backend, `Load`
returns the payload of the last save under the key it reads (`load_returns_last_under_key`);
for Redis and files that key is not the record's `(type, request_id)` pair as soon as a primary
id is set.
-/

namespace Recorder

/-- A codec whose round trip is the identity (gzip itself is not modelled). -/
def identityCodec : Codec := ⟨fun d _ => .ok d, .ok⟩

/-- A request recorded with a primary id is not found by `GetRequest` of its request id, on
Redis and on files. -/
theorem getRequest_misses_primary_keyed_save :
    let redis := new (Redis.storage ⟨"recorder", 3⟩ identityCodec) []
    let files := new (File.storage "base") []
    (redis.recordRequest RedisState.empty (some "user42") "req1" [1] []).1 = .ok () ∧
    redis.getRequest (redis.recordRequest RedisState.empty (some "user42") "req1" [1] []).2
      "req1" = .error "request data not found for id: req1" ∧
    (files.recordRequest FileSystem.empty (some "user42") "req1" [1] []).1 = .ok () ∧
    files.getRequest (files.recordRequest FileSystem.empty (some "user42") "req1" [1] []).2
      "req1" = .error ("failed to read file base/requests/req1.json: " ++
        "open base/requests/req1.json: no such file or directory") := by
  dsimp only
  decide

/-- After any run of successful saves, `Load(t, id)` returns the payload of the last save under
the key `Load` reads: for Redis (when decompression inverts compression) the key
`<Prefix>:<prefix>:<id>`, for files the path `Join(basePath, prefix, id+".json")`, for GORM the
pair `(t, id)`. -/
theorem load_returns_last_under_key :
    (∀ (opts : RedisOptions) (codec : Codec),
      (∀ d c, codec.compressData d opts.compressionLvl = .ok c → codec.decompressData c = .ok d) →
      ∀ s s' records, (Redis.storage opts codec).saveAll s records = some s' →
      ∀ t pfx id p, id ≠ "" → Redis.prefixFor t = .ok pfx →
        lastSavedUnder (Redis.recordKey opts) records (Redis.dataKey opts pfx id) = some p →
        Redis.load opts codec s' t id = .ok p) ∧
    (∀ basePath fs fs' records, (File.storage basePath).saveAll fs records = some fs' →
      ∀ t pfx id p, File.prefixFor t = .ok pfx →
        lastSavedUnder (File.recordKey basePath) records (File.filePath basePath pfx id) = some p →
        File.load basePath fs' t id = .ok p) ∧
    (∀ v v' records, Gorm.validStorage.saveAll v records = some v' →
      ∀ t id p, lastSavedUnder Gorm.recordKey records (t, id) = some p →
        Gorm.load v'.db t id = .ok p) :=
  ⟨fun opts codec hcodec _ _ _ hrun _ _ _ _ hid ht hlast =>
      Redis.load_saveAll_last opts codec hcodec hrun hid ht hlast,
    fun basePath _ _ _ hrun _ _ _ _ ht hlast => File.load_saveAll_last basePath hrun ht hlast,
    fun _ _ _ hrun _ _ _ hlast => Gorm.load_saveAll_last hrun hlast⟩

/-- A request saved with a primary id is loaded back by its composed id on Redis and on files,
and by its request id on GORM. -/
theorem load_returns_last_under_key_composed :
    Redis.load ⟨"recorder", 3⟩ identityCodec (Redis.save ⟨"recorder", 3⟩ identityCodec
      RedisState.empty ⟨"request", some "user42", "req1", [1], []⟩).2 "request" "user42:req1" =
      .ok [1] ∧
    File.load "base" (File.save "base" FileSystem.empty ⟨"request", some "user42", "req1", [1], []⟩).2
      "request" "user42_req1" = .ok [1] ∧
    Gorm.load (Gorm.save Gorm.empty ⟨"request", some "user42", "req1", [1], []⟩).2 "request" "req1" =
      .ok [1] :=
  ⟨load_returns_last_under_key.1 ⟨"recorder", 3⟩ identityCodec (fun _ _ h => by cases h; rfl) _ _
      [⟨"request", some "user42", "req1", [1], []⟩] rfl "request" "request" "user42:req1" [1]
      (by decide) rfl (by decide),
    load_returns_last_under_key.2.1 "base" FileSystem.empty
      (File.save "base" FileSystem.empty ⟨"request", some "user42", "req1", [1], []⟩).2
      [⟨"request", some "user42", "req1", [1], []⟩] rfl
      "request" "requests" "user42_req1" [1] rfl (by decide),
    load_returns_last_under_key.2.2 Gorm.validEmpty
      ⟨_, Gorm.inv_save Gorm.inv_empty ⟨"request", some "user42", "req1", [1], []⟩⟩
      [⟨"request", some "user42", "req1", [1], []⟩] rfl "request" "req1" [1] (by decide)⟩

/-! ## Where the file backend reads and writes -/

end Recorder
