import Recorder.Calls
import Recorder.Storage.Redis
import Recorder.Storage.Gorm

/-!
# The constructors' options

What the backends' constructors do with their options before any call: the Redis `Options`
(redis_recorder/options.go: `NewDefaultOptions`, `Validate`, `NewOptionsFromEnv`) with
`applyRedisDefaults` and `NewRedisRecorderWithValidation` (recorder.go), and the GORM
`modelOptions` with `prepare` (gorm_recorder).

- `applyRedisDefaults` replaces every zero field by its default, the compression level `0`
  (gzip's `NoCompression`) by `-1` (`DefaultCompression`) among them, so the storage never
  compresses at level `0`, and the check `prefix cannot be empty` of `Validate` can no longer
  fail (`newRedisRecorderWithValidation_ok`, `newRedisRecorderWithValidation_isOk_iff`);
- the options of `NewDefaultOptions` pass `Validate` and `applyRedisDefaults` unchanged, and
  start the storage with prefix `recorder` and level `3` (`newRedisRecorderWithValidation_default`);
- the recorder keeps the caller's options and reads prefix and level at every call
  (`optionsStorage`); while the caller leaves them as they are, it answers as the base recorder
  over the Redis storage built from them (`optionsStorage_simulation`);
- `prepare` accepts exactly the options with both factories and a table name for each model,
  and what it returns names every table and column and is accepted unchanged
  (`prepare_isOk_iff`, `prepare_named`, `prepare_of_named`);
- `NewRecorder`, whose default models pass `prepare`, fails only on the handle or `AutoMigrate`,
  and otherwise returns the base recorder over the single-transaction storage
  (`newRecorder_ok_iff`).

The client settings (timeouts, pool, retries) are only handed to the Redis client and are
carried here as data; `Validate` and `applyRedisDefaults` update the caller's `Options` in place,
which is returned with the result. The parsers of `NewOptionsFromEnv` (`strconv.Atoi`,
`time.ParseDuration`, `strconv.ParseBool`) are parameters.
-/

namespace Recorder

/-! A `time.Duration` is an integer of nanoseconds. -/

namespace Duration

/-- `time.Millisecond` -/
def millisecond : Int := 1000000
/-- `time.Second` -/
def second : Int := 1000 * millisecond
/-- `time.Minute` -/
def minute : Int := 60 * second
/-- `time.Hour` -/
def hour : Int := 60 * minute

end Duration

/-- `if v == zero { v = d }` -/
def orDefault {α : Type} [DecidableEq α] (zero d v : α) : α :=
  if v = zero then d else v

theorem orDefault_of_ne {α : Type} [DecidableEq α] {zero v : α} (h : v ≠ zero) (d : α) :
    orDefault zero d v = v :=
  if_neg h

theorem orDefault_ne {α : Type} [DecidableEq α] {zero d : α} (hd : d ≠ zero) (v : α) :
    orDefault zero d v ≠ zero := by
  unfold orDefault
  split_ifs with h
  exacts [hd, h]

namespace Redis

/-- `Options` -/
structure Options where
  debug : Bool
  addr : String
  password : String
  db : Int
  defaultTTL : Int
  compressionLvl : Int
  keyPrefix : String
  maxRetries : Int
  minRetryBackoff : Int
  maxRetryBackoff : Int
  dialTimeout : Int
  readTimeout : Int
  writeTimeout : Int
  poolSize : Int
  minIdleConns : Int
  maxConnAge : Int
  poolTimeout : Int
  idleTimeout : Int
deriving DecidableEq

/-- `NewDefaultOptions` -/
def newDefaultOptions (addr password : String) (db : Int) : Options where
  debug := false
  addr := addr
  password := password
  db := db
  defaultTTL := 24 * Duration.hour * 7
  compressionLvl := 3
  keyPrefix := "recorder"
  maxRetries := 3
  minRetryBackoff := 8 * Duration.millisecond
  maxRetryBackoff := 512 * Duration.millisecond
  dialTimeout := 5 * Duration.second
  readTimeout := 3 * Duration.second
  writeTimeout := 3 * Duration.second
  poolSize := 10
  minIdleConns := 2
  maxConnAge := 30 * Duration.minute
  poolTimeout := 4 * Duration.second
  idleTimeout := 5 * Duration.minute

/-- The parsers `NewOptionsFromEnv` reads the environment with; `none` is a parse error. -/
structure EnvParsers where
  atoi : String → Option Int
  parseDuration : String → Option Int
  parseBool : String → Option Bool

section Env

variable (env : String → String) (parsers : EnvParsers)

/-- `getEnvOrDefault`; `os.Getenv` is `""` for an unset variable. -/
def getEnvOrDefault (key defaultValue : String) : String :=
  if env key ≠ "" then env key else defaultValue

/-- `getEnvIntOrDefault`, `getEnvDurationOrDefault` and `getEnvBoolOrDefault`: the parsed
variable, or the default when it is unset, empty or does not parse. -/
def getEnvParsedOrDefault {α : Type} (parse : String → Option α) (key : String) (defaultValue : α) : α :=
  if env key ≠ "" then (parse (env key)).getD defaultValue else defaultValue

/-- `NewOptionsFromEnv` -/
def newOptionsFromEnv : Options where
  addr := getEnvOrDefault env "REDIS_ADDR" "localhost:6379"
  password := env "REDIS_PASSWORD"
  db := getEnvParsedOrDefault env parsers.atoi "REDIS_DB" 0
  defaultTTL := getEnvParsedOrDefault env parsers.parseDuration "REDIS_DEFAULT_TTL" (24 * Duration.hour * 7)
  compressionLvl := getEnvParsedOrDefault env parsers.atoi "REDIS_COMPRESSION_LEVEL" 3
  keyPrefix := getEnvOrDefault env "REDIS_PREFIX" "recorder"
  maxRetries := getEnvParsedOrDefault env parsers.atoi "REDIS_MAX_RETRIES" 3
  minRetryBackoff :=
    getEnvParsedOrDefault env parsers.parseDuration "REDIS_MIN_RETRY_BACKOFF" (8 * Duration.millisecond)
  maxRetryBackoff :=
    getEnvParsedOrDefault env parsers.parseDuration "REDIS_MAX_RETRY_BACKOFF" (512 * Duration.millisecond)
  dialTimeout := getEnvParsedOrDefault env parsers.parseDuration "REDIS_DIAL_TIMEOUT" (5 * Duration.second)
  readTimeout := getEnvParsedOrDefault env parsers.parseDuration "REDIS_READ_TIMEOUT" (3 * Duration.second)
  writeTimeout := getEnvParsedOrDefault env parsers.parseDuration "REDIS_WRITE_TIMEOUT" (3 * Duration.second)
  poolSize := getEnvParsedOrDefault env parsers.atoi "REDIS_POOL_SIZE" 10
  minIdleConns := getEnvParsedOrDefault env parsers.atoi "REDIS_MIN_IDLE_CONNS" 2
  maxConnAge := getEnvParsedOrDefault env parsers.parseDuration "REDIS_MAX_CONN_AGE" (30 * Duration.minute)
  poolTimeout := getEnvParsedOrDefault env parsers.parseDuration "REDIS_POOL_TIMEOUT" (4 * Duration.second)
  idleTimeout := getEnvParsedOrDefault env parsers.parseDuration "REDIS_IDLE_TIMEOUT" (5 * Duration.minute)
  debug := getEnvParsedOrDefault env parsers.parseBool "REDIS_DEBUG" false

/-- With no variable set, `NewOptionsFromEnv` is `NewDefaultOptions("localhost:6379", "", 0)`. -/
theorem newOptionsFromEnv_empty : newOptionsFromEnv (fun _ => "") parsers =
    newDefaultOptions "localhost:6379" "" 0 := by
  simp [newOptionsFromEnv, newDefaultOptions, getEnvOrDefault, getEnvParsedOrDefault]

end Env

/-- The checks of `Options.Validate`, in order: the error of the first that fails. -/
def Options.check (o : Options) : Option String :=
  if o.addr = "" then some "redis address cannot be empty"
  else if o.defaultTTL ≤ 0 then some "default TTL must be positive"
  else if o.compressionLvl < -1 ∨ o.compressionLvl > 9 then
    some "compression level must be between -1 and 9"
  else if o.keyPrefix = "" then some "prefix cannot be empty"
  else none

/-- `Options.Validate`: the first failed check; past the checks, a pool size that is not
positive is set to `10`. -/
def Options.validate (o : Options) : Except String Unit × Options :=
  match o.check with
  | some e => (.error e, o)
  | none => (.ok (), { o with poolSize := if o.poolSize ≤ 0 then 10 else o.poolSize })

/-- `gzip.DefaultCompression` -/
def gzipDefaultCompression : Int := -1

/-- `applyRedisDefaults` -/
def applyRedisDefaults (o : Options) : Options :=
  { o with
    defaultTTL := orDefault 0 (Duration.hour * 24 * 7) o.defaultTTL
    compressionLvl := orDefault 0 gzipDefaultCompression o.compressionLvl
    keyPrefix := orDefault "" "RedisRecorder" o.keyPrefix
    dialTimeout := orDefault 0 (5 * Duration.second) o.dialTimeout
    readTimeout := orDefault 0 (3 * Duration.second) o.readTimeout
    writeTimeout := orDefault 0 (3 * Duration.second) o.writeTimeout
    poolSize := orDefault 0 10 o.poolSize
    maxRetries := orDefault 0 3 o.maxRetries
    minRetryBackoff := orDefault 0 (8 * Duration.millisecond) o.minRetryBackoff
    maxRetryBackoff := orDefault 0 (512 * Duration.millisecond) o.maxRetryBackoff
    poolTimeout := orDefault 0 (4 * Duration.second) o.poolTimeout
    idleTimeout := orDefault 0 (5 * Duration.minute) o.idleTimeout
    maxConnAge := orDefault 0 (30 * Duration.minute) o.maxConnAge }

/-- The options the storage reads. -/
def Options.storageOptions (o : Options) : RedisOptions :=
  ⟨o.keyPrefix, o.compressionLvl⟩

variable (codec : Codec)

/-- The storage `NewRedisRecorderWithValidation` builds keeps the caller's `*Options` and reads
`Prefix` and `CompressionLvl` from it at every call: its state is the options object and the
server. A caller that changes its options between calls changes the first component. -/
def optionsStorage : Storage (Options × RedisState) :=
  ⟨fun s record => ((save s.1.storageOptions codec s.2 record).1,
      (s.1, (save s.1.storageOptions codec s.2 record).2)),
    fun s => load s.1.storageOptions codec s.2, fun s => findByTag s.1.storageOptions s.2⟩

/-- `NewRedisRecorderWithValidation`: `nil` options are refused; otherwise the caller's options
get their defaults and are validated, both in place, and the recorder is the base recorder over
the storage that reads them. The caller's options are returned with the result: the recorder's
state starts with them. -/
def newRedisRecorderWithValidation : Option Options →
    Except String (BaseRecorder (Options × RedisState)) × Option Options
  | none => (.error "redis recorder: options must not be nil", none)
  | some options =>
    match (applyRedisDefaults options).validate with
    | (.error e, options) => (.error e, some options)
    | (.ok (), options) => (.ok (new (optionsStorage codec) []), some options)

/-- `NewRedisRecorder`: the recorder, or `nil` after logging the error. -/
def newRedisRecorder (options : Option Options) : Option (BaseRecorder (Options × RedisState)) :=
  (newRedisRecorderWithValidation codec options).1.toOption

/-- While the caller leaves its options `o` as they are, the storage that reads them answers as
the Redis storage built from them. -/
theorem optionsStorage_simulation (o : Options) :
    Storage.Simulation (fun s st => s = (o, st)) (optionsStorage codec)
      (storage o.storageOptions codec) :=
  ⟨by rintro _ st rec rfl; exact ⟨rfl, rfl⟩, by rintro _ st ty id rfl; rfl,
    by rintro _ st tag rfl; rfl⟩

/-! ### What the defaults and the checks leave -/

theorem validate_error {o o' : Options} {e : String} (h : o.validate = (.error e, o')) : o' = o := by
  unfold Options.validate at h
  split at h <;> cases h
  rfl

/-- A successful `Validate` changes at most the pool size. -/
theorem validate_ok {o o' : Options} (h : o.validate = (.ok (), o')) :
    o'.storageOptions = o.storageOptions := by
  unfold Options.validate at h
  split at h <;> cases h
  rfl

/-- The checks pass exactly when each does. -/
theorem check_eq_none_iff (o : Options) :
    o.check = none ↔ o.addr ≠ "" ∧ 0 < o.defaultTTL ∧
      (-1 ≤ o.compressionLvl ∧ o.compressionLvl ≤ 9) ∧ o.keyPrefix ≠ "" := by
  unfold Options.check
  split_ifs with h₁ h₂ h₃ h₄
  · exact iff_of_false nofun fun h => h.1 h₁
  · exact iff_of_false nofun fun h => absurd h.2.1 (not_lt.mpr h₂)
  · exact iff_of_false nofun fun h => by have := h.2.2.1; omega
  · exact iff_of_false nofun fun h => h.2.2.2 h₄
  · exact iff_of_true rfl ⟨h₁, not_le.mp h₂, by omega, h₄⟩

/-- `Validate` passes exactly when every check does. -/
theorem validate_isOk_iff (o : Options) :
    o.validate.1 = .ok () ↔ o.addr ≠ "" ∧ 0 < o.defaultTTL ∧
      (-1 ≤ o.compressionLvl ∧ o.compressionLvl ≤ 9) ∧ o.keyPrefix ≠ "" := by
  rw [← check_eq_none_iff, Options.validate]
  split <;> simp_all

theorem applyRedisDefaults_ttl_pos (o : Options) :
    0 < (applyRedisDefaults o).defaultTTL ↔ 0 ≤ o.defaultTTL := by
  have hweek : (0 : Int) < Duration.hour * 24 * 7 := by decide
  show 0 < orDefault 0 _ o.defaultTTL ↔ _
  unfold orDefault
  split_ifs <;> omega

theorem applyRedisDefaults_lvl (o : Options) :
    (-1 ≤ (applyRedisDefaults o).compressionLvl ∧ (applyRedisDefaults o).compressionLvl ≤ 9) ↔
      (-1 ≤ o.compressionLvl ∧ o.compressionLvl ≤ 9) := by
  show -1 ≤ orDefault 0 gzipDefaultCompression o.compressionLvl ∧
    orDefault 0 gzipDefaultCompression o.compressionLvl ≤ 9 ↔ _
  unfold orDefault gzipDefaultCompression
  split_ifs <;> omega

/-- After the defaults, `Validate` passes exactly when the address is set, the TTL is not
negative and the level is in `[-1, 9]`: the prefix is never empty. -/
theorem validate_applyRedisDefaults (o : Options) :
    ((applyRedisDefaults o).validate.1 = .ok ()) ↔
      o.addr ≠ "" ∧ 0 ≤ o.defaultTTL ∧ -1 ≤ o.compressionLvl ∧ o.compressionLvl ≤ 9 := by
  have hp : (applyRedisDefaults o).keyPrefix ≠ "" := orDefault_ne (by decide) _
  rw [validate_isOk_iff, applyRedisDefaults_ttl_pos, applyRedisDefaults_lvl, and_iff_left hp]
  rfl

/-- No default of `NewDefaultOptions` is a zero value. -/
theorem applyRedisDefaults_newDefaultOptions (addr password : String) (db : Int) :
    applyRedisDefaults (newDefaultOptions addr password db) = newDefaultOptions addr password db := by
  simp [applyRedisDefaults, newDefaultOptions, orDefault, Duration.hour, Duration.minute,
    Duration.second, Duration.millisecond]

/-- The options of `NewDefaultOptions` pass their own checks, with any address but `""`. -/
theorem validate_newDefaultOptions {addr : String} (haddr : addr ≠ "") (password : String) (db : Int) :
    (newDefaultOptions addr password db).validate = (.ok (), newDefaultOptions addr password db) := by
  have hcheck : (newDefaultOptions addr password db).check = none :=
    (check_eq_none_iff _).mpr ⟨haddr, show (0 : Int) < 24 * Duration.hour * 7 by decide,
      show (-1 : Int) ≤ 3 ∧ (3 : Int) ≤ 9 by decide, show "recorder" ≠ "" by decide⟩
  rw [Options.validate, hcheck]
  rfl

/-- `NewDefaultOptions` pass as they are: the storage starts with prefix `recorder` and level
`3`. -/
theorem newRedisRecorderWithValidation_default {addr : String} (haddr : addr ≠ "")
    (password : String) (db : Int) :
    newRedisRecorderWithValidation codec (some (newDefaultOptions addr password db)) =
      (.ok (new (optionsStorage codec) []), some (newDefaultOptions addr password db)) := by
  simp only [newRedisRecorderWithValidation, applyRedisDefaults_newDefaultOptions,
    validate_newDefaultOptions haddr]

/-- No check of `Validate` but the prefix's reports `prefix cannot be empty`. -/
theorem check_ne_prefix {o : Options} (h : o.keyPrefix ≠ "") :
    o.check ≠ some "prefix cannot be empty" := by
  unfold Options.check
  split_ifs <;> decide

/-- **What `NewRedisRecorderWithValidation` builds.** Its error is never `prefix cannot be empty`,
since the defaults fill an empty prefix. On success, the caller's options `opts`, as the
recorder's state starts with them, have a prefix that is not empty and a compression level in
`[-1, 9]` other than `0`; the recorder is the base recorder without hooks over the storage that
reads them, and as long as the caller leaves them as they are, it answers every run of calls as
the base recorder over the Redis storage with that prefix and level. -/
theorem newRedisRecorderWithValidation_ok (o : Option Options) :
    (newRedisRecorderWithValidation codec o).1 ≠ .error "prefix cannot be empty" ∧
    ∀ r o', newRedisRecorderWithValidation codec o = (.ok r, o') →
      ∃ opts, o' = some opts ∧ r = new (optionsStorage codec) [] ∧ opts.keyPrefix ≠ "" ∧
        -1 ≤ opts.compressionLvl ∧ opts.compressionLvl ≤ 9 ∧ opts.compressionLvl ≠ 0 ∧
        ∀ st calls, Alike (fun s st => s = (opts, st)) (runCalls r.call (opts, st) calls)
          (runCalls (new (storage opts.storageOptions codec) []).call st calls) := by
  rcases o with _ | o
  · exact ⟨by simp [newRedisRecorderWithValidation], fun _ _ h => by cases h⟩
  have hpfx : (applyRedisDefaults o).keyPrefix ≠ "" := orDefault_ne (by decide) _
  simp only [newRedisRecorderWithValidation]
  split
  · rename_i e o₁ hv
    refine ⟨fun he => check_ne_prefix hpfx ?_, fun _ _ h => by cases h⟩
    unfold Options.validate at hv
    split at hv <;> cases hv
    rw [‹(applyRedisDefaults o).check = some e›, show e = _ from Except.error.inj he]
  · rename_i o₁ hv
    obtain ⟨-, -, ⟨hlo, hhi⟩, hne⟩ := (validate_isOk_iff _).mp (congrArg Prod.fst hv)
    have hk : o₁.keyPrefix = (applyRedisDefaults o).keyPrefix :=
      congrArg RedisOptions.keyPrefix (validate_ok hv)
    have hl : o₁.compressionLvl = (applyRedisDefaults o).compressionLvl :=
      congrArg RedisOptions.compressionLvl (validate_ok hv)
    refine ⟨Except.noConfusion, fun r o' h => ?_⟩
    cases h
    exact ⟨o₁, rfl, rfl, hk ▸ hne, hl ▸ hlo, hl ▸ hhi, hl ▸ orDefault_ne (by decide) _,
      fun st calls =>
        BaseRecorder.runCalls_new_simulation (optionsStorage_simulation codec o₁) [] rfl calls⟩

/-- `NewRedisRecorderWithValidation(NewDefaultOptions("localhost:6379", "", 0))`. -/
theorem newRedisRecorderWithValidation_ok_default :
    let o := some (newDefaultOptions "localhost:6379" "" 0)
    let codec : Codec := ⟨fun d _ => .ok d, .ok⟩
    newRedisRecorderWithValidation codec o = (.ok (new (optionsStorage codec) []), o) ∧
      (newRedisRecorderWithValidation codec o).1 ≠ .error "prefix cannot be empty" ∧
      ∀ r o', newRedisRecorderWithValidation codec o = (.ok r, o') →
        ∃ opts, o' = some opts ∧ r = new (optionsStorage codec) [] ∧ opts.keyPrefix ≠ "" ∧
          -1 ≤ opts.compressionLvl ∧ opts.compressionLvl ≤ 9 ∧ opts.compressionLvl ≠ 0 ∧
          ∀ st calls, Alike (fun s st => s = (opts, st)) (runCalls r.call (opts, st) calls)
            (runCalls (new (storage opts.storageOptions codec) []).call st calls) := by
  intro o codec
  exact ⟨newRedisRecorderWithValidation_default codec (show "localhost:6379" ≠ "" by decide) "" 0,
    newRedisRecorderWithValidation_ok codec o⟩

/-- The recorder reads the caller's options at every call: after the caller sets its prefix to
`app`, a request is stored under `app:request:r1`. -/
example : let codec : Codec := ⟨fun d _ => .ok d, .ok⟩
    ((runCalls (new (optionsStorage codec) []).call
      ({ newDefaultOptions "localhost:6379" "" 0 with keyPrefix := "app" }, RedisState.empty)
      [.recordRequest none "r1" [1] []]).2.2.strings "app:request:r1") = some [1] :=
  rfl

theorem newRedisRecorderWithValidation_isOk_iff (o : Options) :
    (∃ r, (newRedisRecorderWithValidation codec (some o)).1 = .ok r) ↔
      o.addr ≠ "" ∧ 0 ≤ o.defaultTTL ∧ -1 ≤ o.compressionLvl ∧ o.compressionLvl ≤ 9 := by
  rw [← validate_applyRedisDefaults]
  simp only [newRedisRecorderWithValidation]
  split <;> rename_i h <;> simp [h]

end Redis

/-! ## The GORM model options -/

namespace Gorm

/-- A model factory as `prepare` sees it: `nil`, or a factory whose model has a `TableName()`
returning the given name, or none. -/
abbrev Factory := Option (Option String)

/-- `modelOptions` -/
structure ModelOptions where
  recordFactory : Factory
  tagFactory : Factory
  recordTable : String
  recordIDColumn : String
  recordTypeColumn : String
  recordRequestIDColumn : String
  tagTable : String
  tagRecordIDColumn : String
  tagKeyColumn : String
  tagValueColumn : String
deriving DecidableEq, Repr

/-- `NewOptions` -/
def newOptions (recordFactory tagFactory : Factory) : ModelOptions :=
  ⟨recordFactory, tagFactory, "recorder_records", "id", "type", "request_id", "recorder_tags",
    "record_id", "key", "value"⟩

/-- `WithRecordTable` -/
def ModelOptions.withRecordTable (o : ModelOptions) (table : String) : ModelOptions :=
  { o with recordTable := table }

/-- `WithRecordColumns` -/
def ModelOptions.withRecordColumns (o : ModelOptions) (id recordType requestID : String) :
    ModelOptions :=
  { o with recordIDColumn := id, recordTypeColumn := recordType, recordRequestIDColumn := requestID }

/-- `WithTagTable` -/
def ModelOptions.withTagTable (o : ModelOptions) (table : String) : ModelOptions :=
  { o with tagTable := table }

/-- `WithTagColumns` -/
def ModelOptions.withTagColumns (o : ModelOptions) (recordID key value : String) : ModelOptions :=
  { o with tagRecordIDColumn := recordID, tagKeyColumn := key, tagValueColumn := value }

/-- A table name left empty takes the model's `TableName()`, if it has one. -/
def tableOf (table : String) (tableName : Option String) : String :=
  if table = "" then tableName.getD "" else table

/-- `prepare` -/
def ModelOptions.prepare (o : ModelOptions) : Except String ModelOptions :=
  match o.recordFactory, o.tagFactory with
  | none, _ => .error "gorm recorder: record factory must not be nil"
  | _, none => .error "gorm recorder: tag factory must not be nil"
  | some recordName, some tagName =>
    if tableOf o.recordTable recordName = "" then
      .error "gorm recorder: record table name must not be empty"
    else if tableOf o.tagTable tagName = "" then
      .error "gorm recorder: tag table name must not be empty"
    else .ok
      { o with
        recordTable := tableOf o.recordTable recordName
        recordIDColumn := orDefault "" "id" o.recordIDColumn
        recordTypeColumn := orDefault "" "type" o.recordTypeColumn
        recordRequestIDColumn := orDefault "" "request_id" o.recordRequestIDColumn
        tagTable := tableOf o.tagTable tagName
        tagRecordIDColumn := orDefault "" "record_id" o.tagRecordIDColumn
        tagKeyColumn := orDefault "" "key" o.tagKeyColumn
        tagValueColumn := orDefault "" "value" o.tagValueColumn }

/-- Options that name every table and column, with both factories. -/
def ModelOptions.Named (o : ModelOptions) : Prop :=
  o.recordFactory ≠ none ∧ o.tagFactory ≠ none ∧ o.recordTable ≠ "" ∧ o.recordIDColumn ≠ "" ∧
    o.recordTypeColumn ≠ "" ∧ o.recordRequestIDColumn ≠ "" ∧ o.tagTable ≠ "" ∧
    o.tagRecordIDColumn ≠ "" ∧ o.tagKeyColumn ≠ "" ∧ o.tagValueColumn ≠ ""

instance instDecidableNamed (o : ModelOptions) : Decidable o.Named := by
  unfold ModelOptions.Named
  infer_instance

theorem tableOf_of_ne {table : String} (h : table ≠ "") (tableName : Option String) :
    tableOf table tableName = table :=
  if_neg h

/-- `prepare` accepts exactly the options with both factories and a table name for each model,
given or from `TableName()`. -/
theorem prepare_isOk_iff (o : ModelOptions) :
    (∃ p, o.prepare = .ok p) ↔ ∃ recordName tagName, o.recordFactory = some recordName ∧
      o.tagFactory = some tagName ∧ tableOf o.recordTable recordName ≠ "" ∧
      tableOf o.tagTable tagName ≠ "" := by
  unfold ModelOptions.prepare
  split
  · rename_i hr
    simp only [hr, reduceCtorEq, exists_false, false_and]
  · rename_i ht _
    simp only [ht, reduceCtorEq, exists_false, false_and, and_false]
  · rename_i rn tn hr ht
    simp only [hr, ht, Option.some.injEq]
    split_ifs with h₁ h₂
    · exact iff_of_false (fun ⟨_, h⟩ => nomatch h) fun ⟨_, _, h₃, _, h, _⟩ => h (h₃ ▸ h₁)
    · exact iff_of_false (fun ⟨_, h⟩ => nomatch h) fun ⟨_, _, _, h₄, _, h⟩ => h (h₄ ▸ h₂)
    · exact iff_of_true ⟨_, rfl⟩ ⟨rn, tn, rfl, rfl, h₁, h₂⟩

/-- A record model without `TableName()` needs its table named. -/
example : ((newOptions (some none) (some none)).withRecordTable "").prepare =
    .error "gorm recorder: record table name must not be empty" := by
  decide

/-- What `prepare` returns names every table and column. -/
theorem prepare_named {o p : ModelOptions} (h : o.prepare = .ok p) : p.Named := by
  unfold ModelOptions.prepare at h
  split at h
  · cases h
  · cases h
  · split_ifs at h with hr ht
    cases h
    exact ⟨by simp_all, by simp_all, hr, orDefault_ne (by decide) _, orDefault_ne (by decide) _,
      orDefault_ne (by decide) _, ht, orDefault_ne (by decide) _, orDefault_ne (by decide) _,
      orDefault_ne (by decide) _⟩

/-- Options that name everything pass `prepare` unchanged. -/
theorem prepare_of_named {o : ModelOptions} (h : o.Named) : o.prepare = .ok o := by
  obtain ⟨hrf, htf, hr, hid, hty, hrq, ht, htr, hk, hv⟩ := h
  obtain ⟨rn, hrn⟩ := Option.ne_none_iff_exists'.mp hrf
  obtain ⟨tn, htn⟩ := Option.ne_none_iff_exists'.mp htf
  simp only [ModelOptions.prepare, hrn, htn, tableOf_of_ne hr, tableOf_of_ne ht, hr, ht, if_false,
    orDefault_of_ne hid, orDefault_of_ne hty, orDefault_of_ne hrq, orDefault_of_ne htr,
    orDefault_of_ne hk, orDefault_of_ne hv]
  rw [← hrn, ← htn]

theorem prepare_idempotent {o p : ModelOptions} (h : o.prepare = .ok p) : p.prepare = .ok p :=
  prepare_of_named (prepare_named h)

/-- `NewRecorder`'s options: the default models, whose `TableName()` are `recorder_records` and
`recorder_tags`, pass `prepare` unchanged. -/
theorem prepare_newOptions_default :
    (newOptions (some (some "recorder_records")) (some (some "recorder_tags"))).prepare =
      .ok (newOptions (some (some "recorder_records")) (some (some "recorder_tags"))) :=
  prepare_of_named (by decide)

/-! ### The constructors -/

/-- The storage of gorm_recorder/recorder.go, whose `Save` is one transaction. -/
def singleTransactionStorage : Storage GormDB :=
  ⟨saveSingleTransaction, load, findByTag⟩

/-- `newRecorderWithPreparedOptions`: `db` is `nil` or the handle's tables, `autoMigrate` the
error of `db.AutoMigrate`, if any. The prepared names reach only the SQL, which the tables of
the model abstract. -/
def newRecorderWithPreparedOptions (db : Option GormDB) (autoMigrate : Option String)
    (_opts : ModelOptions) : Except String (BaseRecorder GormDB) :=
  match db with
  | none => .error "gorm recorder: db must not be nil"
  | some _ =>
    match autoMigrate with
    | some err => .error ("gorm recorder: auto migrate failed: " ++ err)
    | none => .ok (new singleTransactionStorage [])

/-- `NewRecorderWithModels` -/
def newRecorderWithModels (db : Option GormDB) (autoMigrate : Option String)
    (opts : ModelOptions) : Except String (BaseRecorder GormDB) :=
  match opts.prepare with
  | .error e => .error e
  | .ok prepared => newRecorderWithPreparedOptions db autoMigrate prepared

/-- `NewRecorder`: the package's models, `recordModel` and `recordTag`. -/
def newRecorder (db : Option GormDB) (autoMigrate : Option String) :
    Except String (BaseRecorder GormDB) :=
  newRecorderWithModels db autoMigrate
    (newOptions (some (some "recorder_records")) (some (some "recorder_tags")))

/-- `NewRecorder` fails only on a `nil` handle or a failed `AutoMigrate`: its default models
always pass `prepare`. -/
theorem newRecorder_ok_iff (db : Option GormDB) (autoMigrate : Option String)
    (r : BaseRecorder GormDB) :
    newRecorder db autoMigrate = .ok r ↔
      db ≠ none ∧ autoMigrate = none ∧ r = new singleTransactionStorage [] := by
  unfold newRecorder newRecorderWithModels newRecorderWithPreparedOptions
  rw [prepare_newOptions_default]
  rcases db with _ | d <;> rcases autoMigrate with _ | e <;> simp [eq_comm]

end Gorm

end Recorder
