import Recorder.Value
import Recorder.Scrubber.Rule
import Recorder.Scrubber.Traversal
import Recorder.Scrubber.Contract
import Recorder.Scrubber.Headers
import Recorder.Scrubber.Defaults
import Recorder.Scrubber.Laws
import Recorder.Scrubber.Mask
import Recorder.FilePath
import Recorder.Json.Utf8
import Recorder.Json.Float
import Recorder.Json.Encode
import Recorder.Json.Decode
import Recorder.Json.RoundTrip
import Recorder.Json.Canonical
import Recorder.Storage.Record
import Recorder.BaseRecorder
import Recorder.Storage.Keyed
import Recorder.Storage.Redis
import Recorder.Storage.RedisIndex
import Recorder.FileSystem
import Recorder.Storage.File
import Recorder.Storage.Gorm
import Recorder.Storage.GormSequential
import Recorder.Storage.GormConcurrent
import Recorder.Storage.GormTx
import Recorder.Backends
import Recorder.Binding
import Recorder.Metrics
import Recorder.Calls
import Recorder.Storage.Callback
import Recorder.Legacy.File
import Recorder.Legacy.Redis
import Recorder.Legacy.Base
import Recorder.Async
import Recorder.Options
import Recorder.Storage.GormRetry
