import Recorder.Value
import Mathlib.Algebra.Group.Int

/-!
# In-memory metrics

`inMemoryMetrics` (metrics.go). Every call files its value under the key
`buildKey(name, tags)`: the name followed by `,k=v` for each tag, in the order the runtime
iterates the tag map. Counters are `int64`s incremented with wrap-around, gauges keep the last
value, histograms append.

A call's tag map is an association list in the iteration order of that call; another iteration
order of the same map is a permutation of the list. Floating-point values are a parameter type
`φ`: they are only stored and returned, and the conversion of a duration to milliseconds in
`RecordTiming` is a parameter too. The mutex makes every call one atomic step, so a concurrent
history is a sequence of calls.
-/

namespace Recorder

/-- `int64` arithmetic: the value of an integer modulo `2^64`, in `[-2^63, 2^63)`. -/
def toInt64 (n : Int) : Int :=
  (n + 2 ^ 63) % 2 ^ 64 - 2 ^ 63

/-- A call on the metrics. -/
inductive MetricsCall (φ : Type) where
  | incrementCounter (name : String) (tags : List (String × String))
  | setGauge (name : String) (value : φ) (tags : List (String × String))
  | recordHistogram (name : String) (value : φ) (tags : List (String × String))
  | recordTiming (name : String) (nanoseconds : Int) (tags : List (String × String))

/-- `inMemoryMetrics`: the three maps, absent keys being `none`. -/
structure MetricsState (φ : Type) where
  counters : String → Option Int
  gauges : String → Option φ
  histograms : String → Option (List φ)

namespace Metrics

variable {φ : Type}

/-- `NewMetrics` -/
def newMetrics : MetricsState φ := ⟨fun _ => none, fun _ => none, fun _ => none⟩

/-- `buildKey` -/
def buildKey (name : String) (tags : List (String × String)) : String :=
  tags.foldl (fun key e => key ++ "," ++ e.1 ++ "=" ++ e.2) name

/-- The key is the name followed by `,k=v` for each tag, in the order the tags are iterated. -/
theorem buildKey_data (name : String) (tags : List (String × String)) :
    (buildKey name tags).data =
      name.data ++ tags.flatMap fun e => ',' :: (e.1.data ++ '=' :: e.2.data) := by
  induction tags generalizing name with
  | nil => simp [buildKey]
  | cons e tags ih =>
    have h := ih (name ++ "," ++ e.1 ++ "=" ++ e.2)
    simp only [buildKey, List.foldl_cons] at h ⊢
    rw [h]
    simp

/-- Set one key of a map. -/
def update {α : Type} (m : String → Option α) (key : String) (value : α) : String → Option α :=
  fun k => if k = key then some value else m k

/-- `IncrementCounter`: `m.counters[key]++` on an `int64`. -/
def incrementCounter (m : MetricsState φ) (name : String) (tags : List (String × String)) : MetricsState φ :=
  let key := buildKey name tags
  { m with counters := update m.counters key (toInt64 ((m.counters key).getD 0 + 1)) }

/-- `SetGauge` -/
def setGauge (m : MetricsState φ) (name : String) (value : φ) (tags : List (String × String)) : MetricsState φ :=
  { m with gauges := update m.gauges (buildKey name tags) value }

/-- `RecordHistogram` -/
def recordHistogram (m : MetricsState φ) (name : String) (value : φ) (tags : List (String × String)) :
    MetricsState φ :=
  let key := buildKey name tags
  { m with histograms := update m.histograms key ((m.histograms key).getD [] ++ [value]) }

/-- One call; `millis` converts nanoseconds to milliseconds (`float64(ns)/1e6`). -/
def apply (millis : Int → φ) (m : MetricsState φ) : MetricsCall φ → MetricsState φ
  | .incrementCounter name tags => incrementCounter m name tags
  | .setGauge name value tags => setGauge m name value tags
  | .recordHistogram name value tags => recordHistogram m name value tags
  | .recordTiming name ns tags => recordHistogram m name (millis ns) tags

/-- A sequence of calls. -/
def run (millis : Int → φ) (m : MetricsState φ) (calls : List (MetricsCall φ)) : MetricsState φ :=
  calls.foldl (apply millis) m

end Metrics

/-! ## What a run of calls leaves under a key -/

namespace MetricsCall

variable {φ : Type}

/-- The metric name of a call. -/
def name : MetricsCall φ → String
  | .incrementCounter name _ | .setGauge name _ _ | .recordHistogram name _ _
  | .recordTiming name _ _ => name

/-- The tags of a call, in the order the runtime iterates them. -/
def tags : MetricsCall φ → List (String × String)
  | .incrementCounter _ tags | .setGauge _ _ tags | .recordHistogram _ _ tags
  | .recordTiming _ _ tags => tags

/-- The key a call files its value under. -/
def key (c : MetricsCall φ) : String :=
  Metrics.buildKey c.name c.tags

/-- Is the call a counter increment under `key`? -/
def countsUnder (key : String) : MetricsCall φ → Bool
  | .incrementCounter name tags => Metrics.buildKey name tags = key
  | _ => false

/-- The gauge value a call sets under `key`. -/
def gaugeUnder (key : String) : MetricsCall φ → Option φ
  | .setGauge name value tags => if Metrics.buildKey name tags = key then some value else none
  | _ => none

/-- The histogram value a call records under `key`. -/
def histogramUnder (millis : Int → φ) (key : String) : MetricsCall φ → Option φ
  | .recordHistogram name value tags =>
    if Metrics.buildKey name tags = key then some value else none
  | .recordTiming name ns tags => if Metrics.buildKey name tags = key then some (millis ns) else none
  | _ => none

end MetricsCall

namespace Metrics

variable {φ : Type}

/-- The last gauge value set under `key`. -/
def lastGauge (key : String) : List (MetricsCall φ) → Option φ
  | [] => none
  | c :: cs => (lastGauge key cs).or (c.gaugeUnder key)

theorem toInt64_add (a b : Int) : toInt64 (toInt64 a + b) = toInt64 (a + b) := by
  unfold toInt64
  omega

/-- One call on a counter. -/
theorem apply_counters (millis : Int → φ) (m : MetricsState φ) (c : MetricsCall φ)
    (key : String) : (apply millis m c).counters key =
      if c.countsUnder key then some (toInt64 ((m.counters key).getD 0 + 1)) else m.counters key := by
  cases c with
  | incrementCounter name tags =>
    by_cases hk : buildKey name tags = key
    · subst hk
      simp [apply, incrementCounter, update, MetricsCall.countsUnder]
    · simp [apply, incrementCounter, update, MetricsCall.countsUnder, hk, Ne.symm hk]
  | _ => simp [apply, setGauge, recordHistogram, MetricsCall.countsUnder]

/-- One call on a gauge. -/
theorem apply_gauges (millis : Int → φ) (m : MetricsState φ) (c : MetricsCall φ) (key : String) :
    (apply millis m c).gauges key = (c.gaugeUnder key).or (m.gauges key) := by
  cases c with
  | setGauge name value tags =>
    by_cases hk : buildKey name tags = key
    · subst hk
      simp [apply, setGauge, update, MetricsCall.gaugeUnder]
    · simp [apply, setGauge, update, MetricsCall.gaugeUnder, hk, Ne.symm hk]
  | _ => simp [apply, incrementCounter, recordHistogram, MetricsCall.gaugeUnder]

/-- One call on a histogram. -/
theorem apply_histograms (millis : Int → φ) (m : MetricsState φ) (c : MetricsCall φ)
    (key : String) : (apply millis m c).histograms key =
      match c.histogramUnder millis key with
      | none => m.histograms key
      | some v => some ((m.histograms key).getD [] ++ [v]) := by
  cases c with
  | incrementCounter => simp [apply, incrementCounter, MetricsCall.histogramUnder]
  | setGauge => simp [apply, setGauge, MetricsCall.histogramUnder]
  | recordHistogram name value tags =>
    by_cases hk : buildKey name tags = key
    · subst hk
      simp [apply, recordHistogram, update, MetricsCall.histogramUnder]
    · simp [apply, recordHistogram, update, MetricsCall.histogramUnder, hk, Ne.symm hk]
  | recordTiming name ns tags =>
    by_cases hk : buildKey name tags = key
    · subst hk
      simp [apply, recordHistogram, update, MetricsCall.histogramUnder]
    · simp [apply, recordHistogram, update, MetricsCall.histogramUnder, hk, Ne.symm hk]

/-- Counters after a run: the old count plus the increments under the key, as an `int64`. -/
theorem run_counters (millis : Int → φ) (key : String) (calls : List (MetricsCall φ)) :
    ∀ m : MetricsState φ, (run millis m calls).counters key =
      if calls.countP (MetricsCall.countsUnder key) = 0 then m.counters key
      else some (toInt64 ((m.counters key).getD 0 + calls.countP (MetricsCall.countsUnder key))) := by
  induction calls with
  | nil => intro m; rfl
  | cons c cs ih =>
    intro m
    rw [run, List.foldl_cons, ← run, ih, apply_counters, List.countP_cons]
    by_cases hc : c.countsUnder key
    · by_cases h0 : cs.countP (MetricsCall.countsUnder key) = 0
      · simp [hc, h0]
      · rw [if_pos hc, if_neg h0, if_pos hc, if_neg (by omega), Option.getD_some, toInt64_add]
        congr 2
        push_cast
        omega
    · simp [hc]

/-- Gauges after a run: the last value set under the key, or the old one. -/
theorem run_gauges (millis : Int → φ) (key : String) (calls : List (MetricsCall φ)) :
    ∀ m : MetricsState φ, (run millis m calls).gauges key = (lastGauge key calls).or (m.gauges key) := by
  induction calls with
  | nil => intro m; rfl
  | cons c cs ih =>
    intro m
    rw [run, List.foldl_cons, ← run, ih, apply_gauges, lastGauge, Option.or_assoc]

/-- Histograms after a run: the old values followed by the values recorded under the key. -/
theorem run_histograms (millis : Int → φ) (key : String) (calls : List (MetricsCall φ)) :
    ∀ m : MetricsState φ, (run millis m calls).histograms key =
      if (calls.filterMap (MetricsCall.histogramUnder millis key)).isEmpty then m.histograms key
      else some ((m.histograms key).getD [] ++ calls.filterMap (MetricsCall.histogramUnder millis key)) := by
  induction calls with
  | nil => intro m; rfl
  | cons c cs ih =>
    intro m
    rw [run, List.foldl_cons, ← run, ih, apply_histograms, List.filterMap_cons]
    cases c.histogramUnder millis key with
    | none => rfl
    | some v => split_ifs <;> simp_all

/-! ## Keys in ascending tag order -/

/-- When every call's tags are iterated in ascending key order, every call files under the key
of the name and its tags in ascending order; each key then holds the number of increments under
it (as an `int64`), the last gauge value set under it, and the histogram values recorded under
it in call order. Keys and values are not escaped. -/
theorem metrics_by_sorted_key (millis : Int → φ) (calls : List (MetricsCall φ))
    (hsorted : ∀ c ∈ calls, Value.sortedByKey c.tags = c.tags) :
    (∀ c ∈ calls, c.key.data =
      c.name.data ++ (Value.sortedByKey c.tags).flatMap fun e => ',' :: (e.1.data ++ '=' :: e.2.data)) ∧
    ∀ key, (run millis newMetrics calls).counters key =
        (if calls.countP (MetricsCall.countsUnder key) = 0 then none
         else some (toInt64 (calls.countP (MetricsCall.countsUnder key)))) ∧
      (run millis newMetrics calls).gauges key = lastGauge key calls ∧
      (run millis newMetrics calls).histograms key =
        (if (calls.filterMap (MetricsCall.histogramUnder millis key)).isEmpty then none
         else some (calls.filterMap (MetricsCall.histogramUnder millis key))) := by
  refine ⟨fun c hc => by rw [MetricsCall.key, buildKey_data, hsorted c hc],
    fun key => ⟨?_, ?_, ?_⟩⟩
  · simp [run_counters, newMetrics]
  · simp [run_gauges, newMetrics]
  · simp [run_histograms, newMetrics]

/-- Two increments with the tags `a=1, b=2`, iterated in ascending order, are counted under
`requests,a=1,b=2`. -/
theorem metrics_by_sorted_key_requests :
    (run (fun _ => (0 : Nat)) newMetrics
      [.incrementCounter "requests" [("a", "1"), ("b", "2")],
       .incrementCounter "requests" [("a", "1"), ("b", "2")]]).counters
      "requests,a=1,b=2" = some 2 := by
  rw [((metrics_by_sorted_key (fun _ => (0 : Nat))
    [.incrementCounter "requests" [("a", "1"), ("b", "2")],
     .incrementCounter "requests" [("a", "1"), ("b", "2")]]
    (by decide)).2 "requests,a=1,b=2").1]
  decide

/-- The same tag map iterated in two orders gives two counter entries, and two different tag maps
give one key. -/
theorem buildKey_order_dependent_and_merging :
    (run (fun _ => (0 : Nat)) newMetrics
      [.incrementCounter "requests" [("b", "2"), ("a", "1")],
       .incrementCounter "requests" [("a", "1"), ("b", "2")]]).counters "requests,a=1,b=2" = some 1 ∧
    (run (fun _ => (0 : Nat)) newMetrics
      [.incrementCounter "requests" [("b", "2"), ("a", "1")],
       .incrementCounter "requests" [("a", "1"), ("b", "2")]]).counters "requests,b=2,a=1" = some 1 ∧
    (run (fun _ => (0 : Nat)) newMetrics
      [.incrementCounter "n" [("x", "1,y=2")],
       .incrementCounter "n" [("x", "1"), ("y", "2")]]).counters "n,x=1,y=2" = some 2 := by
  decide

end Metrics

end Recorder
