import Recorder.Storage.GormTx
import Recorder.Options
import Recorder.Metrics
import Mathlib.Tactic.Ring
import Mathlib.Algebra.Order.BigOperators.Group.List

/-!
# Adaptive retries and back-off of the retrying GORM `Save`

The retrying `Save` (unnamed/part_001, `Tx.save`) takes its retry count and its base delay from
two package counters, `deadlockCounter` and `successCounter` (`calculateAdaptiveRetries`,
`calculateAdaptiveDelay`: one switch on the float64 deadlock rate, `byContention`), and before
attempt `attempt > 0` it sleeps `calculateBackoffDelay(attempt, baseDelay)`: the base delay
doubled per attempt up to 16 times, plus a jitter `int64(v) % maxJitter` of a random word `v`.
Each of the two functions loads the counters itself, so the results below take one reading of
the counters for each.

- `calculateBackoffDelay_range`: from attempt 1 on, the delays the random words give are exactly
  the step `backoffStep` and the durations less than half a step away from it; the jitter of a
  word whose top bit is set is never positive, so it shortens the delay about as often as it
  lengthens it;
- `save_cancel_congr`: the loop sleeps only before attempts `1..maxRetries`;
- `save_backoff_total_lt`: whatever the counters and the random words, the back-offs of one
  `Save` add up to less than 23.7 s;
- `save_deadline_after_backoffs`: so a context whose deadline leaves 23.7 s beyond the time the
  attempts' statements take never ends a `Save` in a back-off (`deadlineCancel`).

The rate `float64(deadlocks) / float64(deadlocks+successes)` is compared with the float64
thresholds 0.1 and 0.05 through the exact quotient and the midpoint above each threshold
(`Counters.rateAbove`); the counters' `int64` overflow, `2^63` calls away, is left out.
`float64(baseDelay) * multiplier` is exact for the base delays the counters give (far below
2^53 ns), and so is the step.
-/

namespace Recorder

namespace Gorm

namespace Tx

/-- The package counters `deadlockCounter` and `successCounter`. -/
structure Counters where
  deadlocks : Nat
  successes : Nat
deriving DecidableEq, Repr

/-- `float64(n)` of a counter: `n` itself below `2^53`; above, `n` with the bits below its 53
leading ones rounded off, to the nearest and ties to even. -/
def float64OfCount (n : Nat) : Nat :=
  if n < 2 ^ 53 then n
  else
    let k := n.log2 + 1 - 53
    Json.divRound n (2 ^ k) * 2 ^ k

/-- `float64(deadlocks) / float64(deadlocks+successes) > t`, for a float64 threshold
`t = m × 2^-e` with an even mantissa `m`. The division rounds the exact quotient to the nearest
float64. Rounding is monotone, `t` is a float64, and the quotient half-way between `t` and the
next float64 `(m + 1) × 2^-e` rounds to the even `m`: the rounded quotient is above `t` exactly
when the exact quotient is above `(2m + 1) × 2^-(e+1)`, which is compared here on naturals. -/
def Counters.rateAbove (c : Counters) (m e : Nat) : Bool :=
  (2 * m + 1) * float64OfCount (c.deadlocks + c.successes) < 2 ^ (e + 1) * float64OfCount c.deadlocks

/-- The switch of the two adaptive settings: no success yet, a deadlock rate above 0.1
(`7205759403792794 × 2^-56` in float64), above 0.05 (`7205759403792794 × 2^-57`), or lower. -/
def byContention {α : Type} (c : Counters) (noData high medium low : α) : α :=
  if c.successes = 0 then noData
  else if c.rateAbove 7205759403792794 56 then high
  else if c.rateAbove 7205759403792794 57 then medium
  else low

/-- `calculateAdaptiveRetries` -/
def calculateAdaptiveRetries (c : Counters) : Nat :=
  byContention c 5 8 6 3

/-- `calculateAdaptiveDelay`, in nanoseconds. -/
def calculateAdaptiveDelay (c : Counters) : Int :=
  byContention c (100 * Duration.millisecond) (200 * Duration.millisecond)
    (150 * Duration.millisecond) (50 * Duration.millisecond)

/-- One deadlock in ten calls is a rate of exactly `0.1` in float64, which is not above `0.1`. -/
example : calculateAdaptiveRetries ⟨1, 9⟩ = 6 := by
  decide

/-- A rate above `1/10` that rounds to `0.1`: exact arithmetic would give 8 retries. -/
example : calculateAdaptiveRetries ⟨900719925474099, 8106479329266890⟩ = 6 := by
  decide

theorem calculateAdaptiveRetries_le (c : Counters) : calculateAdaptiveRetries c ≤ 8 := by
  unfold calculateAdaptiveRetries byContention
  split_ifs <;> decide

theorem calculateAdaptiveDelay_bounds (c : Counters) :
    0 < calculateAdaptiveDelay c ∧ calculateAdaptiveDelay c ≤ 200 * Duration.millisecond := by
  unfold calculateAdaptiveDelay byContention
  split_ifs <;> decide

/-- `time.Duration(float64(baseDelay) * multiplier)`, the multiplier `math.Pow(2, attempt-1)`
capped at 16. -/
def backoffStep (attempt : Nat) (baseDelay : Int) : Int :=
  if attempt = 0 then baseDelay.tdiv 2 else baseDelay * 2 ^ min (attempt - 1) 4

/-- `calculateBackoffDelay`, for the random word `jitterValue` (`none` when `rand.Read` fails):
the step plus `int64(jitterValue) % maxJitter`, `maxJitter` half the step. -/
def calculateBackoffDelay (attempt : Nat) (baseDelay : Int) (jitterValue : Option UInt64) : Int :=
  let delay := backoffStep attempt baseDelay
  match jitterValue with
  | none => delay
  | some v =>
    let maxJitter := delay.tdiv 2
    if maxJitter > 0 then delay + (toInt64 v.toNat).tmod maxJitter else delay

/-! ## The jitter -/

theorem tmod_neg_left (a b : Int) : (-a).tmod b = -a.tmod b := by
  rw [Int.tmod_def, Int.tmod_def, Int.neg_tdiv]
  ring

/-- Go's `%` by a positive divisor stays strictly within the divisor on both sides. -/
theorem tmod_bounds (a : Int) {m : Int} (hm : 0 < m) : -m < a.tmod m ∧ a.tmod m < m := by
  rcases Int.le_or_lt 0 a with ha | ha
  · exact ⟨by have := Int.tmod_nonneg m ha; omega, Int.tmod_lt_of_pos a hm⟩
  · have h := Int.tmod_nonneg m (show 0 ≤ -a by omega)
    have h' := Int.tmod_lt_of_pos (-a) hm
    rw [tmod_neg_left] at h h'
    omega

theorem tmod_eq_self {j m : Int} (h₁ : -m < j) (h₂ : j < m) : j.tmod m = j := by
  rcases Int.le_or_lt 0 j with hj | hj
  · exact Int.tmod_eq_of_lt hj h₂
  · have h := Int.tmod_eq_of_lt (show 0 ≤ -j by omega) (show -j < m by omega)
    rw [tmod_neg_left] at h
    omega

/-- Every `int64` is `int64(v)` of some word. -/
theorem toInt64_surjective {j : Int} (h₁ : -2 ^ 63 ≤ j) (h₂ : j < 2 ^ 63) :
    toInt64 (UInt64.ofNat (j % 2 ^ 64).toNat).toNat = j := by
  have hlt : (j % 2 ^ 64).toNat < UInt64.size := by
    simp only [UInt64.size]
    omega
  rw [UInt64.toNat_ofNat_of_lt hlt, toInt64]
  omega

/-- The jittered delay around a step `d`: the step, and every duration less than `maxJitter`
away from it. -/
theorem jittered_range {d : Int} (hd : 0 ≤ d ∧ d ≤ 2 ^ 57) (r : Int) :
    (∃ v : UInt64, (if d.tdiv 2 > 0 then d + (toInt64 v.toNat).tmod (d.tdiv 2) else d) = r) ↔
      r = d ∨ (d - d.tdiv 2 < r ∧ r < d + d.tdiv 2) := by
  rw [Int.tdiv_eq_ediv hd.1 (by norm_num)]
  by_cases hm : d / 2 > 0
  · simp only [hm, if_true]
    constructor
    · rintro ⟨v, rfl⟩
      have := tmod_bounds (toInt64 v.toNat) hm
      exact .inr ⟨by omega, by omega⟩
    · intro hr
      have hj : -(d / 2) < r - d ∧ r - d < d / 2 := by omega
      refine ⟨UInt64.ofNat ((r - d) % 2 ^ 64).toNat, ?_⟩
      rw [toInt64_surjective (by omega) (by omega), tmod_eq_self hj.1 hj.2]
      omega
  · simp only [hm, if_false, exists_const]
    constructor
    · exact fun h => .inl h.symm
    · rintro (rfl | h)
      · rfl
      · omega

/-- `int64(v)` of a word whose top bit is set is negative, and Go's `%` keeps the dividend's
sign: its jitter is never positive. -/
theorem jitter_nonpos_of_topBit {v : UInt64} (hv : 2 ^ 63 ≤ v.toNat) (m : Int) :
    (toInt64 v.toNat).tmod m ≤ 0 := by
  have hlt : v.toNat < 2 ^ 64 := v.toNat_lt_size
  have hneg : toInt64 v.toNat < 0 := by
    simp only [toInt64]
    omega
  have h := Int.tmod_nonneg m (show 0 ≤ -toInt64 v.toNat by omega)
  rw [tmod_neg_left] at h
  omega

/-- **The delays of a back-off.** From attempt 1 on, with a base delay of at most 2^53 ns, the
delays `calculateBackoffDelay` gives over all random words are exactly the step and the
durations less than half a step (`maxJitter`) away from it; a word whose top bit is set gives a
jitter of at most zero, so a delay no longer than the step. -/
theorem calculateBackoffDelay_range {attempt : Nat} {baseDelay : Int} (hattempt : 0 < attempt)
    (hbase : 0 ≤ baseDelay ∧ baseDelay ≤ 2 ^ 53) :
    (∀ r, (∃ v, calculateBackoffDelay attempt baseDelay (some v) = r) ↔
      r = backoffStep attempt baseDelay ∨
        (backoffStep attempt baseDelay - (backoffStep attempt baseDelay).tdiv 2 < r ∧
          r < backoffStep attempt baseDelay + (backoffStep attempt baseDelay).tdiv 2)) ∧
    ∀ v : UInt64, 2 ^ 63 ≤ v.toNat →
      (toInt64 v.toNat).tmod ((backoffStep attempt baseDelay).tdiv 2) ≤ 0 ∧
        calculateBackoffDelay attempt baseDelay (some v) ≤ backoffStep attempt baseDelay := by
  have hstep : 0 ≤ backoffStep attempt baseDelay ∧ backoffStep attempt baseDelay ≤ 2 ^ 57 := by
    have hpow : (2 : Int) ^ min (attempt - 1) 4 ≤ 2 ^ 4 :=
      pow_le_pow_right₀ (by norm_num) (min_le_right _ _)
    have hpos : (0 : Int) < 2 ^ min (attempt - 1) 4 := by positivity
    simp only [backoffStep, Nat.pos_iff_ne_zero.mp hattempt, if_false]
    refine ⟨mul_nonneg hbase.1 hpos.le, ?_⟩
    calc baseDelay * 2 ^ min (attempt - 1) 4 ≤ 2 ^ 53 * 2 ^ 4 :=
          mul_le_mul hbase.2 hpow hpos.le (by norm_num)
      _ = 2 ^ 57 := by norm_num
  refine ⟨jittered_range hstep, fun v hv => ⟨jitter_nonpos_of_topBit hv _, ?_⟩⟩
  have := jitter_nonpos_of_topBit hv ((backoffStep attempt baseDelay).tdiv 2)
  simp only [calculateBackoffDelay]
  split <;> omega

/-- Attempt 2 from a base delay of 100 ms: the delays are the 200 ms step and those less than
100 ms away from it. -/
theorem calculateBackoffDelay_range_shorter :
    0 < 2 ∧ (0 ≤ 100 * Duration.millisecond ∧ 100 * Duration.millisecond ≤ 2 ^ 53) ∧
    (∀ r, (∃ v, calculateBackoffDelay 2 (100 * Duration.millisecond) (some v) = r) ↔
      r = backoffStep 2 (100 * Duration.millisecond) ∨
        (backoffStep 2 (100 * Duration.millisecond) -
            (backoffStep 2 (100 * Duration.millisecond)).tdiv 2 < r ∧
          r < backoffStep 2 (100 * Duration.millisecond) +
            (backoffStep 2 (100 * Duration.millisecond)).tdiv 2)) ∧
    ∀ v : UInt64, 2 ^ 63 ≤ v.toNat →
      (toInt64 v.toNat).tmod ((backoffStep 2 (100 * Duration.millisecond)).tdiv 2) ≤ 0 ∧
        calculateBackoffDelay 2 (100 * Duration.millisecond) (some v) ≤
          backoffStep 2 (100 * Duration.millisecond) :=
  ⟨by decide, ⟨by decide, by decide⟩,
    calculateBackoffDelay_range (by decide) ⟨by decide, by decide⟩⟩

/-- The word of `int64` value -1, whose top bit is set, makes the delay 1 ns shorter than the
200 ms step. -/
example : calculateBackoffDelay 2 (100 * Duration.millisecond) (some (UInt64.ofNat (2 ^ 64 - 1))) =
    200 * Duration.millisecond - 1 := by
  decide

/-! ## The back-offs of one `Save` -/

section Loop

variable (isDeadlock : String → Bool) (maxRetries : Nat) (record : Record)

/-- The loop consults the context only before attempts `1..maxRetries`. -/
theorem saveLoop_cancel_congr {cancel cancel' : Nat → Option String}
    (hc : ∀ a, 0 < a → a ≤ maxRetries → cancel a = cancel' a) :
    ∀ left attempt lastErr c, attempt + left ≤ maxRetries + 1 →
      saveLoop isDeadlock maxRetries cancel record attempt left lastErr c =
        saveLoop isDeadlock maxRetries cancel' record attempt left lastErr c
  | 0, _, _, _, _ => rfl
  | left + 1, attempt, _, c, h => by
    have hcancel : (if attempt > 0 then cancel attempt else none) =
        (if attempt > 0 then cancel' attempt else none) := by
      split_ifs with ha
      exacts [hc attempt ha (by omega), rfl]
    simp only [saveLoop, hcancel]
    split
    · rfl
    · split
      · rfl
      · split
        · exact saveLoop_cancel_congr hc left _ _ _ (by omega)
        · rfl

end Loop

/-- `Save` sleeps at most `maxRetries` times: only the context's answers before attempts
`1..maxRetries` count. -/
theorem save_cancel_congr (lower : Char → Char) (maxRetries : Nat) {cancel cancel' : Nat → Option String}
    (hc : ∀ a, 0 < a → a ≤ maxRetries → cancel a = cancel' a) (record : Record) (c : Conn) :
    save lower maxRetries cancel record c = save lower maxRetries cancel' record c := by
  unfold save
  split
  · rfl
  · exact saveLoop_cancel_congr _ _ _ hc _ _ _ _ (by omega)

/-- The back-offs before attempts `1..n`, with the random word `jitter a` before attempt `a`. -/
def backoffs (baseDelay : Int) (jitter : Nat → Option UInt64) : Nat → List Int
  | 0 => []
  | n + 1 => backoffs baseDelay jitter n ++ [calculateBackoffDelay (n + 1) baseDelay (jitter (n + 1))]

/-- The steps before attempts `1..n`, without jitter. -/
def stepTotal (baseDelay : Int) : Nat → Int
  | 0 => 0
  | n + 1 => stepTotal baseDelay n + backoffStep (n + 1) baseDelay

/-- A delay is less than one and a half steps. -/
theorem two_mul_calculateBackoffDelay_lt {attempt : Nat} {baseDelay : Int} (hattempt : 0 < attempt)
    (hbase : 0 < baseDelay) (jitterValue : Option UInt64) :
    2 * calculateBackoffDelay attempt baseDelay jitterValue < 3 * backoffStep attempt baseDelay := by
  have hstep : 0 < backoffStep attempt baseDelay := by
    simp only [backoffStep, Nat.pos_iff_ne_zero.mp hattempt, if_false]
    positivity
  have hm := Int.tdiv_eq_ediv hstep.le (show (0 : Int) ≤ 2 by norm_num)
  rcases jitterValue with _ | v
  · show 2 * backoffStep attempt baseDelay < _
    omega
  · simp only [calculateBackoffDelay]
    split_ifs with hpos
    · have := tmod_bounds (toInt64 v.toNat) hpos
      omega
    · omega

theorem stepTotal_mono {baseDelay : Int} (hbase : 0 ≤ baseDelay) {n : Nat} :
    ∀ {n'}, n ≤ n' → stepTotal baseDelay n ≤ stepTotal baseDelay n'
  | 0, h => by rw [Nat.le_zero.mp h]
  | n' + 1, h => by
    rcases Nat.lt_or_eq_of_le h with h | rfl
    · have := stepTotal_mono hbase (Nat.lt_succ_iff.mp h)
      have : 0 ≤ backoffStep (n' + 1) baseDelay := by
        simp only [backoffStep, Nat.succ_ne_zero, if_false]
        positivity
      simp only [stepTotal]
      omega
    · exact le_refl _

/-- The steps grow with the base delay. -/
theorem stepTotal_le_of_le {baseDelay baseDelay' : Int} (hbase : 0 ≤ baseDelay)
    (h : baseDelay ≤ baseDelay') : ∀ n, stepTotal baseDelay n ≤ stepTotal baseDelay' n
  | 0 => le_refl _
  | n + 1 => by
    have := stepTotal_le_of_le hbase h n
    have : backoffStep (n + 1) baseDelay ≤ backoffStep (n + 1) baseDelay' := by
      simp only [backoffStep, Nat.succ_ne_zero, if_false]
      exact mul_le_mul_of_nonneg_right h (by positivity)
    simp only [stepTotal]
    omega

/-- Over attempts `1..n`, twice the back-offs and `n` stay within three times the steps. -/
theorem sum_backoffs_le {baseDelay : Int} (hbase : 0 < baseDelay) (jitter : Nat → Option UInt64) :
    ∀ n, 2 * (backoffs baseDelay jitter n).sum + n ≤ 3 * stepTotal baseDelay n
  | 0 => by simp [backoffs, stepTotal]
  | n + 1 => by
    have := sum_backoffs_le hbase jitter n
    have := two_mul_calculateBackoffDelay_lt (by omega : 0 < n + 1) hbase (jitter (n + 1))
    simp only [backoffs, stepTotal, List.sum_append, List.sum_singleton]
    push_cast
    omega

/-- The bound for one setting of the counters: `maxRetries` attempts after the first, from a
base delay whose steps add up to at most two thirds of `bound`. -/
theorem sum_backoffs_lt_of {baseDelay bound : Int} {maxRetries n : Nat} (hbase : 0 < baseDelay)
    (hbound : 0 < bound) (hsteps : 3 * stepTotal baseDelay maxRetries ≤ 2 * bound)
    (hn : n ≤ maxRetries) (jitter : Nat → Option UInt64) :
    (backoffs baseDelay jitter n).sum < bound := by
  have h₁ := sum_backoffs_le hbase jitter n
  have h₂ := stepTotal_mono hbase.le hn
  rcases Nat.eq_zero_or_pos n with rfl | hpos
  · simpa [backoffs] using hbound
  · omega

/-- The back-offs of attempts `1..n`, `n ≤ 8`, from a base delay of at most 200 ms add up to less
than 23.7 s. -/
theorem sum_backoffs_lt_of_le {baseDelay : Int}
    (hbase : 0 < baseDelay ∧ baseDelay ≤ 200 * Duration.millisecond) {n : Nat} (hn : n ≤ 8)
    (jitter : Nat → Option UInt64) :
    (backoffs baseDelay jitter n).sum < 23700 * Duration.millisecond := by
  refine sum_backoffs_lt_of hbase.1 (by decide) ?_ hn jitter
  calc 3 * stepTotal baseDelay 8 ≤ 3 * stepTotal (200 * Duration.millisecond) 8 := by
        have := stepTotal_le_of_le hbase.1.le hbase.2 8
        omega
    _ = 2 * (23700 * Duration.millisecond) := by decide

/-- **One `Save` backs off for less than 23.7 s in all.** Whatever the counters each adaptive
function reads and the random words, the back-offs before the attempts `1..n` a `Save` can make
(`save_cancel_congr`: `n ≤ calculateAdaptiveRetries`) add up to less than 23.7 s: eight steps of
200 ms, doubled up to 16 times, are 15.8 s, and each back-off is less than one and a half
steps. -/
theorem save_backoff_total_lt (c₁ c₂ : Counters) (jitter : Nat → Option UInt64) {n : Nat}
    (hn : n ≤ calculateAdaptiveRetries c₁) :
    (backoffs (calculateAdaptiveDelay c₂) jitter n).sum < 23700 * Duration.millisecond :=
  sum_backoffs_lt_of_le (calculateAdaptiveDelay_bounds c₂) (hn.trans (calculateAdaptiveRetries_le c₁))
    jitter

/-- The retry count read under high contention (one deadlock per success) is 8; the base delay
read after nineteen more successes is 50 ms. With any words, the back-offs add up to less than
23.7 s. -/
theorem save_backoff_total_lt_contended :
    8 ≤ calculateAdaptiveRetries ⟨1, 1⟩ ∧
      (backoffs (calculateAdaptiveDelay ⟨1, 20⟩) (fun _ => some (UInt64.ofNat (2 ^ 63 - 1))) 8).sum <
        23700 * Duration.millisecond :=
  ⟨by decide, save_backoff_total_lt ⟨1, 1⟩ ⟨1, 20⟩ _ (by decide)⟩

/-! ## A deadline and the back-offs -/

/-- The context of a `Save` whose deadline is `deadline` after the call began, when the statements
of attempt `i` take `work i` and the loop sleeps the back-offs of the random words `jitter`: before
attempt `a`, the `select` returns `ctx.Err()` when the deadline comes no later than the end of the
sleep (at the same instant, either case may be taken). -/
def deadlineCancel (deadline : Int) (work : Nat → Int) (baseDelay : Int)
    (jitter : Nat → Option UInt64) (a : Nat) : Option String :=
  if deadline ≤ ((List.range a).map work).sum + (backoffs baseDelay jitter a).sum then
    some "context deadline exceeded"
  else none

/-- **A deadline 23.7 s beyond the statements' time never ends a `Save` in a back-off.** For every
reading of the counters by each adaptive function, every random word and every duration of the
attempts' statements: when the deadline leaves 23.7 s beyond the time all the attempts' statements
take, `Save` with that context does what `Save` with a context that is never done does. -/
theorem save_deadline_after_backoffs (lower : Char → Char) (c₁ c₂ : Counters)
    (jitter : Nat → Option UInt64) {work : Nat → Int} (hwork : ∀ i, 0 ≤ work i) {deadline : Int}
    (hdeadline : ((List.range (calculateAdaptiveRetries c₁)).map work).sum +
      23700 * Duration.millisecond ≤ deadline) (record : Record) (c : Conn) :
    save lower (calculateAdaptiveRetries c₁)
        (deadlineCancel deadline work (calculateAdaptiveDelay c₂) jitter) record c =
      save lower (calculateAdaptiveRetries c₁) (fun _ => none) record c := by
  refine save_cancel_congr lower _ (fun a _ ha => ?_) record c
  have hw : ((List.range a).map work).sum ≤
      ((List.range (calculateAdaptiveRetries c₁)).map work).sum :=
    ((List.range_sublist.mpr ha).map work).sum_le_sum fun x hx => by
      obtain ⟨i, -, rfl⟩ := List.mem_map.mp hx
      exact hwork i
  have hb := sum_backoffs_lt_of_le (calculateAdaptiveDelay_bounds c₂)
    (ha.trans (calculateAdaptiveRetries_le c₁)) jitter
  rw [deadlineCancel, if_neg (by omega)]

/-- Eight retries after 200 ms steps, each attempt's statements taking 1 s, and a deadline of
32.7 s. -/
theorem save_deadline_after_backoffs_contended :
    (∀ _ : Nat, (0 : Int) ≤ 1000 * Duration.millisecond) ∧
      ((List.range (calculateAdaptiveRetries ⟨1, 1⟩)).map fun _ => 1000 * Duration.millisecond).sum +
        23700 * Duration.millisecond ≤ 32700 * Duration.millisecond ∧
      save Char.toLower (calculateAdaptiveRetries ⟨1, 1⟩)
          (deadlineCancel (32700 * Duration.millisecond) (fun _ => 1000 * Duration.millisecond)
            (calculateAdaptiveDelay ⟨1, 1⟩) (fun _ => none)) ⟨"request", none, "r", [1], []⟩
          ⟨empty, List.replicate 8 (some "Error 1213: Deadlock found")⟩ =
        save Char.toLower (calculateAdaptiveRetries ⟨1, 1⟩) (fun _ => none)
          ⟨"request", none, "r", [1], []⟩
          ⟨empty, List.replicate 8 (some "Error 1213: Deadlock found")⟩ :=
  ⟨fun _ => by decide, by decide, save_deadline_after_backoffs Char.toLower _ _ _ (fun _ => by decide)
    (by decide) _ _⟩

end Tx

end Gorm

end Recorder
