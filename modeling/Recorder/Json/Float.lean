import Mathlib.Data.Int.Log
import Mathlib.Data.Rat.Floor
import Mathlib.Data.Nat.Digits
import Mathlib.Tactic.FieldSimp

/-!
# Numbers: `float64`, `strconv.ParseFloat` and the shortest formatting

`json.Unmarshal` into `any` turns a number literal into a `float64` with
`strconv.ParseFloat(s, 64)`, which rounds the literal's value to the nearest float64 (ties to
even) and fails with `ErrRange` when that is infinite; `json.Marshal` writes a float64 with the
fewest digits that read back as the same float64 (`strconv.AppendFloat(b, f, fmt, -1, 64)`),
laid out as `%f`, or as `%e` below `1e-6` and from `1e21` on.

- `Decimal`: `±mantissa × 10^exponent`, the value of a literal;
- `Float64`: a finite float64, `±mantissa × 2^exponent` in binary64's normal form, as a
  structure whose fields carry that form, so that no other value can be built;
- `parseFloat`: `ParseFloat`, `none` for the range error;
- `shortest`: the digits `FormatFloat` chooses with precision `-1`;
- `NumberText`: a number literal part by part, the layouts `layoutF`/`layoutE` of `%f`/`%e`,
  `jsonNumber` (the encoder's layout) and `sprintNumber` (`fmt.Sprint`'s).

**`parseFloat_jsonNumber`**: what the encoder writes for `x` reads back as `x`.
-/

namespace Recorder

namespace Json

/-- A decimal `±mantissa × 10^exponent`: the value of a JSON number literal. -/
structure Decimal where
  neg : Bool
  mantissa : Nat
  exponent : Int
deriving DecidableEq, Repr

/-- The absolute value of a decimal. -/
def Decimal.magnitude (d : Decimal) : ℚ :=
  d.mantissa * 10 ^ d.exponent

/-- A finite `float64`: `±mantissa × 2^exponent` with a 53-bit mantissa whose top bit is set, or
with the least exponent (zero and the subnormals). `neg` is the sign bit, so `-0` is a value of
its own. -/
structure Float64 where
  neg : Bool
  mantissa : Nat
  exponent : Int
  mantissa_lt : mantissa < 2 ^ 53
  normal : 2 ^ 52 ≤ mantissa ∨ exponent = -1074
  exponent_le : exponent ≤ 971
  exponent_ge : -1074 ≤ exponent
deriving DecidableEq

namespace Float64

/-- The absolute value of a float64. -/
def magnitude (x : Float64) : ℚ :=
  x.mantissa * 2 ^ x.exponent

/-- `±0`. -/
def zero (neg : Bool) : Float64 :=
  ⟨neg, 0, -1074, by norm_num, .inr rfl, by norm_num, by norm_num⟩

/-- The float64 with these fields, when they are in normal form. -/
def ofFields? (neg : Bool) (m : Nat) (e : Int) : Option Float64 :=
  if h : m < 2 ^ 53 ∧ (2 ^ 52 ≤ m ∨ e = -1074) ∧ e ≤ 971 ∧ -1074 ≤ e then
    some ⟨neg, m, e, h.1, h.2.1, h.2.2.1, h.2.2.2⟩
  else none

/-- The exact decimal expansion: `m × 2^-k` is `m × 5^k × 10^-k`. -/
def toDecimal (x : Float64) : Decimal :=
  match x.exponent with
  | .ofNat e => ⟨x.neg, x.mantissa * 2 ^ e, 0⟩
  | .negSucc k => ⟨x.neg, x.mantissa * 5 ^ (k + 1), .negSucc k⟩

end Float64

/-! ## `strconv.ParseFloat` -/

/-- Round to the nearest integer, ties to even. -/
def roundHalfEven (q : ℚ) : ℤ :=
  let f := ⌊q⌋
  if q - f < 1 / 2 then f else if 1 / 2 < q - f then f + 1 else if f % 2 = 0 then f else f + 1

/-- The exponent of the last mantissa bit of the float64s near a magnitude `q > 0`: 52 bits below
its leading bit, and never below the subnormals' `-1074`. -/
def ulpExponent (q : ℚ) : ℤ :=
  max (Int.log 2 q - 52) (-1074)

/-- The float64 nearest a magnitude `q > 0`, ties to even; a mantissa that rounds up to `2^53`
is `2^52` one exponent higher. -/
def roundFloat (neg : Bool) (q : ℚ) : Option Float64 :=
  let e := ulpExponent q
  let m := (roundHalfEven (q / 2 ^ e)).toNat
  if m = 2 ^ 53 then Float64.ofFields? neg (2 ^ 52) (e + 1) else Float64.ofFields? neg m e

/-- The midpoint between the largest float64, `(2^53 - 1) × 2^971`, and `2^1024`: from it on,
values round to infinity. -/
def overflowBound : Nat :=
  2 ^ 1024 - 2 ^ 970

/-- The literals `ParseFloat` rejects with `ErrRange`, decided on naturals. -/
def overflows (d : Decimal) : Bool :=
  match d.exponent with
  | .ofNat e => overflowBound ≤ d.mantissa * 10 ^ e
  | .negSucc e => overflowBound * 10 ^ (e + 1) ≤ d.mantissa

/-- `strconv.ParseFloat(s, 64)` on a literal of value `d`: the nearest float64, or `none` for the
range error. Values below the least subnormal round to zero without an error. -/
def parseFloat (d : Decimal) : Option Float64 :=
  if overflows d then none
  else if d.mantissa = 0 then some (Float64.zero d.neg)
  else roundFloat d.neg d.magnitude

theorem overflows_iff (d : Decimal) :
    overflows d = true ↔ (overflowBound : ℚ) ≤ d.magnitude := by
  obtain ⟨neg, m, e⟩ := d
  cases e with
  | ofNat e =>
    simp only [overflows, Decimal.magnitude, Int.ofNat_eq_coe, zpow_natCast, decide_eq_true_eq]
    exact_mod_cast Iff.rfl
  | negSucc e =>
    simp only [overflows, Decimal.magnitude, zpow_negSucc, decide_eq_true_eq]
    rw [← div_eq_mul_inv, le_div_iff₀ (by positivity)]
    exact_mod_cast Iff.rfl

theorem magnitude_eq_zero_iff (d : Decimal) : d.magnitude = 0 ↔ d.mantissa = 0 := by
  simp [Decimal.magnitude, zpow_ne_zero _ (show (10 : ℚ) ≠ 0 by norm_num)]

/-- `ParseFloat` depends on the literal's sign and absolute value only. -/
theorem parseFloat_eq (d : Decimal) :
    parseFloat d = if (overflowBound : ℚ) ≤ d.magnitude then none
      else if d.magnitude = 0 then some (Float64.zero d.neg) else roundFloat d.neg d.magnitude := by
  simp only [parseFloat, magnitude_eq_zero_iff, ← overflows_iff]

theorem parseFloat_congr {d d' : Decimal} (hn : d.neg = d'.neg)
    (hm : d.magnitude = d'.magnitude) : parseFloat d = parseFloat d' := by
  rw [parseFloat_eq, parseFloat_eq, hn, hm]

/-! ## Every float64 reads back from its exact expansion -/

theorem two_zpow_pos (e : ℤ) : (0 : ℚ) < 2 ^ e :=
  zpow_pos (by norm_num) e

theorem two_zpow_add (e : ℤ) (n : ℕ) : (2 : ℚ) ^ (e + n) = 2 ^ n * 2 ^ e := by
  rw [zpow_add₀ two_ne_zero, zpow_natCast, mul_comm]

namespace Float64

variable (x : Float64)

@[simp] theorem neg_toDecimal : x.toDecimal.neg = x.neg := by
  unfold toDecimal
  split <;> rfl

theorem magnitude_toDecimal : x.toDecimal.magnitude = x.magnitude := by
  obtain ⟨neg, m, e, -, -, -, -⟩ := x
  cases e with
  | ofNat e => simp [toDecimal, Decimal.magnitude, magnitude]
  | negSucc k =>
    simp only [toDecimal, Decimal.magnitude, magnitude, zpow_negSucc, Nat.cast_mul, Nat.cast_pow,
      Nat.cast_ofNat]
    -- `10^(k+1) = 5^(k+1) * 2^(k+1)`, and the fives cancel
    have h5 : (5 : ℚ) ^ (k + 1) ≠ 0 := pow_ne_zero _ (by norm_num)
    rw [show (10 : ℚ) = 5 * 2 by norm_num, mul_pow, mul_inv, ← mul_assoc, mul_assoc (m : ℚ),
      mul_inv_cancel₀ h5, mul_one]

theorem magnitude_lt_overflowBound : x.magnitude < overflowBound := by
  have hm : (x.mantissa : ℚ) + 1 ≤ 2 ^ 53 := by exact_mod_cast x.mantissa_lt
  have he : (2 : ℚ) ^ x.exponent ≤ 2 ^ (971 : ℤ) := zpow_le_zpow_right₀ (by norm_num) x.exponent_le
  calc x.magnitude ≤ (2 ^ 53 - 1) * 2 ^ (971 : ℤ) :=
        mul_le_mul (by linarith) he (two_zpow_pos _).le (by norm_num)
    _ < overflowBound := by norm_num [overflowBound]

/-- A float64 with zero mantissa is `±0`. -/
theorem eq_zero_of_mantissa (h : x.mantissa = 0) : x = zero x.neg := by
  obtain ⟨neg, m, e, h1, h2, h3, h4⟩ := x
  simp only at h
  subst h
  have he : e = -1074 := h2.resolve_left (by norm_num)
  subst he
  rfl

/-- The rounding exponent of a nonzero float64 is its own exponent. -/
theorem ulpExponent_magnitude (h : x.mantissa ≠ 0) : ulpExponent x.magnitude = x.exponent := by
  have hpos : (0 : ℚ) < x.magnitude :=
    mul_pos (by exact_mod_cast Nat.pos_of_ne_zero h) (two_zpow_pos _)
  have hlt : x.magnitude < 2 ^ (x.exponent + (53 : ℕ)) := by
    rw [two_zpow_add]
    exact mul_lt_mul_of_pos_right (by exact_mod_cast x.mantissa_lt) (two_zpow_pos _)
  have hlog := (Int.lt_zpow_iff_log_lt (b := 2) (by norm_num) hpos).mp (by exact_mod_cast hlt)
  have hge := x.exponent_ge
  unfold ulpExponent
  by_cases hn : 2 ^ 52 ≤ x.mantissa
  · have hle : (2 : ℚ) ^ (x.exponent + (52 : ℕ)) ≤ x.magnitude := by
      rw [two_zpow_add]
      exact mul_le_mul_of_nonneg_right (by exact_mod_cast hn) (two_zpow_pos _).le
    have := (Int.zpow_le_iff_le_log (b := 2) (by norm_num) hpos).mp (by exact_mod_cast hle)
    push_cast at hlog this
    omega
  · have he : x.exponent = -1074 := x.normal.resolve_left hn
    have hlt' : x.magnitude < 2 ^ (x.exponent + (52 : ℕ)) := by
      rw [two_zpow_add]
      exact mul_lt_mul_of_pos_right (by exact_mod_cast not_le.mp hn) (two_zpow_pos _)
    have := (Int.lt_zpow_iff_log_lt (b := 2) (by norm_num) hpos).mp (by exact_mod_cast hlt')
    push_cast at this
    omega

theorem roundFloat_magnitude (h : x.mantissa ≠ 0) : roundFloat x.neg x.magnitude = some x := by
  have hq : x.magnitude / 2 ^ x.exponent = x.mantissa := by
    rw [magnitude, mul_div_assoc, div_self (two_zpow_pos _).ne', mul_one]
  have hr : (roundHalfEven (x.mantissa : ℚ)).toNat = x.mantissa := by
    unfold roundHalfEven
    rw [Int.floor_natCast]
    norm_num
  simp only [roundFloat, ulpExponent_magnitude x h, hq, hr, ne_of_lt x.mantissa_lt, if_false,
    ofFields?, dif_pos (And.intro x.mantissa_lt (And.intro x.normal
      (And.intro x.exponent_le x.exponent_ge)))]

/-- **Every float64 reads back from its exact decimal expansion.** -/
theorem parseFloat_toDecimal : parseFloat x.toDecimal = some x := by
  rw [parseFloat_eq, magnitude_toDecimal, neg_toDecimal,
    if_neg (not_le.mpr x.magnitude_lt_overflowBound)]
  by_cases h : x.mantissa = 0
  · have hz : x.magnitude = 0 := by simp [magnitude, h]
    rw [if_pos hz, ← eq_zero_of_mantissa x h]
  · have hz : x.magnitude ≠ 0 :=
      (mul_pos (by exact_mod_cast Nat.pos_of_ne_zero h) (two_zpow_pos _)).ne'
    rw [if_neg hz]
    exact roundFloat_magnitude x h

end Float64

/-! ## `FormatFloat` with precision `-1` -/

/-- Division rounded to the nearest, ties to even. -/
def divRound (a b : Nat) : Nat :=
  let q := a / b
  let r := a % b
  if 2 * r < b then q else if b < 2 * r then q + 1 else if q % 2 = 0 then q else q + 1

/-- The decimals of `n` significant digits next to `d`: `d` rounded to them, then its two
neighbours. -/
def candidates (d : Decimal) (n : Nat) : List Decimal :=
  let k := (Nat.digits 10 d.mantissa).length - n
  let c := divRound d.mantissa (10 ^ k)
  [⟨d.neg, c, d.exponent + k⟩, ⟨d.neg, c - 1, d.exponent + k⟩, ⟨d.neg, c + 1, d.exponent + k⟩]

/-- The digits `FormatFloat(x, _, -1, 64)` writes: the fewest significant digits that
`ParseFloat` reads back as `x`, and among those the nearest to `x` (when the correctly rounded
candidate misses the rounding interval, only one neighbour can lie in it). Seventeen digits
always suffice; the exact expansion stands in otherwise. -/
def shortest (x : Float64) : Decimal :=
  (((List.range 17).flatMap fun i => candidates x.toDecimal (i + 1)).find?
    fun d => parseFloat d = some x).getD x.toDecimal

/-- **The shortest digits read back as the float64.** -/
theorem parseFloat_shortest (x : Float64) : parseFloat (shortest x) = some x := by
  unfold shortest
  cases h : List.find? _ _ with
  | none => exact x.parseFloat_toDecimal
  | some d => simpa using List.find?_some h

/-! ## Number literals -/

/-- The number a digit string spells, most significant digit first. -/
def ofDigitsBE (ds : List Nat) : Nat :=
  Nat.ofDigits 10 ds.reverse

/-- A digit as a character. -/
def digitChar (n : Nat) : Char :=
  Char.ofNat (48 + n)

/-- A JSON number literal part by part: `-? int (. frac)? (e|E (+|-)? exp)?`, digits as numbers,
the exponent with its letter and sign as written. -/
structure NumberText where
  neg : Bool
  int : List Nat
  frac : List Nat
  exp : Option (Char × Option Char × List Nat)
deriving DecidableEq, Repr

namespace NumberText

/-- The fraction part of a literal: a point and the digits, when there are any. -/
def fracChars (frac : List Nat) : List Char :=
  if frac = [] then [] else '.' :: frac.map digitChar

/-- The exponent part of a literal: its letter, its sign if written, and its digits. -/
def expChars : Option (Char × Option Char × List Nat) → List Char
  | none => []
  | some (mark, sign, ds) => mark :: (sign.map ([·])).getD [] ++ ds.map digitChar

/-- The literal's characters. -/
def render (t : NumberText) : List Char :=
  (if t.neg then ['-'] else []) ++ t.int.map digitChar ++ fracChars t.frac ++ expChars t.exp

/-- The exponent the literal writes. -/
def exponentValue (t : NumberText) : Int :=
  match t.exp with
  | none => 0
  | some (_, sign, ds) => if sign = some '-' then -(ofDigitsBE ds : Int) else ofDigitsBE ds

/-- The literal's value. -/
def decimal (t : NumberText) : Decimal :=
  ⟨t.neg, ofDigitsBE (t.int ++ t.frac), t.exponentValue - t.frac.length⟩

end NumberText

/-! ## The layouts of `strconv` -/

/-- The significant digits of a mantissa, most significant first, without trailing zeros. -/
def sigDigits (m : Nat) : List Nat :=
  ((Nat.digits 10 m).dropWhile (· = 0)).reverse

/-- Where the decimal point of `d` falls, counted from its first digit: `d = 0.d₁d₂… × 10^dp`. -/
def pointPos (d : Decimal) : Int :=
  (Nat.digits 10 d.mantissa).length + d.exponent

/-- `fmtF` with the shortest precision: the digits before the point (padded with zeros, or `0`),
then those after it (led by zeros when the point is before the first digit). -/
def layoutF (neg : Bool) (ds : List Nat) (dp : Int) : NumberText :=
  if 0 < dp then ⟨neg, ds.take dp.toNat ++ List.replicate (dp.toNat - ds.length) 0,
    ds.drop dp.toNat, none⟩
  else ⟨neg, [0], List.replicate dp.natAbs 0 ++ ds, none⟩

/-- `fmtE` with the shortest precision: one digit, the others after the point, and the exponent
`dp - 1` with its sign, padded to `pad` digits. -/
def layoutE (neg : Bool) (ds : List Nat) (dp : Int) (pad : Nat) : NumberText :=
  let expDs := (Nat.digits 10 (dp - 1).natAbs).reverse
  ⟨neg, ds.take 1, ds.drop 1,
    some ('e', some (if dp - 1 < 0 then '-' else '+'), List.replicate (pad - expDs.length) 0 ++ expDs)⟩

/-- `floatEncoder.appendFloat` (encode.go): `%f`, or `%e` when the value is below `1e-6` or from
`1e21` on, "as if by ES6 number to string conversion"; `strconv` pads the exponent to two
digits, and the encoder takes the padding of a negative one away again (`e-07` becomes
`e-7`). On the shortest digits, below `1e-6` means `dp ≤ -6` and from `1e21` on `22 ≤ dp`. -/
def jsonNumber (x : Float64) : NumberText :=
  let d := shortest x
  let ds := sigDigits d.mantissa
  let dp := pointPos d
  if d.mantissa = 0 then ⟨d.neg, [0], [], none⟩
  else if dp ≤ -6 ∨ 22 ≤ dp then layoutE d.neg ds dp (if dp - 1 < 0 then 1 else 2)
  else layoutF d.neg ds dp

/-- `fmt.Sprint` of a float64 (`%v`, which is `strconv`'s `%g` with the shortest digits): `%e`
when the exponent `dp - 1` is below `-4` or at least 6. -/
def sprintNumber (x : Float64) : NumberText :=
  let d := shortest x
  let ds := sigDigits d.mantissa
  let dp := pointPos d
  if d.mantissa = 0 then ⟨d.neg, [0], [], none⟩
  else if dp - 1 < -4 ∨ 6 ≤ dp - 1 then layoutE d.neg ds dp 2
  else layoutF d.neg ds dp

/-! ## The layouts keep the value -/

@[simp] theorem neg_layoutF (neg : Bool) (ds : List Nat) (dp : Int) :
    (layoutF neg ds dp).neg = neg := by
  unfold layoutF
  split <;> rfl

theorem ofDigitsBE_append (a b : List Nat) :
    ofDigitsBE (a ++ b) = ofDigitsBE a * 10 ^ b.length + ofDigitsBE b := by
  simp only [ofDigitsBE, List.reverse_append, Nat.ofDigits_append, List.length_reverse]
  ring

@[simp] theorem ofDigitsBE_replicate_zero (n : Nat) : ofDigitsBE (List.replicate n 0) = 0 := by
  induction n with
  | zero => rfl
  | succ n ih =>
    rw [List.replicate_succ', ofDigitsBE_append, ih]
    rfl

theorem ofDigitsBE_zeros_append (n : Nat) (ds : List Nat) :
    ofDigitsBE (List.replicate n 0 ++ ds) = ofDigitsBE ds := by
  simp [ofDigitsBE_append]

@[simp] theorem ofDigitsBE_digits (n : Nat) : ofDigitsBE (Nat.digits 10 n).reverse = n := by
  simp [ofDigitsBE, Nat.ofDigits_digits]

theorem magnitude_mk (neg : Bool) (m : Nat) (e : Int) :
    (⟨neg, m, e⟩ : Decimal).magnitude = m * 10 ^ e := rfl

/-- A decimal is its significant digits shifted by the point. -/
theorem magnitude_eq_sigDigits (d : Decimal) :
    d.magnitude = ofDigitsBE (sigDigits d.mantissa) *
      10 ^ (pointPos d - (sigDigits d.mantissa).length) := by
  set L := Nat.digits 10 d.mantissa
  set D := L.dropWhile (· = 0)
  set z := (L.takeWhile (· = 0)).length
  have hL : L = List.replicate z 0 ++ D := by
    conv_lhs => rw [← List.takeWhile_append_dropWhile (p := (· = 0)) (l := L)]
    congr 1
    exact List.eq_replicate_iff.mpr ⟨rfl, fun b hb => by simpa using List.mem_takeWhile_imp hb⟩
  have hm : d.mantissa = ofDigitsBE D.reverse * 10 ^ z := by
    have h := Nat.ofDigits_digits 10 d.mantissa
    rw [← h, show Nat.digits 10 d.mantissa = L from rfl, hL, ← List.reverse_reverse
      (List.replicate z 0 ++ D), ← ofDigitsBE, List.reverse_append, List.reverse_replicate,
      ofDigitsBE_append, ofDigitsBE_replicate_zero, List.length_replicate, add_zero]
  have hlen : L.length = z + D.length := by
    rw [hL, List.length_append, List.length_replicate]
  show (d.mantissa : ℚ) * 10 ^ d.exponent =
    (ofDigitsBE D.reverse : ℚ) * 10 ^ ((L.length : ℤ) + d.exponent - D.reverse.length)
  rw [List.length_reverse, hlen, hm]
  push_cast
  rw [mul_assoc, ← zpow_natCast, ← zpow_add₀ (by norm_num)]
  congr 2
  ring

theorem magnitude_layoutF (neg : Bool) (ds : List Nat) (dp : Int) :
    (layoutF neg ds dp).decimal.magnitude = ofDigitsBE ds * 10 ^ (dp - ds.length) := by
  unfold layoutF
  split_ifs with hdp
  · obtain ⟨n, rfl⟩ : ∃ n : Nat, dp = n := ⟨dp.toNat, by omega⟩
    simp only [Int.toNat_ofNat, NumberText.decimal, NumberText.exponentValue, magnitude_mk]
    by_cases hn : n ≤ ds.length
    · rw [Nat.sub_eq_zero_of_le hn, List.replicate_zero, List.append_nil, List.take_append_drop,
        List.length_drop]
      push_cast [hn]
      ring_nf
    · rw [List.take_of_length_le (by omega), List.drop_of_length_le (by omega), List.append_nil,
        ofDigitsBE_append, ofDigitsBE_replicate_zero, List.length_replicate]
      have : (n : ℤ) - ds.length = ((n - ds.length : Nat) : ℤ) := by omega
      rw [this, zpow_natCast]
      simp
  · simp only [NumberText.decimal, NumberText.exponentValue, magnitude_mk]
    rw [← List.append_assoc, List.singleton_append, ← List.replicate_succ,
      ofDigitsBE_zeros_append]
    congr 2
    simp only [List.length_append, List.length_replicate]
    omega

theorem magnitude_layoutE (neg : Bool) {ds : List Nat} (hds : ds ≠ []) (dp : Int) (pad : Nat) :
    (layoutE neg ds dp pad).decimal.magnitude = ofDigitsBE ds * 10 ^ (dp - ds.length) := by
  have hlen : 1 ≤ ds.length := List.length_pos.mpr hds
  simp only [layoutE, NumberText.decimal, NumberText.exponentValue, magnitude_mk,
    List.take_append_drop, ofDigitsBE_zeros_append, ofDigitsBE_digits, List.length_drop]
  congr 2
  by_cases h : dp - 1 < 0
  · simp only [h, if_true]
    omega
  · simp only [h, if_false, Option.some.injEq]
    rw [if_neg (by decide)]
    omega

/-- A nonzero mantissa has a significant digit. -/
theorem sigDigits_ne_nil {m : Nat} (h : m ≠ 0) : sigDigits m ≠ [] := by
  have hL : Nat.digits 10 m ≠ [] := Nat.digits_ne_nil_iff_ne_zero.mpr h
  simp only [sigDigits, ne_eq, List.reverse_eq_nil_iff, List.dropWhile_eq_nil_iff]
  intro hall
  exact Nat.getLast_digit_ne_zero 10 h (by simpa using hall _ (List.getLast_mem hL))

/-- What `jsonNumber` and `sprintNumber` lay out: the shortest digits' sign and value. -/
theorem jsonNumber_decimal (x : Float64) :
    (jsonNumber x).decimal.neg = (shortest x).neg ∧
      (jsonNumber x).decimal.magnitude = (shortest x).magnitude := by
  have hsig := magnitude_eq_sigDigits (shortest x)
  dsimp only [jsonNumber]
  by_cases h0 : (shortest x).mantissa = 0
  · rw [if_pos h0]
    exact ⟨rfl, by simp [NumberText.decimal, Decimal.magnitude, h0, ofDigitsBE]⟩
  · rw [if_neg h0]
    by_cases he : pointPos (shortest x) ≤ -6 ∨ 22 ≤ pointPos (shortest x)
    · rw [if_pos he]
      exact ⟨rfl, by rw [magnitude_layoutE _ (sigDigits_ne_nil h0), hsig]⟩
    · rw [if_neg he]
      exact ⟨neg_layoutF _ _ _, by rw [magnitude_layoutF, hsig]⟩

/-- **What the encoder writes for a float64 reads back as that float64.** -/
theorem parseFloat_jsonNumber (x : Float64) : parseFloat (jsonNumber x).decimal = some x := by
  obtain ⟨hn, hm⟩ := jsonNumber_decimal x
  rw [parseFloat_congr hn hm, parseFloat_shortest]

/-! ## What the layouts write is a literal -/

/-- An exponent part as `json.Marshal` writes one: `e`, a sign and at least one digit. -/
def NumberText.ExpWellFormed (exp : Option (Char × Option Char × List Nat)) : Prop :=
  ∀ e ∈ exp, e.1 = 'e' ∧ (e.2.1 = some '+' ∨ e.2.1 = some '-') ∧ e.2.2 ≠ [] ∧ ∀ d ∈ e.2.2, d < 10

/-- A number literal as `json.Marshal` writes one: digits below ten, an integer part without a
leading zero, and an exponent, if any, written `e` with its sign and at least one digit. -/
structure NumberText.WellFormed (t : NumberText) : Prop where
  digits_lt : ∀ d ∈ t.int ++ t.frac, d < 10
  int_ne_nil : t.int ≠ []
  int_head : t.int.head? = some 0 → t.int = [0]
  exp_ok : NumberText.ExpWellFormed t.exp

theorem sigDigits_lt (m : Nat) : ∀ d ∈ sigDigits m, d < 10 := fun d hd =>
  Nat.digits_lt_base (by norm_num)
    ((List.dropWhile_suffix _).subset (List.mem_reverse.mp hd))

/-- The first significant digit is not zero. -/
theorem sigDigits_head {m : Nat} (h : m ≠ 0) : (sigDigits m).head? ≠ some 0 := by
  set L := Nat.digits 10 m
  have hL : L ≠ [] := Nat.digits_ne_nil_iff_ne_zero.mpr h
  have hD : L.dropWhile (· = 0) ≠ [] := by
    simpa [sigDigits] using sigDigits_ne_nil h
  have hsplit : L = L.takeWhile (· = 0) ++ L.dropWhile (· = 0) :=
    (List.takeWhile_append_dropWhile _ _).symm
  have hlast : (L.dropWhile (· = 0)).getLast? = L.getLast? := by
    conv_rhs => rw [hsplit]
    rw [List.getLast?_append_of_ne_nil _ hD]
  simp only [sigDigits, List.head?_reverse]
  rw [show Nat.digits 10 m = L from rfl, hlast, List.getLast?_eq_getLast L hL]
  exact fun he => Nat.getLast_digit_ne_zero 10 h (Option.some.inj he)

theorem wellFormed_layoutE (neg : Bool) {ds : List Nat} (hds : ds ≠ []) (hlt : ∀ d ∈ ds, d < 10)
    (hhead : ds.head? ≠ some 0) (dp : Int) {pad : Nat} (hpad : 0 < pad) :
    (layoutE neg ds dp pad).WellFormed := by
  obtain ⟨d, ds', rfl⟩ := List.exists_cons_of_ne_nil hds
  refine ⟨by simpa [layoutE] using hlt, by simp [layoutE],
    fun h => absurd (by simpa [layoutE] using h) hhead,
    ?_⟩
  simp only [NumberText.ExpWellFormed, layoutE, Option.mem_def, Option.some.injEq]
  rintro e rfl
  refine ⟨rfl, by split_ifs <;> simp, ?_, ?_⟩
  · by_cases h0 : Nat.digits 10 (dp - 1).natAbs = []
    · simp [h0]
      omega
    · simp [h0]
  · intro d hd
    simp only [List.mem_append, List.mem_replicate, List.mem_reverse] at hd
    rcases hd with ⟨-, rfl⟩ | hd
    · norm_num
    · exact Nat.digits_lt_base (by norm_num) hd

theorem wellFormed_layoutF (neg : Bool) {ds : List Nat} (hds : ds ≠ []) (hlt : ∀ d ∈ ds, d < 10)
    (hhead : ds.head? ≠ some 0) (dp : Int) : (layoutF neg ds dp).WellFormed := by
  unfold layoutF
  split_ifs with hdp
  · obtain ⟨d, ds', rfl⟩ := List.exists_cons_of_ne_nil hds
    obtain ⟨n, hn⟩ : ∃ n, dp.toNat = n + 1 := ⟨dp.toNat - 1, by omega⟩
    refine ⟨?_, by simp [hn], fun h => absurd (by simpa [hn] using h) hhead,
      by simp [NumberText.ExpWellFormed]⟩
    intro x hx
    simp only [hn, List.take_succ_cons, List.drop_succ_cons, List.cons_append, List.mem_cons,
      List.mem_append, List.mem_replicate] at hx
    rcases hx with rfl | (hx | ⟨-, rfl⟩) | hx
    · exact hlt _ (List.mem_cons_self _ _)
    · exact hlt _ (List.mem_cons_of_mem _ (List.mem_of_mem_take hx))
    · norm_num
    · exact hlt _ (List.mem_cons_of_mem _ (List.mem_of_mem_drop hx))
  · refine ⟨?_, by simp, fun _ => rfl, by simp [NumberText.ExpWellFormed]⟩
    intro x hx
    simp only [List.singleton_append, List.mem_cons, List.mem_append, List.mem_replicate] at hx
    rcases hx with rfl | ⟨-, rfl⟩ | hx
    · norm_num
    · norm_num
    · exact hlt _ hx

/-- **What the encoder writes for a float64 is a number literal.** -/
theorem jsonNumber_wellFormed (x : Float64) : (jsonNumber x).WellFormed := by
  dsimp only [jsonNumber]
  by_cases h0 : (shortest x).mantissa = 0
  · rw [if_pos h0]
    exact ⟨by simp, by simp, fun _ => rfl, by simp [NumberText.ExpWellFormed]⟩
  · rw [if_neg h0]
    split_ifs
    all_goals first
      | exact wellFormed_layoutE _ (sigDigits_ne_nil h0) (sigDigits_lt _) (sigDigits_head h0) _
          (by norm_num)
      | exact wellFormed_layoutF _ (sigDigits_ne_nil h0) (sigDigits_lt _) (sigDigits_head h0) _

/-! ## The leaves of a decoded payload -/

/-- The leaves `json.Unmarshal` makes besides strings and `nil`: `float64` and `bool`. Values of
the other Go types a rule could return (an `int`, a `float32`) are left out. -/
inductive Scalar where
  | number (x : Float64)
  | bool (b : Bool)
deriving DecidableEq

/-- `fmt.Sprint` of a leaf: `%v` of a float64, `true` or `false`. -/
instance : ToString Scalar where
  toString
    | .number x => String.mk (sprintNumber x).render
    | .bool b => toString b

end Json

end Recorder
