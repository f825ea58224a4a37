import Recorder.Scrubber.Rule
import Mathlib.Algebra.Group.Int

/-!
# `MaskString` and `PreserveLengthReplacement`

`MaskString(mask, keepStart, keepEnd)` (scrubber.go) returns a `ScrubFunc` that renders the
field's value with `fmt.Sprint`, keeps its first `keepStart` and last `keepEnd` code points and
masks the ones between; when the two counts cover the whole text, every code point is masked.
The constructor replaces a zero mask by `*` and clamps negative counts to zero, and
`string(mask)` is U+FFFD for a rune that is not a Unicode scalar value.

Go's `int` is 64 bits wide, and the closure adds the two counts in `int`: once the clamped counts
add up to `2^63` or more, `keepStart+keepEnd` wraps to a negative number, the `>=` test fails,
and a slice bound or the count given to `strings.Repeat` is out of range, so the call panics.
The model computes in `Int` and wraps explicitly (`wrapInt`); a panic is `.error` with Go's
message.

`runes[:keepStart]` is checked by Go against the slice's capacity, which the runtime may round
up past its length; the model checks it against the length. A count between the two passes
Go's check and reaches `strings.Repeat` with a negative count, which panics as well, so the
outcome is the same. `strings.Repeat` also panics when its result would be longer than `int`
counts, which the counts here, at most the text's own length, never reach; the model leaves
that check out.

- **`maskString_spec`**: with the clamped counts below `2^63`, the `ScrubFunc` returns, on every
  non-`nil` value, a text of exactly as many code points as `fmt.Sprint` of the value, masked
  as the documentation says;
- **`maskString_panics_of_overflow`**: with the clamped counts at `2^63` or more, it panics on
  every non-empty text.

`PreserveLengthReplacement(replacement)` repeats the replacement's first rune once per code point
of the text (`preserveLengthReplacement_spec`). Its output is a leaf, but not a constant:
**`preserveLengthReplacement_twice_iff`** says exactly when applying it to its own output changes
nothing, so `scrub_idempotent` does not extend to rules that use it.
-/

namespace Recorder

/-- A value of Go's `int`, 64 bits wide. -/
structure GoInt where
  val : Int
  range : -2 ^ 63 ≤ val ∧ val < 2 ^ 63

/-- Go's `int` arithmetic: the exact result wrapped into the 64-bit range. -/
def wrapInt (x : Int) : Int :=
  (x + 2 ^ 63) % 2 ^ 64 - 2 ^ 63

theorem wrapInt_of_range {x : Int} (h1 : -2 ^ 63 ≤ x) (h2 : x < 2 ^ 63) : wrapInt x = x := by
  unfold wrapInt
  omega

/-- `string(r)`: the rune's character, or U+FFFD for a surrogate or a value outside Unicode. -/
def runeChar (r : Int) : Char :=
  if 0 ≤ r ∧ (r < 0xD800 ∨ 0xDFFF < r ∧ r < 0x110000) then Char.ofNat r.toNat else '\uFFFD'

/-- `strings.Repeat(s, count)`. -/
def repeatString (s : String) (count : Int) : Except String String :=
  if count < 0 then .error "strings: negative Repeat count"
  else .ok ⟨(List.replicate count.toNat s.data).flatten⟩

/-- `runes[:k]`. -/
def sliceTo (runes : List Char) (k : Int) : Except String (List Char) :=
  if 0 ≤ k ∧ k ≤ runes.length then .ok (runes.take k.toNat)
  else .error "runtime error: slice bounds out of range"

/-- `runes[k:]`. -/
def sliceFrom (runes : List Char) (k : Int) : Except String (List Char) :=
  if 0 ≤ k ∧ k ≤ runes.length then .ok (runes.drop k.toNat)
  else .error "runtime error: slice bounds out of range"

/-- The closure of `MaskString` on the text `fmt.Sprint` gives, after the constructor's
adjustments: `mask` nonzero, the counts clamped. -/
def maskText (mask keepStart keepEnd : Int) (value : String) : Except String String :=
  let maskStr := (runeChar mask).toString
  if value = "" then .ok value
  else
    let runes := value.toList
    let length : Int := runes.length
    if length = 0 then .ok value
    else if wrapInt (keepStart + keepEnd) ≥ length then repeatString maskStr length
    else do
      let pre ← (if keepStart > 0 then sliceTo runes keepStart else pure [])
      let maskedCount := wrapInt (wrapInt (length - keepStart) - keepEnd)
      let middle ← repeatString maskStr maskedCount
      let post ← (if keepEnd > 0 then sliceFrom runes (wrapInt (length - keepEnd)) else pure [])
      pure (⟨pre⟩ ++ middle ++ ⟨post⟩)

variable {σ : Type} [ToString σ]

/-- The `ScrubFunc` that `MaskString(mask, keepStart, keepEnd)` returns, applied to a field;
`.error` is a Go panic. -/
def maskString (mask : Int) (keepStart keepEnd : GoInt) (ctx : FieldContext σ) :
    Except String (Value σ) :=
  let mask := if mask = 0 then ('*'.toNat : Int) else mask
  let keepStart := if keepStart.val < 0 then 0 else keepStart.val
  let keepEnd := if keepEnd.val < 0 then 0 else keepEnd.val
  match ctx.value with
  | .null => .ok .null
  | v => (maskText mask keepStart keepEnd v.sprint).map .str

/-- The character `MaskString` masks with: `*` for a zero rune, U+FFFD for a rune that is not a
Unicode scalar value, the rune's own character otherwise. -/
def maskChar (mask : Int) : Char :=
  runeChar (if mask = 0 then ('*'.toNat : Int) else mask)

/-! ## Below the overflow -/

theorem repeatString_char (c : Char) (n : Nat) :
    repeatString c.toString n = .ok ⟨List.replicate n c⟩ := by
  rw [repeatString, if_neg (by omega), Int.toNat_ofNat]
  congr 2
  induction n with
  | zero => rfl
  | succ n ih => rw [List.replicate_succ, List.flatten_cons, ih]; rfl

theorem clamp_eq_toNat (k : Int) : (if k < 0 then 0 else k) = (k.toNat : Int) := by
  split <;> omega

/-- The kept prefix, when it fits in the text. -/
theorem keepPrefix_eq {runes : List Char} {s : Nat} (hs : s ≤ runes.length) :
    (if (s : Int) > 0 then sliceTo runes s else pure []) = (.ok (runes.take s) : Except String _) := by
  split
  · rw [sliceTo, if_pos ⟨by omega, by omega⟩, Int.toNat_ofNat]
  · rw [show s = 0 by omega]
    rfl

/-- The masked text, for clamped counts `s` and `e` whose sum does not wrap. -/
theorem maskText_spec (c : Int) (s e : Nat) (hsum : s + e < 2 ^ 63) (value : String)
    (hlen : value.length < 2 ^ 63) :
    ∃ out : List Char, maskText c s e value = .ok ⟨out⟩ ∧ out.length = value.length ∧
      (value.length ≤ s + e → out = List.replicate value.length (runeChar c)) ∧
      (s + e < value.length → out = value.toList.take s ++
        List.replicate (value.length - s - e) (runeChar c) ++ value.toList.drop (value.length - e)) := by
  obtain ⟨cs⟩ := value
  simp only [String.length_mk, String.toList] at hlen ⊢
  by_cases hne : (⟨cs⟩ : String) = ""
  · obtain rfl : cs = [] := congrArg String.data hne
    exact ⟨[], rfl, rfl, fun _ => rfl, fun h => absurd h (by simp)⟩
  have hpos : 0 < cs.length := List.length_pos.mpr fun h => hne (congrArg String.mk h)
  have hwrap : wrapInt ((s : Int) + e) = s + e := wrapInt_of_range (by omega) (by omega)
  unfold maskText
  dsimp only [String.toList]
  rw [if_neg hne, if_neg (by omega), hwrap]
  by_cases hcover : cs.length ≤ s + e
  · rw [if_pos (by omega), repeatString_char]
    exact ⟨_, rfl, List.length_replicate _ _, fun _ => rfl, fun h => absurd h (by omega)⟩
  · rw [if_neg (by omega)]
    have hmid : wrapInt (wrapInt ((cs.length : Int) - s) - e) = ((cs.length - s - e : Nat) : Int) := by
      have h1 : wrapInt ((cs.length : Int) - s) = cs.length - s :=
        wrapInt_of_range (by omega) (by omega)
      rw [h1, wrapInt_of_range (by omega) (by omega)]
      omega
    have hpost : (if (e : Int) > 0 then sliceFrom cs (wrapInt (cs.length - e))
        else pure []) = (.ok (cs.drop (cs.length - e)) : Except String _) := by
      split
      · rw [wrapInt_of_range (by omega) (by omega), sliceFrom, if_pos ⟨by omega, by omega⟩,
          Int.toNat_sub]
      · rw [show e = 0 by omega, Nat.sub_zero, List.drop_length]
        rfl
    rw [keepPrefix_eq (by omega), hmid, repeatString_char, hpost]
    refine ⟨_, rfl, ?_, fun h => absurd h hcover, fun _ => rfl⟩
    simp only [List.length_append, List.length_take, List.length_replicate, List.length_drop]
    omega

/-- On a non-`nil` value, `MaskString`'s closure masks the value's text, with the constructor's
adjustments made. -/
theorem maskString_of_ne_null {ctx : FieldContext σ} (hv : ctx.value ≠ .null) (mask : Int)
    (keepStart keepEnd : GoInt) :
    maskString mask keepStart keepEnd ctx =
      (maskText (if mask = 0 then ('*'.toNat : Int) else mask) keepStart.val.toNat
        keepEnd.val.toNat ctx.value.sprint).map .str := by
  obtain ⟨path, key, v⟩ := ctx
  simp only [maskString, clamp_eq_toNat]


/-- **`MaskString` below the overflow.** For every mask rune, every pair of `int` keep counts
whose clamped sum is below `2^63`, and every non-`nil` value whose `fmt.Sprint` has `n` code
points (`n` is an `int`): the `ScrubFunc` returns, without panicking, a string of exactly `n`
code points. When the clamped counts add up to `n` or more, all of them are the mask character;
otherwise the first `keepStart` and the last `keepEnd` are kept and the `n - keepStart -
keepEnd` between them are the mask character. -/
theorem maskString_spec (mask : Int) (keepStart keepEnd : GoInt)
    (hsum : keepStart.val.toNat + keepEnd.val.toNat < 2 ^ 63) (ctx : FieldContext σ)
    (hv : ctx.value ≠ .null) (hlen : ctx.value.sprint.length < 2 ^ 63) :
    ∃ out : List Char, maskString mask keepStart keepEnd ctx = .ok (.str ⟨out⟩) ∧
      out.length = ctx.value.sprint.length ∧
      (ctx.value.sprint.length ≤ keepStart.val.toNat + keepEnd.val.toNat →
        out = List.replicate ctx.value.sprint.length (maskChar mask)) ∧
      (keepStart.val.toNat + keepEnd.val.toNat < ctx.value.sprint.length →
        out = ctx.value.sprint.toList.take keepStart.val.toNat ++
          List.replicate (ctx.value.sprint.length - keepStart.val.toNat - keepEnd.val.toNat)
            (maskChar mask) ++
          ctx.value.sprint.toList.drop (ctx.value.sprint.length - keepEnd.val.toNat)) := by
  obtain ⟨out, hout, hlength, hcover, hkeep⟩ := maskText_spec _ _ _ hsum _ hlen
  refine ⟨out, ?_, hlength, hcover, hkeep⟩
  rw [maskString_of_ne_null hv, hout]
  rfl

/-- The README's rule `MaskString('*', 0, 4)` on a ten-character token. -/
theorem maskString_spec_token :
    ∃ out : List Char, maskString ('*'.toNat) ⟨0, by omega⟩ ⟨4, by omega⟩
        (⟨["credentials", "token"], "token", .str "1234567890"⟩ : FieldContext Nat) =
          .ok (.str ⟨out⟩) ∧
      out.length = (Value.str "1234567890" : Value Nat).sprint.length ∧
      ((Value.str "1234567890" : Value Nat).sprint.length ≤ (0 : Int).toNat + (4 : Int).toNat →
        out = List.replicate (Value.str "1234567890" : Value Nat).sprint.length (maskChar ('*'.toNat))) ∧
      ((0 : Int).toNat + (4 : Int).toNat < (Value.str "1234567890" : Value Nat).sprint.length →
        out = (Value.str "1234567890" : Value Nat).sprint.toList.take (0 : Int).toNat ++
          List.replicate ((Value.str "1234567890" : Value Nat).sprint.length - (0 : Int).toNat -
            (4 : Int).toNat) (maskChar ('*'.toNat)) ++
          (Value.str "1234567890" : Value Nat).sprint.toList.drop
            ((Value.str "1234567890" : Value Nat).sprint.length - (4 : Int).toNat)) :=
  maskString_spec _ ⟨0, by omega⟩ ⟨4, by omega⟩ (by decide) _ (fun h => by cases h) (by decide)

/-- Near the `int` limit the call panics; a zero mask masks with `*`, a surrogate mask with
U+FFFD. -/
theorem maskString_overflow_and_mask_substitutes :
    maskString (σ := Nat) ('*'.toNat) ⟨2 ^ 63 - 1, by omega⟩ ⟨1, by omega⟩ ⟨[], "token", .str "abc"⟩ =
        .error "runtime error: slice bounds out of range" ∧
      maskString (σ := Nat) 0 ⟨0, by omega⟩ ⟨0, by omega⟩ ⟨[], "token", .str "ab"⟩ =
        .ok (.str "**") ∧
      maskString (σ := Nat) 0xD800 ⟨0, by omega⟩ ⟨0, by omega⟩ ⟨[], "token", .str "ab"⟩ =
        .ok (.str "\uFFFD\uFFFD") :=
  ⟨rfl, rfl, rfl⟩

/-! ## Past the overflow -/

/-- With the clamped counts at `2^63` or more, the closure panics on every non-empty text. -/
theorem maskText_overflow (c : Int) (s e : Nat) (hs : s < 2 ^ 63) (he : e < 2 ^ 63)
    (hsum : 2 ^ 63 ≤ s + e) (value : String) (hne : value ≠ "") (hlen : value.length < 2 ^ 63) :
    ∃ msg, maskText c s e value = .error msg := by
  obtain ⟨cs⟩ := value
  simp only [String.length_mk] at hlen
  have hpos : 0 < cs.length := List.length_pos.mpr fun h => hne (by rw [h])
  have hwrap : wrapInt ((s : Int) + e) = s + e - 2 ^ 64 := by
    unfold wrapInt
    omega
  unfold maskText
  dsimp only [String.toList]
  rw [if_neg hne, if_neg (by omega), hwrap, if_neg (by omega)]
  by_cases hfit : s ≤ cs.length
  · have hmid : wrapInt (wrapInt ((cs.length : Int) - s) - e) = cs.length - s - e := by
      have h1 : wrapInt ((cs.length : Int) - s) = cs.length - s :=
        wrapInt_of_range (by omega) (by omega)
      rw [h1, wrapInt_of_range (by omega) (by omega)]
    rw [keepPrefix_eq hfit, hmid, repeatString, if_pos (by omega)]
    exact ⟨_, rfl⟩
  · rw [if_pos (by omega), sliceTo, if_neg (by omega)]
    exact ⟨_, rfl⟩

/-- **`MaskString` past the overflow.** When the clamped keep counts add up to `2^63` or more,
Go's `keepStart+keepEnd` wraps to a negative number and the call panics on every non-`nil` value
whose text is not empty. -/
theorem maskString_panics_of_overflow (mask : Int) (keepStart keepEnd : GoInt)
    (hsum : 2 ^ 63 ≤ keepStart.val.toNat + keepEnd.val.toNat) (ctx : FieldContext σ)
    (hv : ctx.value ≠ .null) (hne : ctx.value.sprint ≠ "")
    (hlen : ctx.value.sprint.length < 2 ^ 63) :
    ∃ msg, maskString mask keepStart keepEnd ctx = .error msg := by
  obtain ⟨msg, h⟩ := maskText_overflow (if mask = 0 then ('*'.toNat : Int) else mask) _ _
    (by have := keepStart.range; omega) (by have := keepEnd.range; omega) hsum _ hne hlen
  exact ⟨msg, by rw [maskString_of_ne_null hv, h]; rfl⟩

/-- The largest `keepStart` with `keepEnd = 1`, on the text `abc`. -/
theorem maskString_panics_of_overflow_max :
    ∃ msg, maskString (σ := Nat) ('*'.toNat) ⟨2 ^ 63 - 1, by omega⟩ ⟨1, by omega⟩
      ⟨[], "token", .str "abc"⟩ = .error msg :=
  maskString_panics_of_overflow _ _ _ (by decide) _ (fun h => by cases h) (by decide) (by decide)

/-! ## `PreserveLengthReplacement` -/

/-- `PreserveLengthReplacement(replacement)`: the replacement (`*` when empty) for a `nil` value
or an empty text, otherwise the text's first rune of the replacement, repeated once per code
point of `fmt.Sprint` of the value; a replacement starting with U+FFFD (`utf8.RuneError`)
repeats `*`. -/
def preserveLengthReplacement (replacement : String) : ScrubFunc σ := fun ctx =>
  let maskSource := if replacement = "" then "*" else replacement
  match ctx.value with
  | .null => .str maskSource
  | v =>
    let value := v.sprint
    if value = "" then .str maskSource
    else
      let maskRune := if maskSource.front = '\uFFFD' then '*' else maskSource.front
      .str ⟨List.replicate value.length maskRune⟩

theorem preserveLengthReplacement_of_ne_null (replacement : String) {ctx : FieldContext σ}
    (hv : ctx.value ≠ .null) :
    preserveLengthReplacement replacement ctx =
      let maskSource := if replacement = "" then "*" else replacement
      if ctx.value.sprint = "" then .str maskSource
      else .str ⟨List.replicate ctx.value.sprint.length
        (if maskSource.front = '\uFFFD' then '*' else maskSource.front)⟩ := by
  obtain ⟨path, key, v⟩ := ctx
  cases v <;> first | exact absurd rfl hv | rfl

example : preserveLengthReplacement "#" (⟨[], "token", .str "abc"⟩ : FieldContext Nat) =
    .str "###" :=
  rfl

theorem preserveLengthReplacement_isLeaf (replacement : String) (ctx : FieldContext σ) :
    (preserveLengthReplacement replacement ctx).IsLeaf := by
  by_cases hv : ctx.value = .null
  · unfold preserveLengthReplacement
    rw [hv]
    trivial
  · rw [preserveLengthReplacement_of_ne_null replacement hv]
    split_ifs <;> trivial

theorem replicate_length_ne_empty {s : String} (hs : s ≠ "") (c : Char) :
    (⟨List.replicate s.length c⟩ : String) ≠ "" := by
  obtain ⟨cs⟩ := s
  intro h
  have h' := congrArg String.data h
  simp only [List.replicate_eq_nil_iff] at h'
  exact hs (congrArg String.mk (List.eq_nil_of_length_eq_zero h'))

/-- **`PreserveLengthReplacement` on its own output.** Applied again to what it returned, it returns
the same exactly when the field held a non-`nil` value with a non-empty text, or when the
replacement (`*` when empty) is its first rune repeated. So scrubbing twice turns a `nil` field's
`[REDACTED]` into `[[[[[[[[[[`. -/
theorem preserveLengthReplacement_twice_iff (replacement : String) (ctx : FieldContext σ) :
    let maskSource := if replacement = "" then "*" else replacement
    preserveLengthReplacement replacement
        { ctx with value := preserveLengthReplacement replacement ctx } =
      preserveLengthReplacement replacement ctx ↔
    (ctx.value ≠ .null ∧ ctx.value.sprint ≠ "") ∨
      maskSource = ⟨List.replicate maskSource.length
        (if maskSource.front = '\uFFFD' then '*' else maskSource.front)⟩ := by
  intro maskSource
  have hsrc : maskSource ≠ "" := by
    simp only [maskSource]
    split_ifs with h
    · decide
    · exact h
  have hstr : ∀ t : String, t ≠ "" →
      preserveLengthReplacement replacement ({ ctx with value := .str t } : FieldContext σ) =
        .str ⟨List.replicate t.length
          (if maskSource.front = '\uFFFD' then '*' else maskSource.front)⟩ := fun t ht => by
    rw [preserveLengthReplacement_of_ne_null replacement (by simp)]
    exact if_neg ht
  by_cases hv : ctx.value = .null
  · have hout : preserveLengthReplacement replacement ctx = .str maskSource := by
      unfold preserveLengthReplacement
      rw [hv]
    rw [hout, hstr _ hsrc]
    simp only [hv, ne_eq, not_true_eq_false, false_and, false_or, Value.str.injEq]
    exact eq_comm
  · rw [preserveLengthReplacement_of_ne_null replacement hv]
    by_cases hne : ctx.value.sprint = ""
    · simp only [hne, if_true]
      rw [hstr _ hsrc]
      simp only [ne_eq, not_true_eq_false, and_false, false_or, Value.str.injEq]
      exact eq_comm
    · simp only [hne, if_false]
      rw [hstr _ (replicate_length_ne_empty hne _)]
      simp only [String.length, List.length_replicate, hv, hne, ne_eq, not_false_eq_true,
        and_self, true_or, iff_true]

/-- The `nil` field of the documentation's example, scrubbed twice. -/
example : preserveLengthReplacement (σ := Nat) "[REDACTED]" ⟨[], "password", .str "[REDACTED]"⟩ =
    .str "[[[[[[[[[[" :=
  rfl

end Recorder
