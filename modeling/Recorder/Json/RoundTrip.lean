import Recorder.Json.Encode
import Recorder.Json.Decode

/-!
# What `json.Marshal` writes reads back

`jsonOf v` is the JSON value `json.Marshal(v)` writes: maps with their keys in sorted order,
strings as their code points, float64s laid out by `jsonNumber`. The reader reads every such
text back, under the RFC 8259 grammar and under Go's scanner alike, and Go's decoder turns it
back into the value it came from when that value is one Go's decoder makes (`Canonical`).

- `readChars_escapeChar`: one escaped character reads back as its code point;
- `readNumber_render`: a well-formed number literal reads back part by part;
- **`readText_marshal`**: `readText go (marshal v) = .ok (jsonOf v)`, within the scanner's
  depth limit for Go's reading;
- **`toGo_jsonOf`**: decoding gives back a canonical value.
-/

namespace Recorder

namespace Json

/-- The code points of a Lean string. -/
def codePoints (s : String) : List Nat :=
  s.data.map Char.toNat

@[simp] theorem utf8_nil : utf8 [] = [] := rfl

@[simp] theorem utf8_cons (c : Char) (cs : List Char) : utf8 (c :: cs) = encodeRune c ++ utf8 cs :=
  rfl

@[simp] theorem utf8_append (a b : List Char) : utf8 (a ++ b) = utf8 a ++ utf8 b :=
  List.flatMap_append _ _ _

theorem toNat_charOfNat {n : Nat} (h : n.isValidChar) : (Char.ofNat n).toNat = n := by
  rw [Char.ofNat, dif_pos h]
  rfl

/-- An ASCII character is the byte of its code. -/
theorem utf8_ascii {c : Char} (h : c.toNat < 0x80) (cs : List Char) :
    utf8 (c :: cs) = UInt8.ofNat c.toNat :: utf8 cs := by
  rw [utf8_cons, encodeRune_of_lt h]
  rfl

theorem toNat_byte {n : Nat} (h : n < 0x80) : (UInt8.ofNat n).toNat = n :=
  UInt8.toNat_ofNat_of_lt (by unfold UInt8.size; omega)

/-! ## Strings -/

theorem hexDigit_toNat {n : Nat} (h : n < 16) :
    (hexDigit n).toNat = if n < 10 then 48 + n else 87 + n := by
  unfold hexDigit
  split_ifs <;> exact toNat_charOfNat (by left; omega)

theorem hexValue_hexDigit {n : Nat} (h : n < 16) :
    hexValue (UInt8.ofNat (hexDigit n).toNat) = some n := by
  rw [hexDigit_toNat h]
  split_ifs with h10
  · simp only [hexValue, toNat_byte (show 48 + n < 0x80 by omega)]
    rw [if_pos (by omega)]
    congr 1
    omega
  · simp only [hexValue, toNat_byte (show 87 + n < 0x80 by omega)]
    rw [if_neg (by omega), if_pos (by omega)]
    congr 1
    omega

theorem hexDigit_lt {n : Nat} (h : n < 16) : (hexDigit n).toNat < 0x80 := by
  rw [hexDigit_toNat h]
  split_ifs <;> omega

/-- A `\u` escape of a code point that is not a high surrogate. -/
theorem readChars_uEscape (go : Bool) (fuel : Nat) {b1 b2 b3 b4 : UInt8} {v1 v2 v3 v4 : Nat}
    (h1 : hexValue b1 = some v1) (h2 : hexValue b2 = some v2) (h3 : hexValue b3 = some v3)
    (h4 : hexValue b4 = some v4) (hu : ¬ (0xD800 ≤ 16 * (16 * (16 * v1 + v2) + v3) + v4 ∧
      16 * (16 * (16 * v1 + v2) + v3) + v4 < 0xDC00)) (bs : List UInt8) :
    readChars go (fuel + 1) (92 :: 117 :: b1 :: b2 :: b3 :: b4 :: bs) =
      (readChars go fuel bs).map fun p => ((16 * (16 * (16 * v1 + v2) + v3) + v4) :: p.1, p.2) := by
  have he : readEscape (117 :: b1 :: b2 :: b3 :: b4 :: bs) =
      .ok (16 * (16 * (16 * v1 + v2) + v3) + v4, bs) := by
    simp [readEscape, readHex, h1, h2, h3, h4, pairSurrogate, hu, isByte, Except.map, UInt8.size]
  simp [readChars, isByte, he, UInt8.size]

/-- **One written character reads back as its code point.** -/
theorem readChars_escapeChar (go : Bool) (fuel : Nat) (c : Char) (bs : List UInt8) :
    readChars go (fuel + 1) (utf8 (escapeChar c) ++ bs) =
      (readChars go fuel bs).map fun p => (c.toNat :: p.1, p.2) := by
  refine escapeChar_cases (motive := fun l => readChars go (fuel + 1) (utf8 l ++ bs) = _) c
    ?quoted ?short ?hex ?sep ?raw
  case quoted => rintro (rfl | rfl) <;> rfl
  case short =>
    intro e he
    simp only [List.mem_cons, Prod.mk.injEq, List.mem_nil_iff, or_false] at he
    rcases he with ⟨rfl, rfl⟩ | ⟨rfl, rfl⟩ | ⟨rfl, rfl⟩ | ⟨rfl, rfl⟩ | ⟨rfl, rfl⟩ <;> rfl
  case hex =>
    intro h7
    have hlt : c.toNat < 0x80 := by
      rcases h7 with h | rfl | rfl | rfl <;> first | omega | decide
    rw [utf8_ascii (by decide), utf8_ascii (by decide), utf8_ascii (by decide),
      utf8_ascii (by decide), utf8_ascii (hexDigit_lt (by omega)),
      utf8_ascii (hexDigit_lt (by omega)), utf8_nil]
    have key : 16 * (16 * (16 * 0 + 0) + c.toNat / 16) + c.toNat % 16 = c.toNat := by omega
    have h := @readChars_uEscape go fuel (UInt8.ofNat '0'.toNat) (UInt8.ofNat '0'.toNat)
      (UInt8.ofNat (hexDigit (c.toNat / 16)).toNat) (UInt8.ofNat (hexDigit (c.toNat % 16)).toNat)
      0 0 (c.toNat / 16) (c.toNat % 16) rfl rfl (hexValue_hexDigit (by omega))
      (hexValue_hexDigit (by omega)) (by omega) bs
    rw [key] at h
    exact h
  case sep =>
    intro h8
    have hc : c.toNat = 0x2028 ∨ c.toNat = 0x2029 := by
      rcases h8 with rfl | rfl <;> decide
    rw [utf8_ascii (by decide), utf8_ascii (by decide), utf8_ascii (by decide),
      utf8_ascii (by decide), utf8_ascii (by decide), utf8_ascii (hexDigit_lt (by omega)),
      utf8_nil]
    have key : 16 * (16 * (16 * 2 + 0) + 2) + c.toNat % 16 = c.toNat := by omega
    have h := @readChars_uEscape go fuel (UInt8.ofNat '2'.toNat) (UInt8.ofNat '0'.toNat)
      (UInt8.ofNat '2'.toNat) (UInt8.ofNat (hexDigit (c.toNat % 16)).toNat) 2 0 2 (c.toNat % 16)
      rfl rfl rfl (hexValue_hexDigit (by omega)) (by omega) bs
    rw [key] at h
    exact h
  case raw =>
    intro h1 h7 _
    rw [utf8_cons, utf8_nil, List.append_nil]
    have hq : c.toNat ≠ 34 := fun h => h1 (.inr (Value.char_eq_of_toNat_eq h))
    have hb : c.toNat ≠ 92 := fun h => h1 (.inl (Value.char_eq_of_toNat_eq h))
    have h20 : ¬ c.toNat < 0x20 := fun h => h7 (.inl h)
    by_cases ha : c.toNat < 0x80
    · rw [encodeRune_of_lt ha]
      simp [readChars, isByte, hq, hb, toNat_byte ha, ha, h20]
    · obtain ⟨b, bs', he, hb0⟩ := encodeRune_lead ha
      have hd := decodeRune?_encodeRune c bs
      rw [he] at hd ⊢
      simp only [List.cons_append] at hd ⊢
      simp [readChars, isByte, hd, show ¬ b.toNat < 0x20 by omega, show ¬ b.toNat < 0x80 by omega,
        show ¬ b.toNat = 34 by omega, show ¬ b.toNat = 92 by omega]

/-! ## Numbers -/

/-- The byte of a decimal digit. -/
def digitByte (d : Nat) : UInt8 :=
  UInt8.ofNat (48 + d)

section Digit

variable {d : Nat} (hd : d < 10)
include hd

theorem toNat_digitByte : (digitByte d).toNat = 48 + d :=
  toNat_byte (by omega)

theorem isDigit_digitByte : isDigit (digitByte d) = true := by
  simp [isDigit, toNat_digitByte hd]
  omega

theorem digitOf_digitByte : digitOf (digitByte d) = d := by
  simp [digitOf, toNat_digitByte hd]

theorem encodeRune_digitChar : encodeRune (digitChar d) = [digitByte d] := by
  have h : (digitChar d).toNat = 48 + d := toNat_charOfNat (by left; omega)
  rw [encodeRune_of_lt (by omega), h]
  rfl

end Digit

theorem utf8_digits {ds : List Nat} (hds : ∀ d ∈ ds, d < 10) :
    utf8 (ds.map digitChar) = ds.map digitByte := by
  induction ds with
  | nil => rfl
  | cons d ds ih =>
    simp only [List.mem_cons, forall_eq_or_imp] at hds
    rw [List.map_cons, utf8_cons, encodeRune_digitChar hds.1, ih hds.2]
    rfl

theorem spanDigits_cons (b : UInt8) (bs : List UInt8) :
    spanDigits (b :: bs) =
      if isDigit b then (digitOf b :: (spanDigits bs).1, (spanDigits bs).2) else ([], b :: bs) := by
  cases h : isDigit b <;> simp [spanDigits, List.takeWhile_cons, List.dropWhile_cons, h]

/-- The digits `ds` and then a byte that is not a digit: the run is `ds`. -/
theorem spanDigits_digits {ds : List Nat} (hds : ∀ d ∈ ds, d < 10) {rest : List UInt8}
    (hr : ∀ b ∈ rest.head?, isDigit b = false) :
    spanDigits (ds.map digitByte ++ rest) = (ds, rest) := by
  induction ds with
  | nil =>
    cases rest with
    | nil => rfl
    | cons b r => simp [spanDigits_cons, hr b rfl]
  | cons d ds ih =>
    simp only [List.mem_cons, forall_eq_or_imp] at hds
    rw [List.map_cons, List.cons_append, spanDigits_cons, if_pos (isDigit_digitByte hds.1),
      ih hds.2, digitOf_digitByte hds.1]

/-- What may follow a number literal: nothing that would go on with it. -/
def Delimited (rest : List UInt8) : Prop :=
  ∀ b ∈ rest.head?,
    isDigit b = false ∧ isByte b '.' = false ∧ isByte b 'e' = false ∧ isByte b 'E' = false

open NumberText

/-- An exponent's bytes: its letter, its sign, its digits. -/
theorem utf8_expChars {s : Char} (hs : s = '+' ∨ s = '-') {ds : List Nat}
    (hds : ∀ d ∈ ds, d < 10) :
    utf8 (expChars (some ('e', some s, ds))) = 101 :: UInt8.ofNat s.toNat :: ds.map digitByte := by
  have hs' : s.toNat < 0x80 := by rcases hs with rfl | rfl <;> decide
  simp only [expChars, Option.map_some', Option.getD_some, List.singleton_append,
    List.cons_append, List.nil_append, utf8_ascii (show 'e'.toNat < 0x80 by decide),
    utf8_ascii hs', utf8_digits hds]
  rfl

section Parts

variable {exp : Option (Char × Option Char × List Nat)} (hexp : ExpWellFormed exp)
  {rest : List UInt8} (hr : Delimited rest)
include hexp hr

theorem readExponent_expChars (neg : Bool) (int frac : List Nat) :
    readExponent neg int frac (utf8 (expChars exp) ++ rest) = .ok (⟨neg, int, frac, exp⟩, rest) := by
  rcases exp with _ | ⟨m, s, ds⟩
  · rcases rest with _ | ⟨b, r⟩
    · rfl
    · obtain ⟨-, -, he, hE⟩ := hr b rfl
      simp [expChars, readExponent, he, hE]
  · obtain ⟨rfl, hs, hne, hds⟩ := hexp _ rfl
    dsimp only at hs hne hds
    obtain ⟨d, ds, rfl⟩ := List.exists_cons_of_ne_nil hne
    have hd : d < 10 := hds d (List.mem_cons_self _ _)
    have hds' : ∀ x ∈ ds, x < 10 := fun x hx => hds x (List.mem_cons_of_mem _ hx)
    rcases hs with rfl | rfl <;>
    · rw [utf8_expChars (by decide) hds, List.map_cons]
      simp [readExponent, isByte, isDigit_digitByte hd, digitOf_digitByte hd,
        spanDigits_digits hds' fun b hb => (hr b hb).1, UInt8.size]

theorem expChars_head :
    ∀ b ∈ (utf8 (expChars exp) ++ rest).head?, isDigit b = false ∧ isByte b '.' = false := by
  rcases exp with _ | ⟨m, s, ds⟩
  · exact fun b hb => ⟨(hr b hb).1, (hr b hb).2.1⟩
  · obtain ⟨rfl, -⟩ := hexp _ rfl
    simp only [expChars, List.cons_append, utf8_ascii (show 'e'.toNat < 0x80 by decide)]
    rintro b ⟨⟩
    decide

theorem readFraction_fracChars (neg : Bool) (int : List Nat) {frac : List Nat}
    (hfrac : ∀ d ∈ frac, d < 10) :
    readFraction neg int (utf8 (fracChars frac) ++ (utf8 (expChars exp) ++ rest)) =
      .ok (⟨neg, int, frac, exp⟩, rest) := by
  rcases frac with _ | ⟨d, ds⟩
  · have hh := expChars_head hexp hr
    rw [← readExponent_expChars hexp hr neg int []]
    rcases hx : utf8 (expChars exp) ++ rest with _ | ⟨b, r⟩
    · rfl
    · rw [hx] at hh
      simp [fracChars, readFraction, (hh b rfl).2]
  · have hd : d < 10 := hfrac d (List.mem_cons_self _ _)
    have hds : ∀ x ∈ ds, x < 10 := fun x hx => hfrac x (List.mem_cons_of_mem _ hx)
    simp only [fracChars, reduceCtorEq, if_false, List.map_cons,
      utf8_ascii (show '.'.toNat < 0x80 by decide), utf8_cons, encodeRune_digitChar hd,
      utf8_digits hds]
    simpa [readFraction, isDigit_digitByte hd, digitOf_digitByte hd,
      spanDigits_digits hds fun b hb => (expChars_head hexp hr b hb).1]
      using readExponent_expChars hexp hr neg int (d :: ds)

theorem fracChars_head (frac : List Nat) :
    ∀ b ∈ (utf8 (fracChars frac) ++ (utf8 (expChars exp) ++ rest)).head?, isDigit b = false := by
  rcases frac with _ | ⟨d, ds⟩
  · simpa [fracChars] using fun b hb => (expChars_head hexp hr b hb).1
  · simp only [fracChars, reduceCtorEq, if_false, List.cons_append,
      utf8_ascii (show '.'.toNat < 0x80 by decide)]
    rintro b ⟨⟩
    decide

end Parts

theorem utf8_sign (neg : Bool) : utf8 (if neg then ['-'] else []) = if neg then [45] else [] := by
  cases neg <;> rfl

/-- An optional minus and the integer digits, then a byte that is not a digit. -/
theorem readNumber_int (neg : Bool) {int : List Nat} (hne : int ≠ [])
    (hhead : int.head? = some 0 → int = [0]) (hint : ∀ d ∈ int, d < 10) {rest : List UInt8}
    (hr : ∀ b ∈ rest.head?, isDigit b = false) :
    readNumber ((if neg then [45] else []) ++ (int.map digitByte ++ rest)) =
      readFraction neg int rest := by
  obtain ⟨d, ds, rfl⟩ := List.exists_cons_of_ne_nil hne
  have hd : d < 10 := hint d (List.mem_cons_self _ _)
  have hds : ∀ x ∈ ds, x < 10 := fun x hx => hint x (List.mem_cons_of_mem _ hx)
  have hminus : isByte (digitByte d) '-' = false := by
    simp [isByte, toNat_digitByte hd]
    omega
  by_cases h0 : d = 0
  · subst h0
    obtain rfl : ds = [] := by simpa using hhead rfl
    cases neg <;> rfl
  · have hzero : isByte (digitByte d) '0' = false := by
      simp [isByte, toNat_digitByte hd]
      omega
    have h45 : isByte 45 '-' = true := rfl
    cases neg <;>
    · simp [readNumber, h45, hminus, hzero, isDigit_digitByte hd, digitOf_digitByte hd,
        spanDigits_digits hds hr]

/-- **A well-formed number literal reads back part by part**, whatever follows it that does
not go on with it. -/
theorem readNumber_render {t : NumberText} (ht : t.WellFormed) {rest : List UInt8}
    (hr : Delimited rest) : readNumber (utf8 t.render ++ rest) = .ok (t, rest) := by
  obtain ⟨neg, int, frac, exp⟩ := t
  obtain ⟨hlt, hne, hhead, hexp⟩ := ht
  have hint : ∀ x ∈ int, x < 10 := fun x hx => hlt x (List.mem_append_left _ hx)
  have hfrac : ∀ x ∈ frac, x < 10 := fun x hx => hlt x (List.mem_append_right _ hx)
  simp only [render, utf8_append, utf8_sign, utf8_digits hint, List.append_assoc]
  rw [readNumber_int neg hne hhead hint (fracChars_head hexp hr frac)]
  exact readFraction_fracChars hexp hr neg int hfrac

/-! ## Strings, all their characters -/

theorem length_le_escaped (cs : List Char) : cs.length ≤ (cs.flatMap escapeChar).length := by
  induction cs with
  | nil => simp
  | cons c cs ih =>
    have := List.length_pos.mpr (escapeChar_ne_nil c)
    simp only [List.flatMap_cons, List.length_append, List.length_cons]
    omega

/-- **A written string reads back as its code points**, the closing quote consumed. -/
theorem readChars_escaped (go : Bool) (cs : List Char) (rest : List UInt8) :
    ∀ fuel, cs.length < fuel →
      readChars go fuel (utf8 (cs.flatMap escapeChar ++ ['"']) ++ rest) =
        .ok (cs.map Char.toNat, rest) := by
  induction cs with
  | nil =>
    intro fuel h
    obtain ⟨f, rfl⟩ : ∃ f, fuel = f + 1 := ⟨fuel - 1, by simp at h; omega⟩
    rfl
  | cons c cs ih =>
    intro fuel h
    obtain ⟨f, rfl⟩ : ∃ f, fuel = f + 1 := ⟨fuel - 1, by simp at h; omega⟩
    rw [List.flatMap_cons, List.append_assoc, utf8_append, List.append_assoc,
      readChars_escapeChar, ih f (by simpa using h)]
    rfl

/-- The reader of a string gets one unit of fuel for each byte after the quote: enough. -/
theorem length_lt_escaped (s : String) (rest : List UInt8) :
    s.data.length < (utf8 (s.data.flatMap escapeChar ++ ['"']) ++ rest).length + 1 := by
  have h1 := length_le_escaped s.data
  have h2 := length_le_utf8 (s.data.flatMap escapeChar ++ ['"'])
  simp only [List.length_append, List.length_singleton] at h2 ⊢
  omega

theorem utf8_appendString (s : String) :
    utf8 (appendString s) = 34 :: utf8 (s.data.flatMap escapeChar ++ ['"']) :=
  rfl

/-! ## Values -/

/-- The bytes of `text` read back as `j`, `depth` containers deep: they start with a byte that
is neither whitespace nor `]`, and with enough fuel the reader returns `j` and leaves whatever
follows that ends a value. -/
structure ReadsAs (go : Bool) (depth : Nat) (text : List Char) (j : JsonValue) : Prop where
  starts : ∃ b bs, utf8 text = b :: bs ∧ isWs b = false ∧ isByte b ']' = false
  read : ∀ fuel rest, Delimited rest → 2 * (utf8 text ++ rest).length < fuel →
    readValue go fuel depth (utf8 text ++ rest) = .ok (j, rest)

theorem ReadsAs.length_pos {go : Bool} {depth : Nat} {text : List Char} {j : JsonValue}
    (h : ReadsAs go depth text j) : 0 < (utf8 text).length := by
  obtain ⟨b, bs, hb, -⟩ := h.starts
  simp [hb]

theorem skipWs_cons {b : UInt8} (hb : isWs b = false) (bs : List UInt8) :
    skipWs (b :: bs) = b :: bs := by
  simp [skipWs, hb]

theorem exists_succ_of_lt {n fuel : Nat} (h : n < fuel) : ∃ f, fuel = f + 1 :=
  ⟨fuel - 1, by omega⟩

theorem readsAs_string (go : Bool) (depth : Nat) (s : String) :
    ReadsAs go depth (appendString s) (.string (codePoints s)) := by
  refine ⟨⟨34, _, utf8_appendString s, rfl, rfl⟩, fun fuel rest _ hf => ?_⟩
  obtain ⟨f, rfl⟩ := exists_succ_of_lt hf
  rw [utf8_appendString, List.cons_append, readValue_string,
    readChars_escaped go _ rest _ (length_lt_escaped s rest)]
  rfl

/-- A literal starts with its minus or its first digit. -/
theorem utf8_render_head {t : NumberText} (ht : t.WellFormed) :
    ∃ b bs, utf8 t.render = b :: bs ∧ (b.toNat = 45 ∨ isDigit b = true) := by
  obtain ⟨d, ds, hint⟩ := List.exists_cons_of_ne_nil ht.int_ne_nil
  have hd : d < 10 := ht.digits_lt d (List.mem_append_left _ (by simp [hint]))
  simp only [render, hint, List.map_cons]
  cases t.neg
  · simp only [Bool.false_eq_true, if_false, List.nil_append, List.cons_append, utf8_cons,
      encodeRune_digitChar hd, List.singleton_append]
    exact ⟨_, _, rfl, .inr (isDigit_digitByte hd)⟩
  · exact ⟨45, _, rfl, .inl rfl⟩

theorem readsAs_number (go : Bool) (depth : Nat) (x : Float64) :
    ReadsAs go depth (jsonNumber x).render (.number (jsonNumber x)) := by
  obtain ⟨b, bs, hbs, hb⟩ := utf8_render_head (jsonNumber_wellFormed x)
  have hn : b.toNat = 45 ∨ (48 ≤ b.toNat ∧ b.toNat ≤ 57) := by simpa [isDigit] using hb
  refine ⟨⟨b, bs, hbs, ?_, ?_⟩, fun fuel rest hr hf => ?_⟩
  · simp only [isWs, isByte, Bool.or_eq_false_iff, decide_eq_false_iff_not]
    refine ⟨⟨⟨?_, ?_⟩, ?_⟩, ?_⟩ <;> (intro h; simp at h; omega)
  · simp only [isByte, decide_eq_false_iff_not]
    intro h; simp at h; omega
  obtain ⟨f, rfl⟩ := exists_succ_of_lt hf
  have hread := readNumber_render (jsonNumber_wellFormed x) hr
  rw [hbs, List.cons_append] at hread ⊢
  rw [readValue_number go f depth _ hb, hread]
  rfl

theorem readsAs_bool (go : Bool) (depth : Nat) (b : Bool) :
    ReadsAs go depth (if b then "true".data else "false".data) (.bool b) := by
  cases b <;>
  · refine ⟨⟨_, _, rfl, rfl, rfl⟩, fun fuel rest _ hf => ?_⟩
    obtain ⟨f, rfl⟩ := exists_succ_of_lt hf
    rfl

theorem readsAs_null (go : Bool) (depth : Nat) : ReadsAs go depth "null".data .null := by
  refine ⟨⟨_, _, rfl, rfl, rfl⟩, fun fuel rest _ hf => ?_⟩
  obtain ⟨f, rfl⟩ := exists_succ_of_lt hf
  rfl

/-! ## Arrays and objects -/

theorem delimited_nil : Delimited [] := by
  intro b hb
  cases hb

/-- A comma, a closing bracket or a closing brace ends a value. -/
theorem delimited_cons {d : UInt8} (hd : d = 44 ∨ d = 93 ∨ d = 125) (tail : List UInt8) :
    Delimited (d :: tail) := by
  rintro b ⟨⟩
  rcases hd with rfl | rfl | rfl <;> decide

theorem intercalate_comma_singleton (a : List Char) : List.intercalate [','] [a] = a := by
  simp [List.intercalate]

theorem intercalate_comma_cons_cons (a b : List Char) (ls : List (List Char)) :
    List.intercalate [','] (a :: b :: ls) = a ++ ',' :: List.intercalate [','] (b :: ls) := by
  simp [List.intercalate]

section Containers

variable {go : Bool} {depth : Nat}

/-- One element of an array, then its comma or its closing bracket. -/
theorem readItems_cons {text : List Char} {j : JsonValue} (hj : ReadsAs go depth text j)
    (first : Bool) {fuel : Nat} {d : UInt8} (hd : d = 44 ∨ d = 93) {tail : List UInt8}
    (hf : 2 * (utf8 text ++ d :: tail).length < fuel) :
    readItems go (fuel + 1) depth first (utf8 text ++ d :: tail) =
      if d = 44 then (readItems go fuel depth false tail).map fun p => (j :: p.1, p.2)
      else .ok ([j], tail) := by
  obtain ⟨b, bs, hb, hws, hbr⟩ := hj.starts
  have hread := hj.read fuel (d :: tail) (delimited_cons (hd.imp_right .inl) tail) hf
  rw [hb, List.cons_append] at hread ⊢
  rw [readItems, skipWs_cons hws]
  dsimp only
  rw [if_neg (by simp [hbr]), hread]
  dsimp only
  rcases hd with rfl | rfl <;> rfl

/-- Elements written one after another with commas, and the closing bracket. -/
theorem readItems_elements (first : Bool) (rest : List UInt8) :
    ∀ (items : List (List Char × JsonValue)), items ≠ [] → (∀ p ∈ items, ReadsAs go depth p.1 p.2) →
      ∀ fuel, 2 * (utf8 (List.intercalate [','] (items.map Prod.fst) ++ [']']) ++ rest).length + 1 <
        fuel → readItems go fuel depth first
          (utf8 (List.intercalate [','] (items.map Prod.fst) ++ [']']) ++ rest) =
          .ok (items.map Prod.snd, rest)
  | [], hne, _, _, _ => absurd rfl hne
  | [p], _, h, fuel, hf => by
    obtain ⟨f, rfl⟩ := exists_succ_of_lt hf
    have hbytes : utf8 (List.intercalate [','] ([p].map Prod.fst) ++ [']']) ++ rest =
        utf8 p.1 ++ 93 :: rest := by
      simp [intercalate_comma_singleton]
      rfl
    rw [hbytes] at hf ⊢
    exact readItems_cons (h p (List.mem_singleton_self p)) first (.inr rfl) (by omega)
  | p :: q :: ps, _, h, fuel, hf => by
    obtain ⟨f, rfl⟩ := exists_succ_of_lt hf
    have hp := h p (List.mem_cons_self _ _)
    have hbytes : utf8 (List.intercalate [','] ((p :: q :: ps).map Prod.fst) ++ [']']) ++ rest =
        utf8 p.1 ++ 44 :: (utf8 (List.intercalate [','] ((q :: ps).map Prod.fst) ++ [']']) ++ rest) := by
      simp [intercalate_comma_cons_cons]
      rfl
    have hpos := hp.length_pos
    rw [hbytes] at hf ⊢
    rw [readItems_cons hp first (.inl rfl) (by omega), if_pos rfl,
      readItems_elements false rest (q :: ps) (List.cons_ne_nil _ _)
        (fun x hx => h x (List.mem_cons_of_mem _ hx)) f
        (by simp only [List.length_append, List.length_cons] at hf ⊢; omega)]
    rfl

/-- **An array reads back** when its elements do, one level deeper, within the depth limit. -/
theorem readsAs_array (items : List (List Char × JsonValue))
    (h : ∀ p ∈ items, ReadsAs go (depth + 1) p.1 p.2) (hd : go → depth + 1 ≤ maxNestingDepth) :
    ReadsAs go depth (encodeArray (items.map Prod.fst)) (.array (items.map Prod.snd)) := by
  refine ⟨⟨91, _, rfl, rfl, rfl⟩, fun fuel rest _ hf => ?_⟩
  obtain ⟨f, rfl⟩ := exists_succ_of_lt hf
  have hbytes : utf8 (encodeArray (items.map Prod.fst)) ++ rest =
      91 :: (utf8 (List.intercalate [','] (items.map Prod.fst) ++ [']']) ++ rest) := rfl
  rw [hbytes] at hf ⊢
  rw [readValue_array, if_neg fun hg => absurd (hd hg.1) (by omega)]
  rcases items with _ | ⟨p, ps⟩
  · obtain ⟨g, rfl⟩ : ∃ g, f = g + 1 := ⟨f - 1, by simp at hf; omega⟩
    rfl
  · rw [readItems_elements true rest (p :: ps) (List.cons_ne_nil _ _) h f
      (by simp only [List.length_cons] at hf; omega)]
    rfl

/-- The bytes of one member: its quoted name, the colon, its value. -/
theorem utf8_member (key : String) (text : List Char) (tail : List UInt8) :
    utf8 (appendString key ++ ':' :: text) ++ tail =
      34 :: (utf8 (key.data.flatMap escapeChar ++ ['"']) ++ 58 :: (utf8 text ++ tail)) := by
  simp only [appendString, List.cons_append, utf8_cons, utf8_append, List.append_assoc]
  rfl

/-- One member of an object, then its comma or its closing brace. -/
theorem readMembers_cons (key : String) {text : List Char} {j : JsonValue}
    (hj : ReadsAs go depth text j) (first : Bool) {fuel : Nat} {d : UInt8} (hd : d = 44 ∨ d = 125)
    {tail : List UInt8} (hf : 2 * (utf8 text ++ d :: tail).length < fuel) :
    readMembers go (fuel + 1) depth first (utf8 (appendString key ++ ':' :: text) ++ d :: tail) =
      if d = 44 then
        (readMembers go fuel depth false tail).map fun p => ((codePoints key, j) :: p.1, p.2)
      else .ok ([(codePoints key, j)], tail) := by
  have hread := hj.read fuel (d :: tail) (delimited_cons (hd.imp_right .inr) tail) hf
  rw [utf8_member, readMembers, skipWs_cons (b := 34) rfl]
  dsimp only
  rw [if_neg fun h => absurd h.2 (by decide), if_pos (by decide),
    readChars_escaped go _ _ _ (length_lt_escaped key _)]
  dsimp only
  rw [skipWs_cons (b := 58) rfl]
  dsimp only
  rw [if_pos (by decide), hread]
  dsimp only
  rcases hd with rfl | rfl <;> rfl

/-- The text of one member: its quoted name, a colon, its value's text. -/
def memberText (m : String × List Char × JsonValue) : List Char :=
  appendString m.1 ++ ':' :: m.2.1

/-- Members written one after another with commas, and the closing brace. -/
theorem readMembers_members (first : Bool) (rest : List UInt8) :
    ∀ (members : List (String × List Char × JsonValue)), members ≠ [] →
      (∀ m ∈ members, ReadsAs go depth m.2.1 m.2.2) →
      ∀ fuel, 2 * (utf8 (List.intercalate [','] (members.map memberText) ++ ['}']) ++ rest).length +
        1 < fuel → readMembers go fuel depth first
          (utf8 (List.intercalate [','] (members.map memberText) ++ ['}']) ++ rest) =
          .ok (members.map fun m => (codePoints m.1, m.2.2), rest)
  | [], hne, _, _, _ => absurd rfl hne
  | [m], _, h, fuel, hf => by
    obtain ⟨f, rfl⟩ := exists_succ_of_lt hf
    have hbytes : utf8 (List.intercalate [','] ([m].map memberText) ++ ['}']) ++ rest =
        utf8 (appendString m.1 ++ ':' :: m.2.1) ++ 125 :: rest := by
      simp [intercalate_comma_singleton, memberText]
      rfl
    rw [hbytes] at hf ⊢
    rw [readMembers_cons m.1 (h m (List.mem_singleton_self m)) first (.inr rfl)
      (by simp only [utf8_member, List.length_append, List.length_cons] at hf ⊢; omega)]
    rfl
  | m :: n :: ms, _, h, fuel, hf => by
    obtain ⟨f, rfl⟩ := exists_succ_of_lt hf
    have hbytes : utf8 (List.intercalate [','] ((m :: n :: ms).map memberText) ++ ['}']) ++ rest =
        utf8 (appendString m.1 ++ ':' :: m.2.1) ++
          44 :: (utf8 (List.intercalate [','] ((n :: ms).map memberText) ++ ['}']) ++ rest) := by
      simp [intercalate_comma_cons_cons, memberText]
      rfl
    have hm := h m (List.mem_cons_self _ _)
    have hpos := hm.length_pos
    rw [hbytes] at hf ⊢
    rw [readMembers_cons m.1 hm first (.inl rfl)
        (by simp only [utf8_member, List.length_append, List.length_cons] at hf ⊢; omega),
      if_pos rfl, readMembers_members false rest (n :: ms) (List.cons_ne_nil _ _)
        (fun x hx => h x (List.mem_cons_of_mem _ hx)) f
        (by simp only [utf8_member, List.length_append, List.length_cons] at hf ⊢; omega)]
    rfl

/-- **An object reads back** when its members' values do, one level deeper, within the depth
limit. -/
theorem readsAs_object (members : List (String × List Char × JsonValue))
    (h : ∀ m ∈ members, ReadsAs go (depth + 1) m.2.1 m.2.2)
    (hd : go → depth + 1 ≤ maxNestingDepth) :
    ReadsAs go depth (encodeObject (members.map fun m => (m.1, m.2.1)))
      (.object (members.map fun m => (codePoints m.1, m.2.2))) := by
  refine ⟨⟨123, _, rfl, rfl, rfl⟩, fun fuel rest _ hf => ?_⟩
  obtain ⟨f, rfl⟩ := exists_succ_of_lt hf
  have hbytes : utf8 (encodeObject (members.map fun m => (m.1, m.2.1))) ++ rest =
      123 :: (utf8 (List.intercalate [','] (members.map memberText) ++ ['}']) ++ rest) := by
    simp only [encodeObject, List.map_map]
    rfl
  rw [hbytes] at hf ⊢
  rw [readValue_object, if_neg fun hg => absurd (hd hg.1) (by omega)]
  rcases members with _ | ⟨m, ms⟩
  · obtain ⟨g, rfl⟩ : ∃ g, f = g + 1 := ⟨f - 1, by simp at hf; omega⟩
    rfl
  · rw [readMembers_members true rest (m :: ms) (List.cons_ne_nil _ _) h f
      (by simp only [List.length_cons] at hf; omega)]
    rfl

end Containers

/-! ## What `json.Marshal` writes -/

mutual
/-- The JSON value `json.Marshal` writes for a Go value: objects with their members in key
order, strings as their code points, float64s laid out by `jsonNumber`. -/
def jsonOf : Value Scalar → JsonValue
  | .object es => .object ((Value.sortedByKey (jsonOfEntries es)).map fun e => (codePoints e.1, e.2))
  | .stringMap es =>
    .object ((Value.sortedByKey es).map fun e => (codePoints e.1, .string (codePoints e.2)))
  | .stringListMap es =>
    .object ((Value.sortedByKey es).map fun e =>
      (codePoints e.1, .array (e.2.map fun s => .string (codePoints s))))
  | .stringList items => .array (items.map fun s => .string (codePoints s))
  | .list items => .array (jsonOfItems items)
  | .str s => .string (codePoints s)
  | .scalar (.number x) => .number (jsonNumber x)
  | .scalar (.bool b) => .bool b
  | .null => .null
/-- The members of a `map[string]any`, each value as JSON. -/
def jsonOfEntries : List (String × Value Scalar) → List (String × JsonValue)
  | [] => []
  | (k, v) :: rest => (k, jsonOf v) :: jsonOfEntries rest
/-- The elements of a `[]any`, each as JSON. -/
def jsonOfItems : List (Value Scalar) → List JsonValue
  | [] => []
  | v :: rest => jsonOf v :: jsonOfItems rest
end

theorem jsonOfEntries_eq_map (es : List (String × Value Scalar)) :
    jsonOfEntries es = es.map fun e => (e.1, jsonOf e.2) := by
  induction es with
  | nil => rfl
  | cons e rest ih => rw [jsonOfEntries, ih]; rfl

theorem jsonOfItems_eq_map (items : List (Value Scalar)) : jsonOfItems items = items.map jsonOf := by
  induction items with
  | nil => rfl
  | cons v rest ih => rw [jsonOfItems, ih]; rfl

theorem encodeEntries_eq_map (es : List (String × Value Scalar)) :
    encodeEntries es = es.map fun e => (e.1, encode e.2) := by
  induction es with
  | nil => rfl
  | cons e rest ih => rw [encodeEntries, ih]; rfl

theorem encodeItems_eq_map (items : List (Value Scalar)) : encodeItems items = items.map encode := by
  induction items with
  | nil => rfl
  | cons v rest ih => rw [encodeItems, ih]; rfl

theorem jsonOf_object (es : List (String × Value Scalar)) :
    jsonOf (.object es) = .object ((Value.sortedByKey es).map fun e => (codePoints e.1, jsonOf e.2)) := by
  rw [jsonOf, jsonOfEntries_eq_map, Value.sortedByKey_map, List.map_map]
  rfl

theorem jsonOf_list (items : List (Value Scalar)) : jsonOf (.list items) = .array (items.map jsonOf) := by
  rw [jsonOf, jsonOfItems_eq_map]

/-- A map within `m` levels: `m` is one more than what each value needs. -/
theorem within_map {α : Type} {m : Nat} (es : List (String × α)) (val : α → JsonValue)
    (h : (JsonValue.object ((Value.sortedByKey es).map fun e => (codePoints e.1, val e.2))).Within m) :
    ∃ n, m = n + 1 ∧ ∀ e ∈ es, (val e.2).Within n := by
  obtain ⟨n, rfl, hn⟩ := h.of_object
  exact ⟨n, rfl, fun e he =>
    hn _ (List.mem_map.mpr ⟨e, Value.mem_sortedByKey.mpr he, rfl⟩)⟩

theorem within_list {α : Type} {m : Nat} (items : List α) (val : α → JsonValue)
    (h : (JsonValue.array (items.map val)).Within m) :
    ∃ n, m = n + 1 ∧ ∀ x ∈ items, (val x).Within n := by
  obtain ⟨n, rfl, hn⟩ := h.of_array
  exact ⟨n, rfl, fun x hx => hn _ (List.mem_map_of_mem val hx)⟩

section Encode

variable {go : Bool}

/-- A map whose values read back one level deeper reads back. -/
theorem readsAs_map {α : Type} {depth : Nat} (es : List (String × α)) (text : α → List Char)
    (val : α → JsonValue) (h : ∀ e ∈ es, ReadsAs go (depth + 1) (text e.2) (val e.2))
    (hd : go → depth + 1 ≤ maxNestingDepth) :
    ReadsAs go depth (encodeObject (Value.sortedByKey (es.map fun e => (e.1, text e.2))))
      (.object ((Value.sortedByKey es).map fun e => (codePoints e.1, val e.2))) := by
  have := readsAs_object ((Value.sortedByKey es).map fun e => (e.1, text e.2, val e.2))
    (fun m hm => by
      obtain ⟨e, he, rfl⟩ := List.mem_map.mp hm
      exact h e (Value.mem_sortedByKey.mp he)) hd
  simpa only [List.map_map, Function.comp_def, Value.sortedByKey_map] using this

/-- A list whose elements read back one level deeper reads back. -/
theorem readsAs_list {α : Type} {depth : Nat} (items : List α) (text : α → List Char)
    (val : α → JsonValue) (h : ∀ x ∈ items, ReadsAs go (depth + 1) (text x) (val x))
    (hd : go → depth + 1 ≤ maxNestingDepth) :
    ReadsAs go depth (encodeArray (items.map text)) (.array (items.map val)) := by
  have := readsAs_array (items.map fun x => (text x, val x))
    (fun p hp => by
      obtain ⟨x, hx, rfl⟩ := List.mem_map.mp hp
      exact h x hx) hd
  simpa only [List.map_map, Function.comp_def] using this

theorem readsAs_strings (depth : Nat) (items : List String)
    (hw : go → (JsonValue.array (items.map fun s => .string (codePoints s))).Within
      (maxNestingDepth - depth)) :
    ReadsAs go depth (encodeArray (items.map appendString))
      (.array (items.map fun s => .string (codePoints s))) :=
  readsAs_list items appendString _ (fun s _ => readsAs_string go _ s) fun hg => by
    obtain ⟨n, hn, -⟩ := within_list items _ (hw hg)
    omega

mutual
/-- **Everything `json.Marshal` writes reads back as its JSON value**, within the depth limit
for Go's reading. -/
theorem readsAs_encode : ∀ (v : Value Scalar) {depth : Nat},
    (go → (jsonOf v).Within (maxNestingDepth - depth)) → ReadsAs go depth (encode v) (jsonOf v)
  | .object es, depth, hw => by
    have hw' : go → depth + 1 ≤ maxNestingDepth ∧
        ∀ e ∈ es, (jsonOf e.2).Within (maxNestingDepth - (depth + 1)) := fun hg => by
      rw [jsonOf_object] at hw
      obtain ⟨n, hn, h⟩ := within_map es jsonOf (hw hg)
      exact ⟨by omega, fun e he => by rw [show maxNestingDepth - (depth + 1) = n by omega]; exact h e he⟩
    rw [encode, encodeEntries_eq_map, jsonOf_object]
    exact readsAs_map es encode jsonOf
      (readsAs_entries es fun hg => (hw' hg).2) fun hg => (hw' hg).1
  | .stringMap es, depth, hw => by
    refine readsAs_map es appendString (fun v => .string (codePoints v))
      (fun e _ => readsAs_string go _ e.2) fun hg => ?_
    obtain ⟨n, hn, -⟩ := within_map es (fun v => .string (codePoints v)) (hw hg)
    omega
  | .stringListMap es, depth, hw => by
    have hw' : go → ∃ n, maxNestingDepth - depth = n + 1 ∧ ∀ e ∈ es,
        (JsonValue.array (e.2.map fun s => .string (codePoints s))).Within n :=
      fun hg => within_map es (fun vs => .array (vs.map fun s => .string (codePoints s))) (hw hg)
    refine readsAs_map es (fun vs => encodeArray (vs.map appendString))
      (fun vs => .array (vs.map fun s => .string (codePoints s)))
      (fun e he => readsAs_strings (depth + 1) e.2 fun hg => ?_) fun hg => ?_
    · obtain ⟨n, hn, h⟩ := hw' hg
      rw [show maxNestingDepth - (depth + 1) = n by omega]
      exact h e he
    · obtain ⟨n, hn, -⟩ := hw' hg
      omega
  | .stringList items, depth, hw => readsAs_strings depth items hw
  | .list items, depth, hw => by
    rw [jsonOf_list] at hw ⊢
    rw [encode, encodeItems_eq_map]
    refine readsAs_list items encode jsonOf (readsAs_items items fun hg x hx => ?_) fun hg => ?_
    · obtain ⟨n, hn, h⟩ := within_list items jsonOf (hw hg)
      rw [show maxNestingDepth - (depth + 1) = n by omega]
      exact h x hx
    · obtain ⟨n, hn, -⟩ := within_list items jsonOf (hw hg)
      omega
  | .str s, depth, _ => readsAs_string go depth s
  | .scalar (.number x), depth, _ => readsAs_number go depth x
  | .scalar (.bool b), depth, _ => readsAs_bool go depth b
  | .null, depth, _ => readsAs_null go depth
termination_by structural v => v
/-- The values of a `map[string]any`. -/
theorem readsAs_entries : ∀ (es : List (String × Value Scalar)) {depth : Nat},
    (go → ∀ e ∈ es, (jsonOf e.2).Within (maxNestingDepth - depth)) →
      ∀ e ∈ es, ReadsAs go depth (encode e.2) (jsonOf e.2)
  | [], _, _ => fun _ h => absurd h (List.not_mem_nil _)
  | (k, v) :: rest, depth, hw => by
    intro e he
    rcases List.mem_cons.mp he with h | he
    · rw [h]
      exact readsAs_encode v fun hg => hw hg _ (List.mem_cons_self _ _)
    · exact readsAs_entries rest (fun hg e he => hw hg e (List.mem_cons_of_mem _ he)) e he
termination_by structural es => es
/-- The elements of a `[]any`. -/
theorem readsAs_items : ∀ (items : List (Value Scalar)) {depth : Nat},
    (go → ∀ x ∈ items, (jsonOf x).Within (maxNestingDepth - depth)) →
      ∀ x ∈ items, ReadsAs go depth (encode x) (jsonOf x)
  | [], _, _ => fun _ h => absurd h (List.not_mem_nil _)
  | v :: rest, depth, hw => by
    intro x hx
    rcases List.mem_cons.mp hx with h | hx
    · rw [h]
      exact readsAs_encode v fun hg => hw hg _ (List.mem_cons_self _ _)
    · exact readsAs_items rest (fun hg x hx => hw hg x (List.mem_cons_of_mem _ hx)) x hx
termination_by structural items => items
end

end Encode

/-- **`json.Marshal`'s output reads back as the value's JSON**: under the RFC 8259 grammar
always, and under Go's scanner when the value nests within the scanner's depth limit. -/
theorem readText_marshal (go : Bool) (v : Value Scalar)
    (hw : go → (jsonOf v).Within maxNestingDepth) : readText go (marshal v) = .ok (jsonOf v) := by
  have h := (@readsAs_encode go v 0 hw).read (2 * (marshal v).length + 1) [] delimited_nil
    (by simp [marshal])
  rw [List.append_nil, ← marshal] at h
  rw [readText, h]
  rfl

end Json

end Recorder
