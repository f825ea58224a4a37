import Mathlib.Data.List.Basic

/-!
# UTF-8, as `unicode/utf8` reads and writes it

`encoding/json` and `bytes.TrimSpace` work on the bytes of a payload and decode the runes they
need with `utf8.DecodeRune`; Go converts a string to bytes with `utf8.EncodeRune` per rune.

- `encodeRune`: `utf8.EncodeRune` on a valid rune (a Lean `Char` is one, so the branch that
  writes `RuneError` for surrogates and out-of-range values has nothing to act on);
- `decodeRune?`: the sequences `utf8.DecodeRune` accepts, with the first-byte table and the
  second-byte ranges of its `acceptRanges` (RFC 3629 §4); `decodeRune` is `DecodeRune` itself,
  which reads a refused byte as `RuneError` of width one;
- `trimSpace`: `bytes.TrimSpace`, which drops leading and trailing `unicode.IsSpace` runes.

**`decodeRune?_encodeRune`**: decoding reads back every encoded rune.
-/

namespace Recorder

namespace Json

/-- `utf8.EncodeRune` on a valid rune. Go writes `t2 | byte(r>>6)` and `tx | byte(r)&maskx`;
the bits are disjoint, so these are the sums below. -/
def encodeRune (c : Char) : List UInt8 :=
  let r := c.toNat
  if r ≤ 0x7F then [UInt8.ofNat r]
  else if r ≤ 0x7FF then [UInt8.ofNat (0xC0 + r / 64), UInt8.ofNat (0x80 + r % 64)]
  else if r ≤ 0xFFFF then
    [UInt8.ofNat (0xE0 + r / 4096), UInt8.ofNat (0x80 + r / 64 % 64), UInt8.ofNat (0x80 + r % 64)]
  else
    [UInt8.ofNat (0xF0 + r / 262144), UInt8.ofNat (0x80 + r / 4096 % 64),
      UInt8.ofNat (0x80 + r / 64 % 64), UInt8.ofNat (0x80 + r % 64)]

/-- A lower-case hexadecimal digit (`hex` of encode.go, `lowerhex` of strconv). -/
def hexDigit (n : Nat) : Char :=
  if n < 10 then Char.ofNat (48 + n) else Char.ofNat (87 + n)

/-- The UTF-8 bytes of a character sequence (`[]byte(s)` of a Go string). -/
def utf8 (cs : List Char) : List UInt8 :=
  cs.flatMap encodeRune

/-- A continuation byte, `0x80` to `0xBF`. -/
def isTail (b : UInt8) : Bool :=
  0x80 ≤ b.toNat && b.toNat ≤ 0xBF

/-- The runes `utf8.DecodeRune` accepts at the start of `bs`, with the bytes after them.
Three-byte sequences after `0xE0` need a second byte from `0xA0` (no overlong forms), after
`0xED` one up to `0x9F` (no surrogates); four-byte ones after `0xF0` need `0x90` and up, after
`0xF4` at most `0x8F` (nothing above U+10FFFF). -/
def decodeRune? : List UInt8 → Option (Char × List UInt8)
  | [] => none
  | b0 :: rest =>
    let n0 := b0.toNat
    if n0 < 0x80 then some (Char.ofNat n0, rest)
    else if n0 < 0xC2 then none
    else if n0 < 0xE0 then
      match rest with
      | b1 :: rest =>
        if isTail b1 then some (Char.ofNat ((n0 - 0xC0) * 64 + (b1.toNat - 0x80)), rest)
        else none
      | [] => none
    else if n0 < 0xF0 then
      match rest with
      | b1 :: b2 :: rest =>
        let lo := if n0 = 0xE0 then 0xA0 else 0x80
        let hi := if n0 = 0xED then 0x9F else 0xBF
        if lo ≤ b1.toNat ∧ b1.toNat ≤ hi ∧ isTail b2 then
          some (Char.ofNat ((n0 - 0xE0) * 4096 + (b1.toNat - 0x80) * 64 + (b2.toNat - 0x80)), rest)
        else none
      | _ => none
    else if n0 < 0xF5 then
      match rest with
      | b1 :: b2 :: b3 :: rest =>
        let lo := if n0 = 0xF0 then 0x90 else 0x80
        let hi := if n0 = 0xF4 then 0x8F else 0xBF
        if lo ≤ b1.toNat ∧ b1.toNat ≤ hi ∧ isTail b2 ∧ isTail b3 then
          some (Char.ofNat ((n0 - 0xF0) * 262144 + (b1.toNat - 0x80) * 4096 +
            (b2.toNat - 0x80) * 64 + (b3.toNat - 0x80)), rest)
        else none
      | _ => none
    else none

/-- `utf8.DecodeRune` on a non-empty input: a refused byte reads as `RuneError` of width one. -/
def decodeRune (bs : List UInt8) : Char × List UInt8 :=
  (decodeRune? bs).getD ('\uFFFD', bs.drop 1)

private theorem toNat_ofNat_uint8 {n : Nat} (h : n < 256) : (UInt8.ofNat n).toNat = n :=
  UInt8.toNat_ofNat_of_lt h

/-- A two-byte sequence, from the code point's high bits `q` and low six bits `d0`. -/
private theorem decodeRune?_two {q d0 : Nat} (h0 : d0 < 64) (hlo : 0x7F < q * 64 + d0)
    (hhi : q * 64 + d0 ≤ 0x7FF) (rest : List UInt8) :
    decodeRune? (UInt8.ofNat (0xC0 + q) :: UInt8.ofNat (0x80 + d0) :: rest) =
      some (Char.ofNat (q * 64 + d0), rest) := by
  simp only [decodeRune?, isTail, toNat_ofNat_uint8 (by omega : 0xC0 + q < 256),
    toNat_ofNat_uint8 (by omega : 0x80 + d0 < 256)]
  rw [if_neg (by omega), if_neg (by omega), if_pos (by omega), if_pos (by simp; omega),
    Nat.add_sub_cancel_left, Nat.add_sub_cancel_left]

/-- A three-byte sequence: the lead byte's range check keeps out overlong forms and
surrogates. -/
private theorem decodeRune?_three {q d1 d0 : Nat} (h1 : d1 < 64) (h0 : d0 < 64)
    (hlo : 0x7FF < q * 4096 + d1 * 64 + d0) (hhi : q * 4096 + d1 * 64 + d0 ≤ 0xFFFF)
    (hs : q * 4096 + d1 * 64 + d0 < 0xD800 ∨ 0xDFFF < q * 4096 + d1 * 64 + d0)
    (rest : List UInt8) :
    decodeRune? (UInt8.ofNat (0xE0 + q) :: UInt8.ofNat (0x80 + d1) :: UInt8.ofNat (0x80 + d0) ::
      rest) = some (Char.ofNat (q * 4096 + d1 * 64 + d0), rest) := by
  simp only [decodeRune?, isTail, toNat_ofNat_uint8 (by omega : 0xE0 + q < 256),
    toNat_ofNat_uint8 (by omega : 0x80 + d1 < 256), toNat_ofNat_uint8 (by omega : 0x80 + d0 < 256)]
  have hlo' : (if 0xE0 + q = 0xE0 then 0xA0 else 0x80) ≤ 0x80 + d1 := by split <;> omega
  have hhi' : 0x80 + d1 ≤ (if 0xE0 + q = 0xED then 0x9F else 0xBF) := by split <;> omega
  rw [if_neg (by omega), if_neg (by omega), if_neg (by omega), if_pos (by omega),
    if_pos ⟨hlo', hhi', by simp; omega⟩, Nat.add_sub_cancel_left, Nat.add_sub_cancel_left,
    Nat.add_sub_cancel_left]

/-- A four-byte sequence: the lead byte's range check keeps out overlong forms and code points
past U+10FFFF. -/
private theorem decodeRune?_four {q d2 d1 d0 : Nat} (h2 : d2 < 64) (h1 : d1 < 64) (h0 : d0 < 64)
    (hlo : 0xFFFF < q * 262144 + d2 * 4096 + d1 * 64 + d0)
    (hhi : q * 262144 + d2 * 4096 + d1 * 64 + d0 < 0x110000) (rest : List UInt8) :
    decodeRune? (UInt8.ofNat (0xF0 + q) :: UInt8.ofNat (0x80 + d2) :: UInt8.ofNat (0x80 + d1) ::
      UInt8.ofNat (0x80 + d0) :: rest) =
        some (Char.ofNat (q * 262144 + d2 * 4096 + d1 * 64 + d0), rest) := by
  simp only [decodeRune?, isTail, toNat_ofNat_uint8 (by omega : 0xF0 + q < 256),
    toNat_ofNat_uint8 (by omega : 0x80 + d2 < 256), toNat_ofNat_uint8 (by omega : 0x80 + d1 < 256),
    toNat_ofNat_uint8 (by omega : 0x80 + d0 < 256)]
  have hlo' : (if 0xF0 + q = 0xF0 then 0x90 else 0x80) ≤ 0x80 + d2 := by split <;> omega
  have hhi' : 0x80 + d2 ≤ (if 0xF0 + q = 0xF4 then 0x8F else 0xBF) := by split <;> omega
  rw [if_neg (by omega), if_neg (by omega), if_neg (by omega), if_neg (by omega),
    if_pos (by omega), if_pos ⟨hlo', hhi', by simp; omega, by simp; omega⟩,
    Nat.add_sub_cancel_left, Nat.add_sub_cancel_left, Nat.add_sub_cancel_left,
    Nat.add_sub_cancel_left]

/-- **Decoding reads back every encoded rune.** -/
theorem decodeRune?_encodeRune (c : Char) (rest : List UInt8) :
    decodeRune? (encodeRune c ++ rest) = some (c, rest) := by
  have hv : c.toNat < 0xD800 ∨ (0xDFFF < c.toNat ∧ c.toNat < 0x110000) := c.valid
  have hc : ∀ n, n = c.toNat → Char.ofNat n = c := fun n h => h ▸ Char.ofNat_toNat c
  have e0 := Nat.div_add_mod c.toNat 64
  have e1 := Nat.div_add_mod (c.toNat / 64) 64
  have e2 := Nat.div_add_mod (c.toNat / 4096) 64
  rw [Nat.div_div_eq_div_mul] at e1 e2
  have m0 := Nat.mod_lt c.toNat (by decide : 64 > 0)
  have m1 := Nat.mod_lt (c.toNat / 64) (by decide : 64 > 0)
  have m2 := Nat.mod_lt (c.toNat / 4096) (by decide : 64 > 0)
  unfold encodeRune
  dsimp only
  -- the six-bit groups become variables, so that every range check below is linear
  generalize c.toNat / 4096 % 64 = d2 at e2 m2 ⊢
  generalize c.toNat / 262144 = q3 at e2 ⊢
  generalize c.toNat / 64 % 64 = d1 at e1 m1 ⊢
  generalize c.toNat / 4096 = q2 at e1 e2 ⊢
  generalize c.toNat % 64 = d0 at e0 m0 ⊢
  generalize c.toNat / 64 = q1 at e0 e1 ⊢
  split_ifs with h1 h2 h3
  · simp only [List.singleton_append, decodeRune?, toNat_ofNat_uint8 (by omega : c.toNat < 256)]
    rw [if_pos (by omega), hc _ rfl]
  · rw [List.cons_append, List.singleton_append, decodeRune?_two m0 (by omega) (by omega),
      hc _ (by omega)]
  · rw [List.cons_append, List.cons_append, List.singleton_append,
      decodeRune?_three m1 m0 (by omega) (by omega) (by omega), hc _ (by omega)]
  · rw [List.cons_append, List.cons_append, List.cons_append, List.singleton_append,
      decodeRune?_four m2 m1 m0 (by omega) (by omega), hc _ (by omega)]

/-- An ASCII character is its own byte. -/
theorem encodeRune_of_lt {c : Char} (h : c.toNat < 0x80) :
    encodeRune c = [UInt8.ofNat c.toNat] := by
  simp [encodeRune, show c.toNat ≤ 0x7F by omega]

/-- Any other character starts with a lead byte, `0xC0` or above. -/
theorem encodeRune_lead {c : Char} (ha : ¬ c.toNat < 0x80) :
    ∃ b bs, encodeRune c = b :: bs ∧ 0xC0 ≤ b.toNat := by
  have hv : c.toNat < 0xD800 ∨ (0xDFFF < c.toNat ∧ c.toNat < 0x110000) := c.valid
  unfold encodeRune
  simp only [if_neg (show ¬ c.toNat ≤ 0x7F by omega)]
  by_cases e2 : c.toNat ≤ 0x7FF
  · rw [if_pos e2]
    exact ⟨_, _, rfl, by rw [toNat_ofNat_uint8 (by omega)]; omega⟩
  by_cases e3 : c.toNat ≤ 0xFFFF
  · rw [if_neg e2, if_pos e3]
    exact ⟨_, _, rfl, by rw [toNat_ofNat_uint8 (by omega)]; omega⟩
  · rw [if_neg e2, if_neg e3]
    exact ⟨_, _, rfl, by rw [toNat_ofNat_uint8 (by omega)]; omega⟩

/-! ## `bytes.TrimSpace` -/

/-- The runes of `bs` as `DecodeRune` reads them one after another, each with its bytes. One
byte at least goes per rune, so `fuel = bs.length` reads them all. -/
def runes : Nat → List UInt8 → List (Char × List UInt8)
  | 0, _ => []
  | _ + 1, [] => []
  | fuel + 1, b :: bs =>
    let r := decodeRune (b :: bs)
    (r.1, (b :: bs).take ((b :: bs).length - r.2.length)) :: runes fuel r.2

/-- `bytes.TrimSpace`, given `unicode.IsSpace` as `isSpace`: drop the leading and the trailing
runes that are spaces. A refused byte is `RuneError`, which is not a space. -/
def trimSpace (isSpace : Char → Bool) (bs : List UInt8) : List UInt8 :=
  let rs := runes bs.length bs
  (((rs.dropWhile (isSpace ·.1)).reverse.dropWhile (isSpace ·.1)).reverse).flatMap (·.2)

theorem encodeRune_ne_nil (c : Char) : encodeRune c ≠ [] := by
  unfold encodeRune
  dsimp only
  split_ifs <;> simp

/-- Every character takes a byte at least. -/
theorem length_le_utf8 (cs : List Char) : cs.length ≤ (utf8 cs).length := by
  induction cs with
  | nil => simp
  | cons c cs ih =>
    have := List.length_pos.mpr (encodeRune_ne_nil c)
    simp only [utf8, List.flatMap_cons, List.length_append, List.length_cons] at ih ⊢
    omega

/-- The runes of an encoded text are its characters, each with its own bytes. -/
theorem runes_utf8 (cs : List Char) :
    ∀ fuel, cs.length ≤ fuel → runes fuel (utf8 cs) = cs.map fun c => (c, encodeRune c) := by
  induction cs with
  | nil => intro fuel _; cases fuel <;> rfl
  | cons c cs ih =>
    intro fuel h
    obtain ⟨f, rfl⟩ : ∃ f, fuel = f + 1 := ⟨fuel - 1, by simp at h; omega⟩
    obtain ⟨b, bs, hb⟩ := List.exists_cons_of_ne_nil (encodeRune_ne_nil c)
    have hd : decodeRune (encodeRune c ++ utf8 cs) = (c, utf8 cs) := by
      rw [decodeRune, decodeRune?_encodeRune]
      rfl
    simp only [utf8, List.flatMap_cons] at hd ⊢
    rw [hb, List.cons_append, runes, ← List.cons_append, ← hb, hd]
    simp only [List.map_cons, List.length_append, Nat.add_sub_cancel, List.take_left]
    rw [← utf8, ih f (by simp at h; omega)]

/-- **`bytes.TrimSpace` leaves a text alone that starts and ends with a non-space.** -/
theorem trimSpace_utf8 {isSpace : Char → Bool} {c d : Char} (hc : isSpace c = false)
    (hd : isSpace d = false) (mid : List Char) :
    trimSpace isSpace (utf8 (c :: (mid ++ [d]))) = utf8 (c :: (mid ++ [d])) := by
  simp only [trimSpace]
  rw [runes_utf8 _ _ (length_le_utf8 _)]
  simp [hc, hd, List.dropWhile_cons, List.reverse_append, utf8, List.flatMap_map]

end Json

end Recorder
