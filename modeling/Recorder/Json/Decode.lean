import Recorder.Value
import Recorder.Json.Utf8
import Recorder.Json.Float

/-!
# `encoding/json`: reading a JSON text

`json.Unmarshal(data, &payload)` with `payload any` first runs `checkValid`, the scanner of
scanner.go, over the whole input, and only then decodes it (decode.go). The reader below does
both readings of a text at once, as a recursive descent that fails where the scanner fails and
with the scanner's message:

- `readText true`: Go's reading. Inside a string any byte from `0x20` on is accepted, and
  `unquote` turns a byte that starts no valid UTF-8 sequence into U+FFFD; nesting deeper than
  `maxNestingDepth` is an error;
- `readText false`: the grammar of RFC 8259, over UTF-8 text (§8.1), with no depth limit: it
  defines which payloads are well-formed JSON texts and what they mean.

A `JsonValue` keeps what a text says: strings as code points (an escaped surrogate that is not
half of a pair stays a code point of its own), numbers as their literals, object members in
text order with repeated names kept. `toGo` is what decode.go makes of it: strings with every
unpaired surrogate as U+FFFD, numbers through `ParseFloat` (out of range, the first such error
is reported), objects as maps, where a repeated name keeps its last value. A Go map is kept as
an association list sorted by key (one of its iteration orders).

The reader is driven by fuel: every call consumes one unit and every pair of calls at least one
byte, so `readText` gives it twice the input's length and it never runs out.
-/

namespace Recorder

namespace Json

/-- A JSON value as a text writes it. -/
inductive JsonValue where
  | null
  | bool (b : Bool)
  | number (n : NumberText)
  | string (codePoints : List Nat)
  | array (items : List JsonValue)
  | object (members : List (List Nat × JsonValue))

/-- `j` nests at most `n` arrays and objects. -/
inductive JsonValue.Within : Nat → JsonValue → Prop
  | null (n : Nat) : Within n .null
  | bool (n : Nat) (b : Bool) : Within n (.bool b)
  | number (n : Nat) (t : NumberText) : Within n (.number t)
  | string (n : Nat) (s : List Nat) : Within n (.string s)
  | array {n : Nat} {items : List JsonValue} :
    (∀ v ∈ items, Within n v) → Within (n + 1) (.array items)
  | object {n : Nat} {members : List (List Nat × JsonValue)} :
    (∀ m ∈ members, Within n m.2) → Within (n + 1) (.object members)

theorem JsonValue.Within.of_array {m : Nat} {items : List JsonValue}
    (h : (JsonValue.array items).Within m) : ∃ n, m = n + 1 ∧ ∀ v ∈ items, v.Within n := by
  cases h with
  | array h => exact ⟨_, rfl, h⟩

theorem JsonValue.Within.of_object {m : Nat} {members : List (List Nat × JsonValue)}
    (h : (JsonValue.object members).Within m) : ∃ n, m = n + 1 ∧ ∀ x ∈ members, x.2.Within n := by
  cases h with
  | object h => exact ⟨_, rfl, h⟩

theorem JsonValue.Within.mono {n : Nat} {j : JsonValue} (h : j.Within n) :
    ∀ {m}, n ≤ m → j.Within m := by
  induction h with
  | array _ ih =>
    intro m hm
    obtain ⟨m, rfl⟩ : ∃ k, m = k + 1 := ⟨m - 1, by omega⟩
    exact .array fun v hv => ih v hv (by omega)
  | object _ ih =>
    intro m hm
    obtain ⟨m, rfl⟩ : ∃ k, m = k + 1 := ⟨m - 1, by omega⟩
    exact .object fun x hx => ih x hx (by omega)
  | null => exact fun _ => .null _
  | bool => exact fun _ => .bool _ _
  | number => exact fun _ => .number _ _
  | string => exact fun _ => .string _ _

/-- `maxNestingDepth` (scanner.go). -/
def maxNestingDepth : Nat := 10000

/-! ## The scanner's errors -/

/-- `quoteChar` (scanner.go): a byte between single quotes, as `strconv.Quote` writes the code
point of the same number (`string(c)`), with its own forms for `'` and `"`. -/
def quoteChar (c : UInt8) : String :=
  let n := c.toNat
  if n = 0x27 then "'\\''"
  else if n = 0x22 then "'\"'"
  else if n = 0x5C then "'\\\\'"
  else if 0x20 ≤ n ∧ n < 0x7F then ⟨['\'', Char.ofNat n, '\'']⟩
  else if n = 0x07 then "'\\a'"
  else if n = 0x08 then "'\\b'"
  else if n = 0x0C then "'\\f'"
  else if n = 0x0A then "'\\n'"
  else if n = 0x0D then "'\\r'"
  else if n = 0x09 then "'\\t'"
  else if n = 0x0B then "'\\v'"
  else if n < 0x20 ∨ n = 0x7F then ⟨['\'', '\\', 'x', hexDigit (n / 16), hexDigit (n % 16), '\'']⟩
  else if n < 0xA1 ∨ n = 0xAD then
    ⟨['\'', '\\', 'u', '0', '0', hexDigit (n / 16), hexDigit (n % 16), '\'']⟩
  else ⟨['\'', Char.ofNat n, '\'']⟩

/-- The scanner's error at the end of the input. -/
def eofError : String := "unexpected end of JSON input"

/-- The scanner's error at byte `c` (`scanner.error`). -/
def invalidChar (c : UInt8) (context : String) : String :=
  "invalid character " ++ quoteChar c ++ " " ++ context

/-! ## Bytes -/

/-- The byte is the ASCII character `c`. -/
def isByte (b : UInt8) (c : Char) : Bool :=
  b.toNat = c.toNat

/-- JSON whitespace (`isSpace` of scanner.go). -/
def isWs (b : UInt8) : Bool :=
  isByte b ' ' || isByte b '\t' || isByte b '\n' || isByte b '\r'

/-- Skip whitespace. -/
def skipWs (bs : List UInt8) : List UInt8 :=
  bs.dropWhile isWs

/-- A decimal digit. -/
def isDigit (b : UInt8) : Bool :=
  0x30 ≤ b.toNat && b.toNat ≤ 0x39

/-- The value of a decimal digit. -/
def digitOf (b : UInt8) : Nat :=
  b.toNat - 0x30

/-- The value of a hexadecimal digit. -/
def hexValue (b : UInt8) : Option Nat :=
  let n := b.toNat
  if 0x30 ≤ n ∧ n ≤ 0x39 then some (n - 0x30)
  else if 0x61 ≤ n ∧ n ≤ 0x66 then some (n - 0x57)
  else if 0x41 ≤ n ∧ n ≤ 0x46 then some (n - 0x37)
  else none

/-! ## Literals -/

/-- The rest of `true`, `false` or `null` after its first letter (`stateT`, `stateTr`, …). -/
def readWord (word : String) : List Char → List UInt8 → Except String (List UInt8)
  | [], bs => .ok bs
  | _ :: _, [] => .error eofError
  | c :: cs, b :: bs =>
    if b.toNat = c.toNat then readWord word cs bs
    else .error (invalidChar b ("in literal " ++ word ++ " (expecting " ++
      quoteChar (UInt8.ofNat c.toNat) ++ ")"))

/-- The digits at the start of `bs`, and the rest. -/
def spanDigits (bs : List UInt8) : List Nat × List UInt8 :=
  ((bs.takeWhile isDigit).map digitOf, bs.dropWhile isDigit)

/-- The exponent part of a number, if any (`stateE`, `stateESign`, `stateE0`). -/
def readExponent (neg : Bool) (int frac : List Nat) :
    List UInt8 → Except String (NumberText × List UInt8)
  | [] => .ok (⟨neg, int, frac, none⟩, [])
  | m :: rest =>
    if isByte m 'e' ∨ isByte m 'E' then
      let sign : Option Char × List UInt8 :=
        match rest with
        | s :: r => if isByte s '+' ∨ isByte s '-' then (some (Char.ofNat s.toNat), r) else (none, rest)
        | [] => (none, [])
      match sign.2 with
      | [] => .error eofError
      | d :: r =>
        if isDigit d then
          .ok (⟨neg, int, frac, some (Char.ofNat m.toNat, sign.1, digitOf d :: (spanDigits r).1)⟩,
            (spanDigits r).2)
        else .error (invalidChar d "in exponent of numeric literal")
    else .ok (⟨neg, int, frac, none⟩, m :: rest)

/-- The fraction and exponent of a number (`stateDot`, `stateDot0`). -/
def readFraction (neg : Bool) (int : List Nat) : List UInt8 → Except String (NumberText × List UInt8)
  | [] => .ok (⟨neg, int, [], none⟩, [])
  | p :: rest =>
    if isByte p '.' then
      match rest with
      | [] => .error eofError
      | d :: r =>
        if isDigit d then readExponent neg int (digitOf d :: (spanDigits r).1) (spanDigits r).2
        else .error (invalidChar d "after decimal point in numeric literal")
    else readExponent neg int [] (p :: rest)

/-- A number literal (`stateNeg`, `state0`, `state1`): `0`, or digits without a leading zero. -/
def readNumber (bs : List UInt8) : Except String (NumberText × List UInt8) :=
  let neg := bs.head?.any (isByte · '-')
  match (if neg then bs.tail else bs) with
  | [] => .error eofError
  | b :: rest =>
    if isByte b '0' then readFraction neg [0] rest
    else if isDigit b then readFraction neg (digitOf b :: (spanDigits rest).1) (spanDigits rest).2
    else .error (invalidChar b "in numeric literal")

/-! ## Strings -/

/-- `n` hexadecimal digits of a `\u` escape, as a number. -/
def readHex : Nat → Nat → List UInt8 → Except String (Nat × List UInt8)
  | 0, acc, bs => .ok (acc, bs)
  | _ + 1, _, [] => .error eofError
  | n + 1, acc, b :: bs =>
    match hexValue b with
    | some v => readHex n (16 * acc + v) bs
    | none => .error (invalidChar b "in \\u hexadecimal character escape")

/-- A high surrogate `u` and the escaped low surrogate after it make one code point
(`utf16.DecodeRune` in `unquote`); anything else leaves `u` alone. -/
def pairSurrogate (u : Nat) (r : List UInt8) : Nat × List UInt8 :=
  if 0xD800 ≤ u ∧ u < 0xDC00 then
    match r with
    | b1 :: b2 :: rest =>
      if isByte b1 '\\' ∧ isByte b2 'u' then
        match readHex 4 0 rest with
        | .ok (v, rest') =>
          if 0xDC00 ≤ v ∧ v < 0xE000 then (0x10000 + (u - 0xD800) * 0x400 + (v - 0xDC00), rest')
          else (u, r)
        | .error _ => (u, r)
      else (u, r)
    | _ => (u, r)
  else (u, r)

/-- An escape after its backslash (`stateInStringEsc`). -/
def readEscape : List UInt8 → Except String (Nat × List UInt8)
  | [] => .error eofError
  | e :: rest =>
    if isByte e '"' ∨ isByte e '\\' ∨ isByte e '/' then .ok (e.toNat, rest)
    else if isByte e 'b' then .ok (0x08, rest)
    else if isByte e 'f' then .ok (0x0C, rest)
    else if isByte e 'n' then .ok (0x0A, rest)
    else if isByte e 'r' then .ok (0x0D, rest)
    else if isByte e 't' then .ok (0x09, rest)
    else if isByte e 'u' then (readHex 4 0 rest).map fun p => pairSurrogate p.1 p.2
    else .error (invalidChar e "in string escape code")

/-- The code points of a string after its opening quote, up to its closing quote
(`stateInString`, then `unquote`). -/
def readChars (go : Bool) : Nat → List UInt8 → Except String (List Nat × List UInt8)
  | 0, _ => .error eofError
  | _ + 1, [] => .error eofError
  | fuel + 1, b :: bs =>
    let cons (c : Nat) (r : Except String (List Nat × List UInt8)) := r.map fun p => (c :: p.1, p.2)
    if isByte b '"' then .ok ([], bs)
    else if isByte b '\\' then
      match readEscape bs with
      | .ok (c, r) => cons c (readChars go fuel r)
      | .error e => .error e
    else if b.toNat < 0x20 then .error (invalidChar b "in string literal")
    else if b.toNat < 0x80 then cons b.toNat (readChars go fuel bs)
    else
      match decodeRune? (b :: bs) with
      | some (c, r) => cons c.toNat (readChars go fuel r)
      | none =>
        if go then cons 0xFFFD (readChars go fuel bs) else .error "invalid UTF-8 in string literal"

/-! ## Values -/

mutual
/-- One value after optional whitespace, `depth` containers deep. -/
def readValue (go : Bool) : Nat → Nat → List UInt8 → Except String (JsonValue × List UInt8)
  | 0, _, _ => .error eofError
  | fuel + 1, depth, bs =>
    match skipWs bs with
    | [] => .error eofError
    | b :: rest =>
      if isByte b '{' then
        if go ∧ maxNestingDepth < depth + 1 then .error (invalidChar b "exceeded max depth")
        else (readMembers go fuel (depth + 1) true rest).map fun p => (.object p.1, p.2)
      else if isByte b '[' then
        if go ∧ maxNestingDepth < depth + 1 then .error (invalidChar b "exceeded max depth")
        else (readItems go fuel (depth + 1) true rest).map fun p => (.array p.1, p.2)
      else if isByte b '"' then (readChars go (rest.length + 1) rest).map fun p => (.string p.1, p.2)
      else if isByte b '-' ∨ isDigit b then (readNumber (b :: rest)).map fun p => (.number p.1, p.2)
      else if isByte b 't' then (readWord "true" ['r', 'u', 'e'] rest).map fun r => (.bool true, r)
      else if isByte b 'f' then
        (readWord "false" ['a', 'l', 's', 'e'] rest).map fun r => (.bool false, r)
      else if isByte b 'n' then (readWord "null" ['u', 'l', 'l'] rest).map fun r => (.null, r)
      else .error (invalidChar b "looking for beginning of value")
/-- The members of an object after `{` (`first`) or after a `,`, up to its `}`. -/
def readMembers (go : Bool) :
    Nat → Nat → Bool → List UInt8 → Except String (List (List Nat × JsonValue) × List UInt8)
  | 0, _, _, _ => .error eofError
  | fuel + 1, depth, first, bs =>
    match skipWs bs with
    | [] => .error eofError
    | b :: rest =>
      if first ∧ isByte b '}' then .ok ([], rest)
      else if isByte b '"' then
        match readChars go (rest.length + 1) rest with
        | .error e => .error e
        | .ok (key, r) =>
          match skipWs r with
          | [] => .error eofError
          | c :: r =>
            if isByte c ':' then
              match readValue go fuel depth r with
              | .error e => .error e
              | .ok (v, r) =>
                match skipWs r with
                | [] => .error eofError
                | d :: r =>
                  if isByte d ',' then
                    (readMembers go fuel depth false r).map fun p => ((key, v) :: p.1, p.2)
                  else if isByte d '}' then .ok ([(key, v)], r)
                  else .error (invalidChar d "after object key:value pair")
            else .error (invalidChar c "after object key")
      else .error (invalidChar b "looking for beginning of object key string")
/-- The elements of an array after `[` (`first`) or after a `,`, up to its `]`. -/
def readItems (go : Bool) :
    Nat → Nat → Bool → List UInt8 → Except String (List JsonValue × List UInt8)
  | 0, _, _, _ => .error eofError
  | fuel + 1, depth, first, bs =>
    match skipWs bs with
    | [] => .error eofError
    | b :: rest =>
      if first ∧ isByte b ']' then .ok ([], rest)
      else
        match readValue go fuel depth (b :: rest) with
        | .error e => .error e
        | .ok (v, r) =>
          match skipWs r with
          | [] => .error eofError
          | d :: r =>
            if isByte d ',' then (readItems go fuel depth false r).map fun p => (v :: p.1, p.2)
            else if isByte d ']' then .ok ([v], r)
            else .error (invalidChar d "after array element")
end

/-! The reader at each byte that can start a value. -/

section Steps

variable (go : Bool) (fuel depth : Nat) (bs : List UInt8)

theorem readValue_object : readValue go (fuel + 1) depth (123 :: bs) =
    if go ∧ maxNestingDepth < depth + 1 then .error (invalidChar 123 "exceeded max depth")
    else (readMembers go fuel (depth + 1) true bs).map fun p => (.object p.1, p.2) :=
  rfl

theorem readValue_array : readValue go (fuel + 1) depth (91 :: bs) =
    if go ∧ maxNestingDepth < depth + 1 then .error (invalidChar 91 "exceeded max depth")
    else (readItems go fuel (depth + 1) true bs).map fun p => (.array p.1, p.2) :=
  rfl

theorem readValue_string : readValue go (fuel + 1) depth (34 :: bs) =
    (readChars go (bs.length + 1) bs).map fun p => (.string p.1, p.2) :=
  rfl

theorem readValue_number {b : UInt8} (hb : b.toNat = 45 ∨ isDigit b = true) :
    readValue go (fuel + 1) depth (b :: bs) = (readNumber (b :: bs)).map fun p => (.number p.1, p.2) := by
  have hn : b.toNat = 45 ∨ (48 ≤ b.toNat ∧ b.toNat ≤ 57) := by
    simpa [isDigit] using hb
  have hc : ∀ c : Char, c.toNat ≠ 45 → c.toNat < 48 ∨ 57 < c.toNat → isByte b c = false := by
    intro c h1 h2
    simp only [isByte, decide_eq_false_iff_not]
    omega
  have hws : isWs b = false := by
    simp [isWs, hc ' ', hc '\t', hc '\n', hc '\r']
  rw [readValue, skipWs, List.dropWhile_cons, if_neg (by simp [hws])]
  dsimp only
  rw [if_neg (by simp [hc '{']), if_neg (by simp [hc '[']), if_neg (by simp [hc '"']),
    if_pos (by simpa [isByte] using hb)]

end Steps

/-- One value and nothing after it but whitespace (`checkValid` with the value it checks). -/
def readText (go : Bool) (bs : List UInt8) : Except String JsonValue :=
  match readValue go (2 * bs.length + 1) 0 bs with
  | .error e => .error e
  | .ok (v, r) =>
    match skipWs r with
    | [] => .ok v
    | b :: _ => .error (invalidChar b "after top-level value")

/-! ## decode.go: the value as a Go `any` -/

/-- A Go string from code points: an unpaired surrogate becomes U+FFFD. -/
def goString (codePoints : List Nat) : String :=
  ⟨codePoints.map fun n => if n.isValidChar then Char.ofNat n else '\uFFFD'⟩

/-- `m[k] = v` on a map kept sorted by key. -/
def mapInsert {α : Type} (e : String × α) : List (String × α) → List (String × α)
  | [] => [e]
  | f :: rest =>
    if f.1 = e.1 then e :: rest
    else if Value.stringLess f.1 e.1 then f :: mapInsert e rest
    else e :: f :: rest

/-- The error `convertNumber` reports for a literal `ParseFloat` rejects (`UnmarshalTypeError`),
with the context `addErrorContext` gives it: the keys of the objects on the way to the number
(`errorContext.FieldStack`), as a field path of an unnamed struct. -/
def numberError (fieldStack : List String) (n : NumberText) : String :=
  "json: cannot unmarshal number " ++ ⟨n.render⟩ ++
    (if fieldStack = [] then " into Go value of type float64"
     else " into Go struct field ." ++ ".".intercalate fieldStack ++ " of type float64")

mutual
/-- `valueInterface`: the Go value of a JSON value reached through the object keys
`fieldStack`. -/
def toGoAt (fieldStack : List String) : JsonValue → Except String (Value Scalar)
  | .null => .ok .null
  | .bool b => .ok (.scalar (.bool b))
  | .number n =>
    match parseFloat n.decimal with
    | some x => .ok (.scalar (.number x))
    | none => .error (numberError fieldStack n)
  | .string s => .ok (.str (goString s))
  | .array items => (toGoItems fieldStack items).map .list
  | .object members => (toGoMembers fieldStack members []).map .object
/-- `arrayInterface`: the elements keep the field path of the array. -/
def toGoItems (fieldStack : List String) : List JsonValue → Except String (List (Value Scalar))
  | [] => .ok []
  | v :: rest =>
    match toGoAt fieldStack v with
    | .error e => .error e
    | .ok x => (toGoItems fieldStack rest).map (x :: ·)
/-- `objectInterface`: each member's key is pushed on the field path while its value is
decoded, and the members are inserted into the map one after another. -/
def toGoMembers (fieldStack : List String) : List (List Nat × JsonValue) →
    List (String × Value Scalar) → Except String (List (String × Value Scalar))
  | [], acc => .ok acc
  | (k, v) :: rest, acc =>
    match toGoAt (fieldStack ++ [goString k]) v with
    | .error e => .error e
    | .ok x => toGoMembers fieldStack rest (mapInsert (goString k, x) acc)
end

/-- `valueInterface` on a whole document. -/
def toGo (j : JsonValue) : Except String (Value Scalar) :=
  toGoAt [] j

example : numberError [] ⟨false, [1], [], some ('e', none, [9, 9, 9])⟩ =
    "json: cannot unmarshal number 1e999 into Go value of type float64" := by decide
example : numberError ["a", "n"] ⟨false, [1], [], some ('e', none, [9, 9, 9])⟩ =
    "json: cannot unmarshal number 1e999 into Go struct field .a.n of type float64" := by decide

/-- `json.Unmarshal(data, &payload)` with `payload any`. -/
def unmarshal (bs : List UInt8) : Except String (Value Scalar) :=
  match readText true bs with
  | .error e => .error e
  | .ok v => toGo v

end Json

end Recorder
