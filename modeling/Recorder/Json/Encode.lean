import Recorder.Value
import Recorder.Json.Utf8
import Recorder.Json.Float

/-!
# `encoding/json`: `json.Marshal`

`json.Marshal` of the values the scrubber hands back. A string goes between quotes, with `"`
and `\` escaped, the control characters in short form (`\b`, `\f`, `\n`, `\r`, `\t`) or as
`\u00XX`, the HTML characters `<`, `>`, `&` as `\u003c`, `\u003e`, `\u0026`, and the
separators U+2028, U+2029 as `\u2028`, `\u2029`; every map is written with its keys in
sorted order (`strings.Compare`, byte order); a float64 as `floatEncoder` lays it out
(`Json.jsonNumber`).

The model's values hold no `NaN` or infinity, no channel or function, so `Marshal` cannot fail
on them; Lean strings are valid UTF-8, so the encoder's `\ufffd` for invalid bytes has nothing to
act on. A `nil` map or slice, which Go writes as `null`, is not told apart from an empty one.
-/

namespace Recorder

namespace Json

/-- How the encoder writes one character of a string (`appendString` with `escapeHTML`). -/
def escapeChar (c : Char) : List Char :=
  if c = '\\' ∨ c = '"' then ['\\', c]
  else if c = '\x08' then ['\\', 'b']
  else if c = '\x0c' then ['\\', 'f']
  else if c = '\n' then ['\\', 'n']
  else if c = '\r' then ['\\', 'r']
  else if c = '\t' then ['\\', 't']
  else if c.toNat < 0x20 ∨ c = '<' ∨ c = '>' ∨ c = '&' then
    ['\\', 'u', '0', '0', hexDigit (c.toNat / 16), hexDigit (c.toNat % 16)]
  else if c = '\u2028' ∨ c = '\u2029' then ['\\', 'u', '2', '0', '2', hexDigit (c.toNat % 16)]
  else [c]

/-- The branches of `escapeChar`, each with the facts that lead to it. -/
theorem escapeChar_cases {motive : List Char → Prop} (c : Char)
    (quoted : c = '\\' ∨ c = '"' → motive ['\\', c])
    (short : ∀ e, (c, e) ∈ [('\x08', 'b'), ('\x0c', 'f'), ('\n', 'n'), ('\r', 'r'), ('\t', 't')] →
      motive ['\\', e])
    (hex : c.toNat < 0x20 ∨ c = '<' ∨ c = '>' ∨ c = '&' →
      motive ['\\', 'u', '0', '0', hexDigit (c.toNat / 16), hexDigit (c.toNat % 16)])
    (sep : c = '\u2028' ∨ c = '\u2029' → motive ['\\', 'u', '2', '0', '2', hexDigit (c.toNat % 16)])
    (raw : ¬(c = '\\' ∨ c = '"') → ¬(c.toNat < 0x20 ∨ c = '<' ∨ c = '>' ∨ c = '&') →
      ¬(c = '\u2028' ∨ c = '\u2029') → motive [c]) :
    motive (escapeChar c) := by
  rw [escapeChar]
  by_cases h1 : c = '\\' ∨ c = '"'
  · rw [if_pos h1]
    exact quoted h1
  rw [if_neg h1]
  by_cases h2 : c = '\x08'
  · rw [if_pos h2]
    exact short _ (by simp [h2])
  rw [if_neg h2]
  by_cases h3 : c = '\x0c'
  · rw [if_pos h3]
    exact short _ (by simp [h3])
  rw [if_neg h3]
  by_cases h4 : c = '\n'
  · rw [if_pos h4]
    exact short _ (by simp [h4])
  rw [if_neg h4]
  by_cases h5 : c = '\r'
  · rw [if_pos h5]
    exact short _ (by simp [h5])
  rw [if_neg h5]
  by_cases h6 : c = '\t'
  · rw [if_pos h6]
    exact short _ (by simp [h6])
  rw [if_neg h6]
  by_cases h7 : c.toNat < 0x20 ∨ c = '<' ∨ c = '>' ∨ c = '&'
  · rw [if_pos h7]
    exact hex h7
  rw [if_neg h7]
  by_cases h8 : c = '\u2028' ∨ c = '\u2029'
  · rw [if_pos h8]
    exact sep h8
  rw [if_neg h8]
  exact raw h1 h7 h8

theorem escapeChar_ne_nil (c : Char) : escapeChar c ≠ [] :=
  escapeChar_cases (motive := (· ≠ [])) c (fun _ => List.cons_ne_nil _ _) (fun _ _ => List.cons_ne_nil _ _)
    (fun _ => List.cons_ne_nil _ _) (fun _ => List.cons_ne_nil _ _) fun _ _ _ => List.cons_ne_nil _ _

/-- `appendString`: a quoted, escaped JSON string. -/
def appendString (s : String) : List Char :=
  '"' :: s.data.flatMap escapeChar ++ ['"']

/-- An object from its members, already written, in the order given. -/
def encodeObject (members : List (String × List Char)) : List Char :=
  '{' :: List.intercalate [','] (members.map fun m => appendString m.1 ++ ':' :: m.2) ++ ['}']

/-- An array from its elements, already written. -/
def encodeArray (items : List (List Char)) : List Char :=
  '[' :: List.intercalate [','] items ++ [']']

mutual
/-- `encodeState.marshal` (encode.go): the encoder of each dynamic type. -/
def encode : Value Scalar → List Char
  | .object es => encodeObject (Value.sortedByKey (encodeEntries es))
  | .stringMap es => encodeObject (Value.sortedByKey (es.map fun e => (e.1, appendString e.2)))
  | .stringListMap es =>
    encodeObject (Value.sortedByKey (es.map fun e => (e.1, encodeArray (e.2.map appendString))))
  | .stringList items => encodeArray (items.map appendString)
  | .list items => encodeArray (encodeItems items)
  | .str s => appendString s
  | .scalar (.number x) => (jsonNumber x).render
  | .scalar (.bool b) => if b then "true".data else "false".data
  | .null => "null".data
/-- The members of a `map[string]any`, each value written. -/
def encodeEntries : List (String × Value Scalar) → List (String × List Char)
  | [] => []
  | (k, v) :: rest => (k, encode v) :: encodeEntries rest
/-- The elements of a `[]any`, each written. -/
def encodeItems : List (Value Scalar) → List (List Char)
  | [] => []
  | v :: rest => encode v :: encodeItems rest
end

/-- `json.Marshal`. -/
def marshal (v : Value Scalar) : List UInt8 :=
  utf8 (encode v)

/-- `json.Marshal` of a `map[string]string`. -/
def marshalStringMap (m : List (String × String)) : List UInt8 :=
  marshal (.stringMap m)

example : marshalStringMap [("b", "<1>"), ("a", "x\"y")] =
    utf8 "\x7b\"a\":\"x\\\"y\",\"b\":\"\\u003c1\\u003e\"\x7d".data := by decide

end Json

end Recorder
