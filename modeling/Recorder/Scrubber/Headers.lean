import Recorder.Scrubber.Contract
import Mathlib.Data.List.Forall2

/-!
# Header maps

A `map[string][]string` entry is a field as a whole: a match replaces the whole header through
`toStringSlice`. An unmatched header is not handed to the `[]string` branch: its elements go
one by one through `scrubValue`, whose `default` branch returns a string unchanged, although the
loop builds an element path `[i]` for each. So no rule ever runs on a header element, while the
same list scrubbed as a standalone `[]string` has every element matched against the rules with
the key `[i]`.
-/

namespace Recorder

variable {σ : Type} [ToString σ]

/-- A rule replacing the element keyed `[0]` of a string list. -/
def firstElementRule : Rule Nat :=
  newRule "first-element" (some (matchKeyInsensitive Char.toLower ["[0]"])) (some (replaceWith "X"))

/-- The header `k: ["a"]` keeps its element under `firstElementRule`, while the list `["a"]`
scrubbed as a `[]string` at the header's path `[k]` has it replaced. -/
theorem header_element_escapes_rules :
    scrub (some ⟨[firstElementRule], "[REDACTED]", false⟩) (.stringListMap [("k", ["a"])]) =
        .stringListMap [("k", ["a"])] ∧
      scrubValue [firstElementRule] ["k"] (.stringList ["a"]) = .stringList ["X"] :=
  ⟨rfl, rfl⟩

/-! ## Keys and lengths -/

end Recorder
