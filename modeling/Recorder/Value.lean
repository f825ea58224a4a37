import Mathlib.Data.List.Basic

/-!
# Go values as the scrubber sees them

`Scrubber.scrubValue` (scrubber.go) takes an `any` and dispatches with a type switch on five
container types; everything else is a leaf it returns unchanged. Following the design note of
the spec (§9), the dynamic value is a closed variant with one constructor per recognised shape,
plus strings, `nil`, and the values of every other Go type, which the model leaves abstract as
a parameter `σ` rendered by its `ToString` instance (`fmt.Sprint`, or `String()` for a
`fmt.Stringer`).

Go maps are unordered with distinct keys; a map is an association list here, its order being
one iteration order of the map. Every result below is stated entry by entry, so no theorem
depends on that order.

- `Value`: the variant, and `Value.shape`, the kind of a container with its key list or length;
- `Value.sprint`: `fmt.Sprint` on these shapes (maps print with sorted keys, as `fmt` does);
- `Value.toString`, `Value.toStringSlice`: the scrubber's coercions back to a flat map's or a
  header map's element type (scrubber.go `toString`, `toStringSlice`).
-/

namespace Recorder

/-- A Go value of static type `any`: the shapes `scrubValue` recognises, `string`, `nil`, and
the value `x : σ` of any other type. -/
inductive Value (σ : Type) where
  /-- `map[string]any` -/
  | object (entries : List (String × Value σ))
  /-- `map[string]string` -/
  | stringMap (entries : List (String × String))
  /-- `map[string][]string` (HTTP headers) -/
  | stringListMap (entries : List (String × List String))
  /-- `[]string` -/
  | stringList (items : List String)
  /-- `[]any` -/
  | list (items : List (Value σ))
  /-- `string` -/
  | str (s : String)
  /-- a value of any other type -/
  | scalar (x : σ)
  /-- `nil` -/
  | null
deriving Repr

/-- What shape-preservation keeps of a value: its container kind and its key list or length. -/
inductive Shape where
  | object (keys : List String)
  | stringMap (keys : List String)
  | stringListMap (keys : List String)
  | stringList (length : Nat)
  | list (length : Nat)
  | leaf
deriving DecidableEq, Repr

/-- The number of children of a value of this shape. -/
def Shape.arity : Shape → Nat
  | .object keys | .stringMap keys | .stringListMap keys => keys.length
  | .stringList length | .list length => length
  | .leaf => 0

namespace Value

variable {σ : Type}

/-- A leaf: a value the traversal's type switch sends to its `default` branch. -/
def IsLeaf : Value σ → Prop
  | .str _ | .scalar _ | .null => True
  | _ => False

/-- The container kind of a value, with its key list or length. -/
def shape : Value σ → Shape
  | .object entries => .object (entries.map Prod.fst)
  | .stringMap entries => .stringMap (entries.map Prod.fst)
  | .stringListMap entries => .stringListMap (entries.map Prod.fst)
  | .stringList items => .stringList items.length
  | .list items => .list items.length
  | _ => .leaf

@[simp] theorem isLeaf_str (s : String) : (str s : Value σ).IsLeaf := trivial
@[simp] theorem isLeaf_null : (null : Value σ).IsLeaf := trivial

/-! ## `fmt.Sprint` -/

/-- Go's `<` on strings, on their characters: byte order, which on valid UTF-8 text is the order
of code points. -/
def charsLess : List Char → List Char → Bool
  | _, [] => false
  | [], _ :: _ => true
  | a :: as, b :: bs => if a = b then charsLess as bs else a.toNat < b.toNat

/-- Go's `<` on strings. -/
def stringLess (a b : String) : Bool :=
  charsLess a.data b.data

theorem char_eq_of_toNat_eq {c d : Char} (h : c.toNat = d.toNat) : c = d := by
  rw [← Char.ofNat_toNat c, h, Char.ofNat_toNat]

/-! Go's order on strings is a strict total order. -/

theorem charsLess_irrefl (a : List Char) : charsLess a a = false := by
  induction a with
  | nil => rfl
  | cons c a ih => simp [charsLess, ih]

theorem charsLess_trans : ∀ {a b c : List Char}, charsLess a b → charsLess b c → charsLess a c
  | _, [], _, hab, _ => by simp [charsLess] at hab
  | _, _ :: _, [], _, hbc => by simp [charsLess] at hbc
  | [], _ :: _, _ :: _, _, _ => rfl
  | x :: a, y :: b, z :: c, hab, hbc => by
    simp only [charsLess] at hab hbc ⊢
    by_cases e1 : x = y
    · subst e1
      rw [if_pos rfl] at hab
      by_cases e2 : x = z
      · subst e2
        rw [if_pos rfl] at hbc ⊢
        exact charsLess_trans hab hbc
      · rw [if_neg e2] at hbc ⊢
        exact hbc
    · rw [if_neg e1] at hab
      by_cases e2 : y = z
      · subst e2
        rw [if_neg e1]
        exact hab
      · rw [if_neg e2] at hbc
        have hxz : x ≠ z := fun h => by subst h; simp at hab hbc; omega
        rw [if_neg hxz]
        simp only [decide_eq_true_eq] at hab hbc ⊢
        omega

theorem charsLess_total : ∀ {a b : List Char}, a ≠ b → charsLess a b ∨ charsLess b a
  | [], [], h => absurd rfl h
  | [], _ :: _, _ => .inl rfl
  | _ :: _, [], _ => .inr rfl
  | x :: a, y :: b, h => by
    simp only [charsLess]
    by_cases e : x = y
    · subst e
      simpa using charsLess_total fun hab => h (by rw [hab])
    · have : x.toNat ≠ y.toNat := fun h' => e (char_eq_of_toNat_eq h')
      simp only [e, Ne.symm e, if_false, decide_eq_true_eq]
      omega

theorem stringLess_irrefl (a : String) : stringLess a a = false :=
  charsLess_irrefl a.data

theorem stringLess_trans {a b c : String} (hab : stringLess a b) (hbc : stringLess b c) :
    stringLess a c :=
  charsLess_trans hab hbc

theorem stringLess_asymm {a b : String} (hab : stringLess a b) : stringLess b a = false := by
  cases h : stringLess b a
  · rfl
  · have := stringLess_trans hab h
    rw [stringLess_irrefl] at this
    exact absurd this Bool.false_ne_true

theorem stringLess_total {a b : String} (h : a ≠ b) : stringLess a b ∨ stringLess b a :=
  charsLess_total fun hab => h (String.ext hab)

/-- Insert an entry into a list sorted by key. -/
def insertByKey {α : Type} (e : String × α) : List (String × α) → List (String × α)
  | [] => [e]
  | f :: rest => if stringLess f.1 e.1 then f :: insertByKey e rest else e :: f :: rest

/-- Entries in key order, as `fmt` prints maps and `encoding/json` writes them. -/
def sortedByKey {α : Type} (entries : List (String × α)) : List (String × α) :=
  entries.foldr insertByKey []

theorem perm_insertByKey {α : Type} (e : String × α) (l : List (String × α)) :
    (insertByKey e l).Perm (e :: l) := by
  induction l with
  | nil => rfl
  | cons f rest ih =>
    unfold insertByKey
    split_ifs
    · exact (ih.cons f).trans (List.Perm.swap e f rest)
    · rfl

/-- Sorting only reorders the entries. -/
theorem perm_sortedByKey {α : Type} (l : List (String × α)) : (sortedByKey l).Perm l := by
  induction l with
  | nil => rfl
  | cons e rest ih => exact (perm_insertByKey e _).trans (ih.cons e)

theorem mem_sortedByKey {α : Type} {l : List (String × α)} {e : String × α} :
    e ∈ sortedByKey l ↔ e ∈ l :=
  (perm_sortedByKey l).mem_iff

/-- Sorting looks at keys only, so it commutes with rewriting the values. -/
theorem sortedByKey_map {α β : Type} (f : α → β) (l : List (String × α)) :
    sortedByKey (l.map fun e => (e.1, f e.2)) = (sortedByKey l).map fun e => (e.1, f e.2) := by
  have hins : ∀ (e : String × α) (l : List (String × α)),
      insertByKey (e.1, f e.2) (l.map fun e => (e.1, f e.2)) =
        (insertByKey e l).map fun e => (e.1, f e.2) := by
    intro e l
    induction l with
    | nil => rfl
    | cons g rest ih =>
      simp only [List.map_cons, insertByKey]
      split_ifs <;> simp [ih]
  induction l with
  | nil => rfl
  | cons e rest ih => simp only [sortedByKey, List.map_cons, List.foldr_cons] at ih ⊢; rw [ih, hins]

/-- `fmt` layout of a map whose values are already rendered: `map[k1:v1 k2:v2]`. -/
def renderMap (entries : List (String × String)) : String :=
  "map[" ++ " ".intercalate ((sortedByKey entries).map fun e => e.1 ++ ":" ++ e.2) ++ "]"

/-- `fmt` layout of a slice whose elements are already rendered: `[a b]`. -/
def renderList (items : List String) : String :=
  "[" ++ " ".intercalate items ++ "]"

variable [ToString σ]

mutual
/-- `fmt.Sprint(v)` (the `%v` verb). -/
def sprint : Value σ → String
  | .object entries => renderMap (sprintEntries entries)
  | .stringMap entries => renderMap entries
  | .stringListMap entries => renderMap (entries.map fun e => (e.1, renderList e.2))
  | .stringList items => renderList items
  | .list items => renderList (sprintItems items)
  | .str s => s
  | .scalar x => ToString.toString x
  | .null => "<nil>"
/-- `fmt.Sprint` of each value of a `map[string]any`. -/
def sprintEntries : List (String × Value σ) → List (String × String)
  | [] => []
  | (k, v) :: rest => (k, sprint v) :: sprintEntries rest
/-- `fmt.Sprint` of each element of a `[]any`. -/
def sprintItems : List (Value σ) → List String
  | [] => []
  | v :: rest => sprint v :: sprintItems rest
end

/-! ## The scrubber's coercions -/

/-- `toString` (scrubber.go): `""` for `nil`, the string itself, and otherwise
`String()`/`fmt.Sprint`. -/
def toString : Value σ → String
  | .null => ""
  | .str v => v
  | v => v.sprint

/-- `toStringSlice` (scrubber.go): a rule's output stored into a `map[string][]string`; a single
value is repeated `desiredLen` times, or kept once when no length is known. -/
def toStringSlice (value : Value σ) (desiredLen : Nat) : List String :=
  match value with
  | .null => []
  | .stringList v => v
  | .list v => v.map toString
  | .str v => if desiredLen ≤ 0 then [v] else List.replicate desiredLen v
  | v =>
    let valueStr := v.toString
    if desiredLen ≤ 0 then [valueStr] else List.replicate desiredLen valueStr

@[simp] theorem toString_str (s : String) : (str s : Value σ).toString = s := rfl
@[simp] theorem toString_null : (null : Value σ).toString = "" := rfl

/-- A string stored into a header map is repeated over the header's length (once when the
header was empty). -/
theorem toStringSlice_str (s : String) (n : Nat) :
    (str s : Value σ).toStringSlice n = List.replicate (max n 1) s := by
  cases n <;> simp [toStringSlice]

example : (object [("b", scalar 2), ("a", list [str "x", null])] : Value Nat).toString =
    "map[a:[x <nil>] b:2]" := by decide

end Value

end Recorder
