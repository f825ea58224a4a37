import Recorder.Scrubber.Traversal

/-!
# The traversal's contract: topmost matched fields substituted

A node of a value tree is addressed by a position, the list of child indices leading to it (an
entry of a map is addressed by its place in the association list). Each node knows how its
parent holds it (`Slot`): entries of the three maps and elements of a standalone `[]string` are
**fields**, on which the traversal runs the rules; elements of a `[]any` and of a header list
are not. A field's path extends its parent's path by its key, or by `[i]` for a string-list
element; an element of a `[]any` keeps its list's path.

`TopmostSubstitution rules x y` says what the spec promises of `Scrub`: along every position
that crosses no matched field, `y` has a node in the same place with the same slot, path, key
and shape, and the same value when it is a leaf; at a topmost matched field, `y` holds the
rules' output, stored the way the field's container stores values (`Slot.store`).

The proof follows the tree: `Node.scrubbed` is what the traversal makes of one node;
`child?_scrubbed` (one step, one case per container) says that taking a child commutes with
it at an unmatched node, and `get?_scrubbed` extends that to every position by induction.
-/

namespace Recorder

/-- How a node is held by its parent. -/
inductive Slot where
  /-- the input itself -/
  | root
  /-- an entry of a `map[string]any` -/
  | member
  /-- an entry of a `map[string]string` -/
  | flatMember
  /-- an entry of a `map[string][]string` -/
  | headerMember
  /-- an element of a standalone `[]string` -/
  | stringElement
  /-- an element of a header list -/
  | headerElement
  /-- an element of a `[]any` -/
  | listElement
deriving DecidableEq, Repr

namespace Slot

/-- The slots the traversal runs the rules on. -/
def isField : Slot → Bool
  | .member | .flatMember | .headerMember | .stringElement => true
  | _ => false

variable {σ : Type} [ToString σ]

/-- How a container stores a field's replacement: as is in a `map[string]any`, through
`toString` in a `map[string]string` or `[]string`, through `toStringSlice` (with the original
header's length) in a `map[string][]string`. -/
def store (slot : Slot) (replaced original : Value σ) : Value σ :=
  match slot with
  | .flatMember | .stringElement => .str replaced.toString
  | .headerMember =>
    match original with
    | .stringList vals => .stringList (replaced.toStringSlice vals.length)
    | _ => .stringList (replaced.toStringSlice 0)
  | _ => replaced

end Slot

/-- A node of a value tree: how it is held, the path and key the rules see, and its value. -/
structure Node (σ : Type) where
  slot : Slot
  path : List String
  key : String
  value : Value σ

namespace Node

variable {σ : Type}

/-- The input of a traversal. -/
def root (x : Value σ) : Node σ :=
  ⟨.root, [], "", x⟩

/-- The `i`-th child of a node. -/
def child? (n : Node σ) (i : Nat) : Option (Node σ) :=
  match n.value with
  | .object es => es[i]?.map fun e => ⟨.member, n.path ++ [e.1], e.1, e.2⟩
  | .stringMap es => es[i]?.map fun e => ⟨.flatMember, n.path ++ [e.1], e.1, .str e.2⟩
  | .stringListMap es => es[i]?.map fun e => ⟨.headerMember, n.path ++ [e.1], e.1, .stringList e.2⟩
  | .stringList xs => xs[i]?.map fun x =>
      ⟨if n.slot = .headerMember then .headerElement else .stringElement,
        n.path ++ [indexKey i], indexKey i, .str x⟩
  | .list xs => xs[i]?.map fun v => ⟨.listElement, n.path, n.key, v⟩
  | _ => none

/-- The node at a position. -/
def get? (n : Node σ) : List Nat → Option (Node σ)
  | [] => some n
  | i :: pos => (n.child? i).bind (·.get? pos)

@[simp] theorem get?_nil (n : Node σ) : n.get? [] = some n := rfl

theorem get?_cons (n : Node σ) (i : Nat) (pos : List Nat) :
    n.get? (i :: pos) = (n.child? i).bind (·.get? pos) := rfl

/-- A node has an `i`-th child exactly when `i` is below the number of children its shape
gives. -/
theorem isSome_child?_iff (n : Node σ) (i : Nat) :
    (n.child? i).isSome ↔ i < n.value.shape.arity := by
  obtain ⟨slot, path, key, value⟩ := n
  cases value <;> simp [child?, Value.shape, Shape.arity, Option.isSome_iff_ne_none]

variable [ToString σ] (rules : List (Rule σ))

/-- The rules' output on a node: `none` unless it is a field on which some rule fired. -/
def replacement (n : Node σ) : Option (Value σ) :=
  if n.slot.isField then applyRules rules ⟨n.path, n.key, n.value⟩ else none

/-- Every node from `n` down to the target of `pos`, the target excluded, is unmatched. -/
def ClearAbove : Node σ → List Nat → Prop
  | _, [] => True
  | n, i :: pos => n.replacement rules = none ∧ ∀ m, n.child? i = some m → ClearAbove m pos

/-- What the traversal makes of an unmatched node: a header list is copied, anything else goes
through `scrubValue` at the node's path. -/
def descend (n : Node σ) : Value σ :=
  match n.slot, n.value with
  | .headerMember, .stringList vals => .stringList vals
  | _, v => scrubValue rules n.path v

/-- What the traversal makes of a node: its replacement stored, or its traversal. -/
def scrubbed (n : Node σ) : Node σ :=
  { n with value := match n.replacement rules with
    | some r => n.slot.store r n.value
    | none => n.descend rules }

@[simp] theorem root_scrubbed (x : Value σ) :
    (root x).scrubbed rules = root (scrubValue rules [] x) := by
  simp [scrubbed, replacement, descend, root, Slot.isField]

theorem scrubbed_of_replacement_none {n : Node σ} (h : n.replacement rules = none) :
    n.scrubbed rules = { n with value := n.descend rules } := by
  simp [scrubbed, h]

theorem scrubbed_of_replacement_some {n : Node σ} {r : Value σ}
    (h : n.replacement rules = some r) :
    n.scrubbed rules = { n with value := n.slot.store r n.value } := by
  simp [scrubbed, h]

/-- **Step lemma**: at an unmatched node, taking a child commutes with the traversal. -/
theorem child?_scrubbed {n m : Node σ} {i : Nat} (hn : n.replacement rules = none)
    (h : n.child? i = some m) : (n.scrubbed rules).child? i = some (m.scrubbed rules) := by
  obtain ⟨slot, path, key, value⟩ := n
  rw [scrubbed_of_replacement_none rules hn]
  cases value with
  | object es =>
    simp only [child?, Option.map_eq_some'] at h
    obtain ⟨e, he, rfl⟩ := h
    cases hr : replacement rules ⟨.member, path ++ [e.1], e.1, e.2⟩ <;>
    · simp_all [child?, descend, scrubValue, scrubEntries_eq_map, scrubbed, scrubField,
        replacement, Slot.isField, Slot.store]
  | stringMap es =>
    simp only [child?, Option.map_eq_some'] at h
    obtain ⟨e, he, rfl⟩ := h
    cases hr : replacement rules ⟨.flatMember, path ++ [e.1], e.1, .str e.2⟩ <;>
    · simp_all [child?, descend, scrubValue, scrubFlatEntries_eq_map, scrubbed, scrubField,
        replacement, Slot.isField, Slot.store]
  | stringListMap es =>
    simp only [child?, Option.map_eq_some'] at h
    obtain ⟨e, he, rfl⟩ := h
    cases hr : replacement rules ⟨.headerMember, path ++ [e.1], e.1, .stringList e.2⟩ <;>
    · simp_all [child?, descend, scrubValue, scrubHeaderEntries_eq_map, scrubbed, scrubField,
        replacement, Slot.isField, Slot.store]
  | stringList xs =>
    simp only [child?, Option.map_eq_some'] at h
    obtain ⟨x, hx, rfl⟩ := h
    by_cases hs : slot = .headerMember
    · subst hs
      simp_all [child?, descend, scrubbed, replacement, Slot.isField]
    · cases hr : replacement rules ⟨.stringElement, path ++ [indexKey i], indexKey i, .str x⟩ <;>
      · simp_all [child?, descend, scrubValue, scrubStrings_getElem?, scrubbed, scrubField,
          replacement, Slot.isField, Slot.store]
  | list xs =>
    simp only [child?, Option.map_eq_some'] at h
    obtain ⟨v, hv, rfl⟩ := h
    simp_all [child?, descend, scrubValue, scrubItems_eq_map, scrubbed, replacement, Slot.isField]
  | str _ | scalar _ | null => simp [child?] at h

/-- An unmatched node keeps its shape. -/
theorem shape_descend (n : Node σ) : (n.descend rules).shape = n.value.shape := by
  unfold descend
  split
  · simp_all
  · exact shape_scrubValue rules _ _

/-- At an unmatched node, every child of the traversal's output is the output of a child. -/
theorem child?_scrubbed_inv {n c : Node σ} {i : Nat} (hn : n.replacement rules = none)
    (h : (n.scrubbed rules).child? i = some c) :
    ∃ m, n.child? i = some m ∧ c = m.scrubbed rules := by
  cases hm : n.child? i with
  | some m =>
    rw [child?_scrubbed rules hn hm] at h
    exact ⟨m, rfl, (Option.some.inj h).symm⟩
  | none =>
    have hs := (isSome_child?_iff (n.scrubbed rules) i).mp (by simp [h])
    rw [scrubbed_of_replacement_none rules hn] at hs
    have := (isSome_child?_iff n i).mpr (by simpa [shape_descend] using hs)
    simp [hm] at this

/-- **Run lemma**: along a position with no matched node above its target, the traversal's
output holds the scrubbed target in the same place. -/
theorem get?_scrubbed : ∀ {n t : Node σ} {pos : List Nat}, n.ClearAbove rules pos →
    n.get? pos = some t → (n.scrubbed rules).get? pos = some (t.scrubbed rules)
  | n, t, [], _, h => by
    obtain rfl : n = t := Option.some.inj h
    rfl
  | _, _, i :: _, ⟨hn, hrest⟩, h => by
    rw [get?_cons] at h ⊢
    obtain ⟨m, hm, ht⟩ := Option.bind_eq_some.mp h
    rw [child?_scrubbed rules hn hm, Option.some_bind]
    exact get?_scrubbed (hrest m hm) ht

/-- An unmatched leaf is kept. -/
theorem descend_of_isLeaf {n : Node σ} (h : n.value.IsLeaf) : n.descend rules = n.value := by
  unfold descend
  split
  · simp_all
  · exact scrubValue_of_isLeaf rules _ h

end Node

open Node

variable {σ : Type} [ToString σ]

/-- **The scrubber's contract** (spec §3, §4.5): `y` is `x` with exactly its topmost matched
fields substituted. Along a position crossing no matched field, `y` has a node with the same
slot, path, key and shape, and the same value at a leaf; at a topmost matched field, `y` holds
the rules' output stored as the field's container stores values. -/
structure TopmostSubstitution (rules : List (Rule σ)) (x y : Value σ) : Prop where
  unmatched : ∀ pos t, (root x).get? pos = some t → (root x).ClearAbove rules pos →
    t.replacement rules = none →
    ∃ t', (root y).get? pos = some t' ∧ t'.slot = t.slot ∧ t'.path = t.path ∧ t'.key = t.key ∧
      t'.value.shape = t.value.shape ∧ (t.value.IsLeaf → t'.value = t.value)
  matched : ∀ pos t r, (root x).get? pos = some t → (root x).ClearAbove rules pos →
    t.replacement rules = some r →
    (root y).get? pos = some { t with value := t.slot.store r t.value }

/-- `Scrub` meets the contract, for every rule list and every value. -/
theorem scrub_topmostSubstitution (s : Scrubber σ) (x : Value σ) :
    TopmostSubstitution s.rules x (scrub (some s) x) where
  unmatched pos t hget hclear hnone := by
    have h := get?_scrubbed s.rules hclear hget
    rw [root_scrubbed, scrubbed_of_replacement_none _ hnone] at h
    exact ⟨_, h, rfl, rfl, rfl, shape_descend _ _, fun hl => descend_of_isLeaf _ hl⟩
  matched pos t r hget hclear hr := by
    have h := get?_scrubbed s.rules hclear hget
    rwa [root_scrubbed, scrubbed_of_replacement_some _ hr] at h

end Recorder
