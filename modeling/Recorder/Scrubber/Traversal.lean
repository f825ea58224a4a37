import Recorder.Scrubber.Rule

/-!
# The scrubber and its traversal

`Scrubber` (scrubber.go) holds the ordered rule list, the default replacement text and whether
the built-in rule is included. `NewScrubber` runs its options in order and **then** appends the
built-in rule, so rules given with `WithRules` come before it and rules added afterwards with
`AddRules` come after it.

`scrubValue` is the traversal: for a container with named children, and for each element of a
standalone `[]string`, it runs the rules on the field (`scrubField`); a match is installed as it
is, or coerced to the container's element type, and is not traversed further; an unmatched
child is traversed in turn. Elements of a `[]any` are not fields: they are traversed at the
list's own path. The elements of a header list (`map[string][]string`) are strings handed to
`scrubValue`, whose `default` branch returns them unchanged, so **no rule ever sees a header
element** — unlike the elements of a standalone `[]string`.

A string passed to `scrubValue` takes its `default` branch; the model writes that call's result
(the string itself) in place of the call, which keeps the recursion structural
(`scrubValue_str` states the equation).
-/

namespace Recorder

variable {σ : Type}

/-- `Scrubber` (scrubber.go). -/
structure Scrubber (σ : Type) where
  rules : List (Rule σ)
  defaultReplacement : String
  includeDefaults : Bool

/-- `ScrubberOption`: one configuration step of `NewScrubber`. -/
abbrev ScrubberOption (σ : Type) := Scrubber σ → Scrubber σ

/-- `WithRules`: append rules (an empty list leaves the scrubber as it is). -/
def withRules (rules : List (Rule σ)) : ScrubberOption σ :=
  fun s => if rules.isEmpty then s else { s with rules := s.rules ++ rules }

/-- `WithoutDefaultRules`. -/
def withoutDefaultRules : ScrubberOption σ :=
  fun s => { s with includeDefaults := false }

/-- `WithDefaultReplacement`: an empty replacement is ignored. -/
def withDefaultReplacement (replacement : String) : ScrubberOption σ :=
  fun s => if replacement = "" then s else { s with defaultReplacement := replacement }

/-- The option loop of `NewScrubber`, from the initial configuration; `nil` options (`none`)
are skipped. -/
def applyOptions (opts : List (Option (ScrubberOption σ))) : Scrubber σ :=
  opts.foldl (fun s opt => match opt with | some o => o s | none => s)
    ⟨[], "[REDACTED]", true⟩

/-- `NewScrubber`: run the options, then append the built-in rule when it is included. -/
def newScrubber (lower : Char → Char) (opts : List (Option (ScrubberOption σ))) : Scrubber σ :=
  let s := applyOptions opts
  if s.includeDefaults then
    { s with rules := s.rules ++ defaultSensitiveRules lower s.defaultReplacement }
  else s

/-- `AddRules` on a non-`nil` scrubber: append rules. -/
def Scrubber.addRules (s : Scrubber σ) (rules : List (Rule σ)) : Scrubber σ :=
  if rules.isEmpty then s else { s with rules := s.rules ++ rules }

/-- The rules of a scrubber built by `NewScrubber` with the defaults enabled: the option rules,
then the built-in rule. -/
theorem newScrubber_rules_of_includeDefaults (lower : Char → Char)
    (opts : List (Option (ScrubberOption σ))) (h : (applyOptions opts).includeDefaults = true) :
    (newScrubber lower opts).rules =
      (applyOptions opts).rules ++
        defaultSensitiveRules lower (applyOptions opts).defaultReplacement := by
  simp [newScrubber, h]

@[simp] theorem Scrubber.addRules_rules (s : Scrubber σ) (rules : List (Rule σ)) :
    (s.addRules rules).rules = s.rules ++ rules := by
  unfold Scrubber.addRules
  split <;> simp_all

/-! ## The traversal -/

/-- The synthetic key of element `i` of a `[]string`: `fmt.Sprintf("[%d]", i)`. -/
def indexKey (i : Nat) : String :=
  "[" ++ toString i ++ "]"

section Traversal

variable [ToString σ] (rules : List (Rule σ))

/-- One field of a container: run the rules on it and install the match through `coerce`, or,
when no rule fired, the traversal's result `descend`. -/
def scrubField {α : Type} (ctx : FieldContext σ) (coerce : Value σ → α) (descend : α) : α :=
  match applyRules rules ctx with
  | some replaced => coerce replaced
  | none => descend

/-- The `map[string]string` branch. -/
def scrubFlatEntries (path : List String) : List (String × String) → List (String × String)
  | [] => []
  | (k, val) :: rest =>
    (k, scrubField rules ⟨path ++ [k], k, .str val⟩ Value.toString (Value.str val : Value σ).toString)
      :: scrubFlatEntries path rest

/-- The `map[string][]string` branch: a matched header through `toStringSlice`; an unmatched
header element by element through `scrubValue`, which returns each string unchanged. -/
def scrubHeaderEntries (path : List String) :
    List (String × List String) → List (String × List String)
  | [] => []
  | (k, vals) :: rest =>
    (k, scrubField rules ⟨path ++ [k], k, .stringList vals⟩ (·.toStringSlice vals.length)
        (vals.map fun item => (Value.str item : Value σ).toString))
      :: scrubHeaderEntries path rest

/-- The `[]string` branch from element `i` on: every element is a field keyed `[i]`. -/
def scrubStrings (path : List String) (i : Nat) : List String → List String
  | [] => []
  | val :: rest =>
    scrubField rules ⟨path ++ [indexKey i], indexKey i, .str val⟩ Value.toString
        (Value.str val : Value σ).toString
      :: scrubStrings path (i + 1) rest

mutual
/-- `scrubValue` (scrubber.go). -/
def scrubValue (path : List String) : Value σ → Value σ
  | .object v => .object (scrubEntries path v)
  | .stringMap v => .stringMap (scrubFlatEntries rules path v)
  | .stringListMap v => .stringListMap (scrubHeaderEntries rules path v)
  | .stringList v => .stringList (scrubStrings rules path 0 v)
  | .list v => .list (scrubItems path v)
  | value => value
/-- The `map[string]any` branch. -/
def scrubEntries (path : List String) : List (String × Value σ) → List (String × Value σ)
  | [] => []
  | (k, val) :: rest =>
    (k, scrubField rules ⟨path ++ [k], k, val⟩ id (scrubValue (path ++ [k]) val))
      :: scrubEntries path rest
/-- The `[]any` branch: elements are traversed at the list's own path. -/
def scrubItems (path : List String) : List (Value σ) → List (Value σ)
  | [] => []
  | val :: rest => scrubValue path val :: scrubItems path rest
end

/-- `scrubValue` on a string takes its `default` branch. -/
@[simp] theorem scrubValue_str (path : List String) (s : String) :
    scrubValue rules path (.str s : Value σ) = .str s := by
  simp [scrubValue]

/-! ## Each branch, entry by entry -/

theorem scrubEntries_eq_map (path : List String) (es : List (String × Value σ)) :
    scrubEntries rules path es =
      es.map fun e => (e.1, scrubField rules ⟨path ++ [e.1], e.1, e.2⟩ id
        (scrubValue rules (path ++ [e.1]) e.2)) := by
  induction es with
  | nil => simp [scrubEntries]
  | cons e rest ih => simp [scrubEntries, ih]

theorem scrubItems_eq_map (path : List String) (xs : List (Value σ)) :
    scrubItems rules path xs = xs.map (scrubValue rules path) := by
  induction xs with
  | nil => simp [scrubItems]
  | cons x rest ih => simp [scrubItems, ih]

theorem scrubFlatEntries_eq_map (path : List String) (es : List (String × String)) :
    scrubFlatEntries rules path es =
      es.map fun e => (e.1, scrubField rules ⟨path ++ [e.1], e.1, .str e.2⟩ Value.toString e.2) := by
  induction es with
  | nil => simp [scrubFlatEntries]
  | cons e rest ih => simp [scrubFlatEntries, ih]

theorem scrubHeaderEntries_eq_map (path : List String) (es : List (String × List String)) :
    scrubHeaderEntries rules path es =
      es.map fun e => (e.1, scrubField rules ⟨path ++ [e.1], e.1, .stringList e.2⟩
        (·.toStringSlice e.2.length) e.2) := by
  induction es with
  | nil => simp [scrubHeaderEntries]
  | cons e rest ih => simp [scrubHeaderEntries, ih]

theorem scrubStrings_getElem? (path : List String) (j : Nat) (xs : List String) (i : Nat) :
    (scrubStrings rules path j xs)[i]? = xs[i]?.map fun x =>
      scrubField rules ⟨path ++ [indexKey (j + i)], indexKey (j + i), .str x⟩ Value.toString x := by
  induction xs generalizing i j with
  | nil => simp [scrubStrings]
  | cons x rest ih =>
    cases i with
    | zero => simp [scrubStrings]
    | succ i => simp [scrubStrings, ih, Nat.add_assoc, Nat.add_comm 1 i]

@[simp] theorem length_scrubStrings (path : List String) (j : Nat) (xs : List String) :
    (scrubStrings rules path j xs).length = xs.length := by
  induction xs generalizing j with
  | nil => simp [scrubStrings]
  | cons x rest ih => simp [scrubStrings, ih]

/-- The traversal keeps every container's kind and key list or length. -/
theorem shape_scrubValue (path : List String) (v : Value σ) :
    (scrubValue rules path v).shape = v.shape := by
  cases v <;> simp [scrubValue, Value.shape, scrubEntries_eq_map, scrubItems_eq_map,
    scrubFlatEntries_eq_map, scrubHeaderEntries_eq_map, Function.comp_def]

/-- The traversal returns leaves unchanged. -/
theorem scrubValue_of_isLeaf {v : Value σ} (path : List String) (h : v.IsLeaf) :
    scrubValue rules path v = v := by
  cases v <;> first | rfl | exact h.elim

end Traversal

/-! ## Entry points -/

section EntryPoints

variable [ToString σ]

/-- `Scrub`: a `nil` scrubber (`none`) returns the value unchanged. -/
def scrub : Option (Scrubber σ) → Value σ → Value σ
  | none, value => value
  | some s, value => scrubValue s.rules [] value

/-- `ScrubMap`: the scrubbed object, or the input when the result is not an object. -/
def scrubMap : Option (Scrubber σ) → List (String × Value σ) → List (String × Value σ)
  | none, data => data
  | some s, data =>
    match scrubValue s.rules [] (.object data) with
    | .object res => res
    | _ => data

/-- `cloneTags` (base_recorder.go): a copy of the map (`nil` when empty). -/
def cloneTags (tags : List (String × String)) : List (String × String) :=
  tags

/-- `ScrubStringMap`: promote the clone to `map[string]any`, traverse it, and render every
resulting value with `toString`. -/
def scrubStringMap (s : Option (Scrubber σ)) (data : List (String × String)) :
    List (String × String) :=
  let cloned := cloneTags data
  match s with
  | none => cloned
  | some s =>
    if cloned.isEmpty then cloned
    else
      match scrubValue s.rules [] (.object (cloned.map fun e => (e.1, .str e.2))) with
      | .object result => result.map fun e => (e.1, e.2.toString)
      | _ => cloned

end EntryPoints

end Recorder
