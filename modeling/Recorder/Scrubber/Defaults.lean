import Recorder.Scrubber.Headers

/-!
# Coverage of the built-in rule

The built-in rule replaces every field whose key lower-cases like a word of the sensitive
vocabulary. `NewScrubber` appends it after running its options, so it stands **after** the
rules given with `WithRules` and **before** the rules added later with `AddRules`. A caller
rule of the first kind that fires on a vocabulary field without asking to continue decides
that field, and the built-in rule never sees it (`withRules_rule_precedes_default`).

`newScrubber_defaultCovered` is what the rule order does guarantee: when every `WithRules` rule
lets vocabulary fields through (no transform, `Continue` set, or a matcher that rejects them),
and every caller transform returns a scalar as the built-in ones do, every field of the output
whose key is a vocabulary word holds the default replacement (copies of it in a header map).
The proof runs backwards from a field of the output to the field of the input it came from
(`get?_scrubbed_of_isField`), which needs that replacements create no new fields.
-/

namespace Recorder

open Node

variable {σ : Type}

/-- A key the built-in rule covers: it lower-cases like a vocabulary word. -/
def IsVocabularyKey (lower : Char → Char) (key : String) : Prop :=
  toLower lower key ∈ defaultSensitiveKeys.map (toLower lower)

instance (lower : Char → Char) (key : String) : Decidable (IsVocabularyKey lower key) :=
  inferInstanceAs (Decidable (_ ∈ _))

namespace Rule

/-- The rule lets vocabulary fields through to the rules after it: it has no transform, it
continues, or its matcher rejects every field with a vocabulary key. -/
def PassesVocabulary (lower : Char → Char) (rule : Rule σ) : Prop :=
  rule.apply = none ∨ rule.continues = true ∨
    ∀ ctx : FieldContext σ, IsVocabularyKey lower ctx.key → rule.admits ctx = false

/-- The rule's transform returns a leaf, as `ReplaceWith`, `RemoveValue`, `MaskString` and
`PreserveLengthReplacement` do. -/
def ReturnsLeaf (rule : Rule σ) : Prop :=
  ∀ f, rule.apply = some f → ∀ ctx, (f ctx).IsLeaf

end Rule

/-- `ReplaceWith` and `RemoveValue` return leaves. -/
theorem replaceWith_isLeaf (r : String) (ctx : FieldContext σ) : (replaceWith r ctx).IsLeaf :=
  trivial

theorem removeValue_isLeaf (ctx : FieldContext σ) : (removeValue ctx).IsLeaf :=
  trivial

/-! ## One field -/

section Field

variable {lower : Char → Char} {d : String} {path : List String} {key : String}

/-- The built-in rule admits every vocabulary key. -/
theorem default_admits (hk : IsVocabularyKey lower key) (v : Value σ) :
    (matchKeyInsensitive lower defaultSensitiveKeys : FieldMatcher σ) ⟨path, key, v⟩ = true := by
  rw [matchKeyInsensitive_iff, normalizeCandidates_defaultSensitiveKeys]
  exact hk

/-- On a vocabulary key, rules that pass it through followed by the built-in rule always end
with the default replacement, whatever comes after. -/
theorem applyRulesLoop_default (hk : IsVocabularyKey lower key) (post : List (Rule σ)) :
    ∀ (pre : List (Rule σ)), (∀ r ∈ pre, r.PassesVocabulary lower) →
      ∀ (current : Value σ) (matched : Bool),
        applyRulesLoop path key (pre ++ defaultSensitiveRules lower d ++ post) current matched =
          some (.str d)
  | [], _, current, _ =>
    applyRulesLoop_cons_stop (f := replaceWith d)
      (by simpa [Rule.admits] using default_admits hk current) rfl rfl
  | rule :: pre, hpre, current, matched => by
    have ih := applyRulesLoop_default hk post pre fun r hr => hpre r (List.mem_cons_of_mem _ hr)
    simp only [List.cons_append]
    by_cases hf : rule.Fires ⟨path, key, current⟩
    · obtain ⟨hadm, happ⟩ := hf
      obtain ⟨f, hfeq⟩ := Option.isSome_iff_exists.mp happ
      rcases hpre rule (List.mem_cons_self _ _) with hnone | hc | hrej
      · simp [hnone] at hfeq
      · rw [applyRulesLoop_cons_continue hadm hfeq hc]
        exact ih _ _
      · simp [hrej ⟨path, key, current⟩ hk] at hadm
    · rw [applyRulesLoop_cons_of_not_fires hf]
      exact ih _ _

/-- When every transform returns a leaf, so does every field's replacement. -/
theorem applyRulesLoop_isLeaf {rules : List (Rule σ)} (hleaf : ∀ r ∈ rules, r.ReturnsLeaf) :
    ∀ {current : Value σ} {matched : Bool} {r : Value σ}, (matched = true → current.IsLeaf) →
      applyRulesLoop path key rules current matched = some r → r.IsLeaf := by
  induction rules with
  | nil =>
    intro current matched r hcur h
    cases matched <;> simp_all
  | cons rule rest ih =>
    intro current matched r hcur h
    have hrest := fun r hr => hleaf r (List.mem_cons_of_mem rule hr)
    simp only [applyRulesLoop] at h
    split at h
    · exact ih hrest hcur h
    · split at h
      · exact ih hrest hcur h
      · rename_i f hf
        have hl : (f ⟨path, key, current⟩).IsLeaf := hleaf rule (List.mem_cons_self _ _) f hf _
        split at h
        · exact ih hrest (fun _ => hl) h
        · exact Option.some.inj h ▸ hl

end Field

/-! ## Backwards from the output -/

section Backwards

variable {rules : List (Rule σ)}

/-- A leaf has no children. -/
theorem child?_eq_none_of_isLeaf {n : Node σ} (h : n.value.IsLeaf) (i : Nat) :
    n.child? i = none := by
  obtain ⟨slot, path, key, value⟩ := n
  cases value <;> first | rfl | exact h.elim

/-- The only position below a leaf is the empty one. -/
theorem get?_of_isLeaf {n n' : Node σ} (h : n.value.IsLeaf) :
    ∀ {pos : List Nat}, n.get? pos = some n' → n' = n
  | [], hg => (Option.some.inj hg).symm
  | i :: _, hg => by simp [get?_cons, child?_eq_none_of_isLeaf h i] at hg

/-- A node's replacement is the rules' output on it. -/
theorem applyRules_of_replacement {n : Node σ} {r : Value σ} (h : n.replacement rules = some r) :
    applyRules rules ⟨n.path, n.key, n.value⟩ = some r := by
  unfold replacement at h
  split at h
  · exact h
  · cases h

variable [ToString σ]

/-- A stored leaf replacement has no field below it: the only nodes under it are the elements
of a header list. -/
theorem isField_eq_false_of_store {n n' : Node σ} {r : Value σ} (hr : r.IsLeaf) {i : Nat}
    {pos : List Nat} (h : { n with value := n.slot.store r n.value }.get? (i :: pos) = some n') :
    n'.slot.isField = false := by
  rw [get?_cons, Option.bind_eq_some] at h
  obtain ⟨c, hc, hget⟩ := h
  obtain ⟨slot, path, key, value⟩ := n
  cases slot
  case headerMember =>
    have hslot : c.slot = .headerElement ∧ c.value.IsLeaf := by
      cases value <;>
      · simp only [Slot.store, child?, Option.map_eq_some', if_true] at hc
        obtain ⟨x, -, rfl⟩ := hc
        exact ⟨rfl, trivial⟩
    rw [get?_of_isLeaf hslot.2 hget, hslot.1]
    rfl
  all_goals
    rw [child?_eq_none_of_isLeaf] at hc
    · cases hc
    · first | exact hr | exact trivial

/-- **Backward run lemma**: when every replacement is a leaf, a field of the traversal's output
is the output of a field of the input, reached across unmatched nodes only. -/
theorem get?_scrubbed_of_isField (hleaf : ∀ ctx r, applyRules rules ctx = some r → r.IsLeaf) :
    ∀ {n n' : Node σ} {pos : List Nat}, (n.scrubbed rules).get? pos = some n' →
      n'.slot.isField = true →
      ∃ t, n.get? pos = some t ∧ n.ClearAbove rules pos ∧ n' = t.scrubbed rules
  | n, _, [], h, _ => ⟨n, rfl, trivial, (Option.some.inj h).symm⟩
  | n, _, i :: _, h, hf => by
    cases hr : n.replacement rules with
    | some r =>
      rw [scrubbed_of_replacement_some rules hr] at h
      rw [isField_eq_false_of_store (hleaf _ r (applyRules_of_replacement hr)) h] at hf
      cases hf
    | none =>
      rw [get?_cons, Option.bind_eq_some] at h
      obtain ⟨c, hc, hget⟩ := h
      obtain ⟨m, hm, rfl⟩ := child?_scrubbed_inv rules hr hc
      obtain ⟨t, ht, hclear, rfl⟩ := get?_scrubbed_of_isField hleaf hget hf
      refine ⟨t, by rw [get?_cons, hm]; exact ht, ⟨hr, fun m' hm' => ?_⟩, rfl⟩
      rw [hm] at hm'
      cases hm'
      exact hclear

end Backwards

/-! ## Coverage -/

section Coverage

variable [ToString σ]

/-- What the built-in rule leaves in a field: the replacement, or copies of it in a header. -/
def HoldsReplacement (d : String) (n : Node σ) : Prop :=
  match n.slot with
  | .headerMember => ∃ k, n.value = .stringList (List.replicate k d)
  | _ => n.value = .str d

/-- Every field of `y` whose key is a vocabulary word holds the replacement `d`. -/
def DefaultCovered (lower : Char → Char) (d : String) (y : Value σ) : Prop :=
  ∀ pos n, (root y).get? pos = some n → n.slot.isField = true → IsVocabularyKey lower n.key →
    HoldsReplacement d n

/-- The default replacement, stored in any field, is held there. -/
theorem holdsReplacement_store {t : Node σ} (d : String) (hf : t.slot.isField = true) :
    HoldsReplacement d { t with value := t.slot.store (.str d) t.value } := by
  obtain ⟨slot, path, key, value⟩ := t
  cases slot <;> simp [Slot.isField] at hf <;>
    simp only [HoldsReplacement, Slot.store, Value.toString_str]
  split <;> exact ⟨_, congrArg Value.stringList (Value.toStringSlice_str d _)⟩

/-- A caller rule replacing passwords with its own text. -/
def ownPasswordRule : Rule Nat :=
  newRule "own-password" (some (matchKeyInsensitive Char.toLower ["password"]))
    (some (replaceWith "xxx"))

/-- Given through `WithRules`, `ownPasswordRule` runs before the built-in rule and decides the
field `password`, which keeps the caller's text. -/
theorem withRules_rule_precedes_default :
    ¬ DefaultCovered Char.toLower "[REDACTED]"
      (scrub (some (newScrubber Char.toLower [some (withRules [ownPasswordRule])]))
        (.object [("password", .str "secret")])) := by
  intro h
  have hheld := h [0] ⟨.member, ["password"], "password", .str "xxx"⟩ rfl rfl (by decide)
  exact absurd (Value.str.inj hheld) (by decide)

/-- **Coverage of the built-in rule**: for a scrubber built by `NewScrubber` with the defaults
enabled and further rules added with `AddRules`, when every `WithRules` rule lets vocabulary
fields through and every caller transform returns a leaf, every field of `Scrub(x)` with a
vocabulary key holds the configured default replacement. -/
theorem newScrubber_defaultCovered (lower : Char → Char) (opts : List (Option (ScrubberOption σ)))
    (post : List (Rule σ)) (hdef : (applyOptions opts).includeDefaults = true)
    (hpass : ∀ r ∈ (applyOptions opts).rules, r.PassesVocabulary lower)
    (hleaf : ∀ r ∈ (applyOptions opts).rules ++ post, r.ReturnsLeaf) (x : Value σ) :
    DefaultCovered lower (applyOptions opts).defaultReplacement
      (scrub (some ((newScrubber lower opts).addRules post)) x) := by
  set d := (applyOptions opts).defaultReplacement
  set rules := (applyOptions opts).rules ++ defaultSensitiveRules lower d ++ post
  have hrules : ((newScrubber lower opts).addRules post).rules = rules := by
    simp [newScrubber_rules_of_includeDefaults lower opts hdef, rules, d]
  have hall : ∀ r ∈ rules, r.ReturnsLeaf := by
    intro r hr
    simp only [rules, List.mem_append] at hr
    rcases hr with (hr | hr) | hr
    · exact hleaf r (List.mem_append_left _ hr)
    · simp only [defaultSensitiveRules, List.mem_singleton] at hr
      subst hr
      rintro f ⟨⟩ ctx
      trivial
    · exact hleaf r (List.mem_append_right _ hr)
  intro pos n hget hfield hkey
  rw [scrub, hrules, ← root_scrubbed] at hget
  obtain ⟨t, -, -, rfl⟩ := get?_scrubbed_of_isField
    (fun ctx r h => applyRulesLoop_isLeaf hall (by simp) h) hget hfield
  have htf : t.slot.isField = true := hfield
  have hrep : t.replacement rules = some (.str d) := by
    simp only [replacement, htf, if_true, applyRules]
    exact applyRulesLoop_default hkey post _ hpass _ _
  rw [scrubbed_of_replacement_some rules hrep]
  exact holdsReplacement_store d htf

/-- A chaining caller rule: it replaces every field with `"touched"` and asks to continue, so
vocabulary fields still reach the built-in rule. -/
def touchEveryFieldRule : Rule Nat :=
  ⟨"touch", none, some (replaceWith "touched"), true⟩

/-- With a chaining `WithRules` rule before the built-in rule and `ownPasswordRule` added after
it, passwords still end up with the default replacement. -/
theorem newScrubber_defaultCovered_chain :
    DefaultCovered Char.toLower "[REDACTED]"
      (scrub (some ((newScrubber Char.toLower [some (withRules [touchEveryFieldRule])]).addRules
        [ownPasswordRule])) (.object [("password", .str "secret"), ("user", .str "ann")])) :=
  newScrubber_defaultCovered Char.toLower [some (withRules [touchEveryFieldRule])] [ownPasswordRule]
    rfl (by simp [applyOptions, withRules, touchEveryFieldRule, Rule.PassesVocabulary])
    (by
      intro r hr
      have hr' : r = touchEveryFieldRule ∨ r = ownPasswordRule := by
        simpa [applyOptions, withRules] using hr
      rcases hr' with rfl | rfl <;> rintro f ⟨⟩ ctx <;> trivial)
    _

end Coverage

end Recorder
