import Recorder.Scrubber.Traversal

/-!
# Laws of the scrubber as a function of its rule list

The traversal reads its rule list only through `applyRules` (`scrubValue_congr`), so two rule
lists that decide every field alike scrub every value alike. Three consequences:

- **`scrub_insert_nonFiring`**: inserting, anywhere in the list, a rule that fires on no field
  changes nothing. A rule with a `nil` matcher is not such a rule: `applyRules` skips a rule
  only when `matcher != nil && !matcher(ctx)`, so a missing matcher admits every field, and with
  a transform the rule fires everywhere (`Rule.fires_of_matcher_none`).
- **`scrub_idempotent`**: when every matcher reads only the field's path and key and every
  transform is a constant, a field's match and replacement do not depend on its value
  (`applyRules_ignoresValue`), and scrubbing twice is scrubbing once.
- **`scrubStringMap_eq_scrub`**: `ScrubStringMap`, which promotes a flat map to
  `map[string]any`, agrees with `Scrub` on the flat map.
-/

namespace Recorder

variable {σ : Type}

/-! ### Rules that fire on no field -/

/-- A rule whose matcher is `nil` and which has a transform fires on every field. -/
theorem Rule.fires_of_matcher_none (name : String) (f : ScrubFunc σ) (continues : Bool)
    (ctx : FieldContext σ) : (⟨name, none, some f, continues⟩ : Rule σ).Fires ctx :=
  ⟨rfl, rfl⟩

/-- A rule that fires on no field can be dropped from the loop, wherever it stands. -/
theorem applyRulesLoop_insert_nonFiring {rule : Rule σ} (hr : ∀ ctx, ¬ rule.Fires ctx)
    (path : List String) (key : String) (rs₂ : List (Rule σ)) :
    ∀ (rs₁ : List (Rule σ)) (current : Value σ) (matched : Bool),
      applyRulesLoop path key (rs₁ ++ rule :: rs₂) current matched =
        applyRulesLoop path key (rs₁ ++ rs₂) current matched
  | [], _, _ => applyRulesLoop_cons_of_not_fires (hr _)
  | r :: rs₁, current, matched => by
    have ih := applyRulesLoop_insert_nonFiring hr path key rs₂ rs₁
    rw [List.cons_append, List.cons_append, applyRulesLoop, applyRulesLoop]
    simp only [ih]

/-! ### Matchers that read only the field's place, constant transforms -/

/-- A matcher that reads only the field's path and key. -/
def IgnoresValue (m : FieldMatcher σ) : Prop :=
  ∀ (path : List String) (key : String) (v v' : Value σ), m ⟨path, key, v⟩ = m ⟨path, key, v'⟩

/-- A transform that returns the same value on every field. -/
def IsConstant (f : ScrubFunc σ) : Prop :=
  ∀ ctx ctx' : FieldContext σ, f ctx = f ctx'

/-- The rules of the idempotence law: the matcher, if any, reads only the field's place, and
the transform, if any, is a constant. -/
structure Rule.PlaceConstant (rule : Rule σ) : Prop where
  matcher : ∀ m ∈ rule.matcher, IgnoresValue m
  apply : ∀ f ∈ rule.apply, IsConstant f

theorem matchKeyBy_ignoresValue (lower : Char → Char) (test : String → String → Bool)
    (keys : List String) : IgnoresValue (matchKeyBy lower test keys : FieldMatcher σ) :=
  fun _ _ _ _ => rfl

theorem matchPathInsensitive_ignoresValue (equalFold : String → String → Bool)
    (paths : List String) : IgnoresValue (matchPathInsensitive equalFold paths : FieldMatcher σ) :=
  fun _ _ _ _ => rfl

theorem matchKeyRegexp_ignoresValue (re : Option (String → Bool)) :
    IgnoresValue (matchKeyRegexp re : FieldMatcher σ) :=
  fun _ _ _ _ => rfl

theorem option_any_eq {ms : List (Option (FieldMatcher σ))} (h : ∀ o ∈ ms, ∀ m ∈ o, IgnoresValue m)
    {path : List String} {key : String} {v v' : Value σ} (o) (ho : o ∈ ms) :
    o.any (· ⟨path, key, v⟩) = o.any (· ⟨path, key, v'⟩) := by
  cases o with
  | none => rfl
  | some m => exact h _ ho m rfl path key v v'

theorem option_all_eq {ms : List (Option (FieldMatcher σ))} (h : ∀ o ∈ ms, ∀ m ∈ o, IgnoresValue m)
    {path : List String} {key : String} {v v' : Value σ} (o) (ho : o ∈ ms) :
    o.all (· ⟨path, key, v⟩) = o.all (· ⟨path, key, v'⟩) := by
  cases o with
  | none => rfl
  | some m => exact h _ ho m rfl path key v v'

theorem matchAny_ignoresValue {ms : List (Option (FieldMatcher σ))}
    (h : ∀ o ∈ ms, ∀ m ∈ o, IgnoresValue m) : IgnoresValue (matchAny ms) := by
  intro path key v v'
  rw [Bool.eq_iff_iff]
  simp only [matchAny, List.any_eq_true]
  exact exists_congr fun o => and_congr_right fun ho => by rw [option_any_eq h o ho]

theorem matchAll_ignoresValue {ms : List (Option (FieldMatcher σ))}
    (h : ∀ o ∈ ms, ∀ m ∈ o, IgnoresValue m) : IgnoresValue (matchAll ms) := by
  intro path key v v'
  rw [Bool.eq_iff_iff]
  simp only [matchAll, List.all_eq_true]
  exact forall₂_congr fun o ho => by rw [option_all_eq h o ho]

theorem matchNot_ignoresValue {o : Option (FieldMatcher σ)} (h : ∀ m ∈ o, IgnoresValue m) :
    IgnoresValue (matchNot o) := by
  intro path key v v'
  cases o with
  | none => rfl
  | some m => simp only [matchNot, Option.any_some, h m rfl path key v v']

theorem replaceWith_isConstant (r : String) : IsConstant (replaceWith r : ScrubFunc σ) :=
  fun _ _ => rfl

theorem removeValue_isConstant : IsConstant (removeValue : ScrubFunc σ) :=
  fun _ _ => rfl

/-- The built-in rule is a rule of the idempotence law. -/
theorem defaultSensitiveRules_placeConstant (lower : Char → Char) (replacement : String) :
    ∀ r ∈ (defaultSensitiveRules lower replacement : List (Rule σ)), r.PlaceConstant := by
  intro r hr
  rw [defaultSensitiveRules, List.mem_singleton] at hr
  subst hr
  exact ⟨fun m hm => Option.some.inj hm ▸ matchKeyBy_ignoresValue _ _ _,
    fun f hf => Option.some.inj hf ▸ replaceWith_isConstant _⟩

theorem Rule.PlaceConstant.admits_eq {rule : Rule σ} (hr : rule.PlaceConstant)
    (path : List String) (key : String) (v v' : Value σ) :
    rule.admits ⟨path, key, v⟩ = rule.admits ⟨path, key, v'⟩ := by
  cases hm : rule.matcher with
  | none => simp [Rule.admits, hm]
  | some m => simp [Rule.admits, hm, hr.matcher m hm path key v v']

/-- A field's match and replacement do not depend on the value the loop starts from. -/
theorem applyRulesLoop_ignoresValue (path : List String) (key : String) :
    ∀ {rules : List (Rule σ)}, (∀ r ∈ rules, r.PlaceConstant) → ∀ (v v' : Value σ),
      applyRulesLoop path key rules v false = applyRulesLoop path key rules v' false
  | [], _, _, _ => rfl
  | rule :: rest, h, v, v' => by
    have hr := h rule (List.mem_cons_self _ _)
    have ih := applyRulesLoop_ignoresValue path key fun r hm => h r (List.mem_cons_of_mem _ hm)
    simp only [applyRulesLoop, hr.admits_eq path key v v']
    split
    · exact ih v v'
    · split
      · exact ih v v'
      · rename_i f hf
        rw [hr.apply f hf ⟨path, key, v⟩ ⟨path, key, v'⟩]

theorem applyRules_ignoresValue {rules : List (Rule σ)} (h : ∀ r ∈ rules, r.PlaceConstant) (path : List String)
    (key : String) (v v' : Value σ) :
    applyRules rules ⟨path, key, v⟩ = applyRules rules ⟨path, key, v'⟩ :=
  applyRulesLoop_ignoresValue path key h v v'

variable [ToString σ]

/-! ### The traversal reads its rules through `applyRules` -/

section Congr

variable {rules rules' : List (Rule σ)}

omit [ToString σ] in
theorem scrubField_congr (h : ∀ ctx, applyRules rules ctx = applyRules rules' ctx) {α : Type}
    (ctx : FieldContext σ) (coerce : Value σ → α) (descend : α) :
    scrubField rules ctx coerce descend = scrubField rules' ctx coerce descend := by
  rw [scrubField, scrubField, h]

theorem scrubStrings_congr (h : ∀ ctx, applyRules rules ctx = applyRules rules' ctx)
    (path : List String) : ∀ (i : Nat) (xs : List String),
      scrubStrings rules path i xs = scrubStrings rules' path i xs
  | _, [] => rfl
  | i, x :: xs => by rw [scrubStrings, scrubStrings, scrubField_congr h, scrubStrings_congr h path]

mutual
theorem scrubValue_congr (h : ∀ ctx, applyRules rules ctx = applyRules rules' ctx) :
    ∀ (path : List String) (v : Value σ), scrubValue rules path v = scrubValue rules' path v
  | path, .object es => by rw [scrubValue, scrubValue, scrubEntries_congr h path es]
  | path, .stringMap es => by
    simp only [scrubValue, scrubFlatEntries_eq_map, scrubField_congr h]
  | path, .stringListMap es => by
    simp only [scrubValue, scrubHeaderEntries_eq_map, scrubField_congr h]
  | path, .stringList xs => by rw [scrubValue, scrubValue, scrubStrings_congr h]
  | path, .list xs => by rw [scrubValue, scrubValue, scrubItems_congr h path xs]
  | _, .str _ | _, .scalar _ | _, .null => rfl
termination_by structural _ v => v
theorem scrubEntries_congr (h : ∀ ctx, applyRules rules ctx = applyRules rules' ctx) :
    ∀ (path : List String) (es : List (String × Value σ)),
      scrubEntries rules path es = scrubEntries rules' path es
  | _, [] => rfl
  | path, (k, v) :: rest => by
    rw [scrubEntries, scrubEntries, scrubField_congr h, scrubValue_congr h,
      scrubEntries_congr h path rest]
termination_by structural _ es => es
theorem scrubItems_congr (h : ∀ ctx, applyRules rules ctx = applyRules rules' ctx) :
    ∀ (path : List String) (xs : List (Value σ)), scrubItems rules path xs = scrubItems rules' path xs
  | _, [] => rfl
  | path, v :: rest => by rw [scrubItems, scrubItems, scrubValue_congr h, scrubItems_congr h path rest]
termination_by structural _ xs => xs
end

end Congr

/-- Inserting, at any position of the rule list, a rule that fires on no field leaves `Scrub`
unchanged on every value. A `nil` matcher admits every field, so a rule with a `nil` matcher
and a transform fires on every field. -/
theorem scrub_insert_nonFiring (rs₁ rs₂ : List (Rule σ)) (rule : Rule σ)
    (hr : ∀ ctx, ¬ rule.Fires ctx) (d : String) (includeDefaults : Bool) (x : Value σ) :
    scrub (some ⟨rs₁ ++ rule :: rs₂, d, includeDefaults⟩) x =
        scrub (some ⟨rs₁ ++ rs₂, d, includeDefaults⟩) x ∧
      ∀ (name : String) (f : ScrubFunc σ) (continues : Bool) (ctx : FieldContext σ),
        (⟨name, none, some f, continues⟩ : Rule σ).Fires ctx :=
  ⟨scrubValue_congr (fun _ => applyRulesLoop_insert_nonFiring hr _ _ rs₂ rs₁ _ _) [] x,
    Rule.fires_of_matcher_none⟩

/-- A rule with a matcher and no transform, inserted between two rules. -/
theorem scrub_insert_nonFiring_pending :
    scrub (some ⟨[newRule "a" none (some (replaceWith "A"))] ++
        ⟨"pending", some fun _ => true, none, true⟩ :: [newRule "b" none (some (replaceWith "B"))],
        "[REDACTED]", true⟩) (.object [("k", .str "v")] : Value Nat) =
      scrub (some ⟨[newRule "a" none (some (replaceWith "A"))] ++
        [newRule "b" none (some (replaceWith "B"))], "[REDACTED]", true⟩) (.object [("k", .str "v")]) ∧
    ∀ (name : String) (f : ScrubFunc Nat) (continues : Bool) (ctx : FieldContext Nat),
      (⟨name, none, some f, continues⟩ : Rule Nat).Fires ctx :=
  scrub_insert_nonFiring _ _ _ (fun _ h => by simp [Rule.Fires] at h) _ _ _

/-- A rule with a `nil` matcher and a transform, added to the empty list, rewrites the field of
a one-entry object. -/
theorem nil_matcher_rule_rewrites :
    scrub (some ⟨[⟨"partial", none, some (replaceWith "X"), false⟩], "[REDACTED]", false⟩)
        (.object [("a", .str "v")] : Value Nat) ≠
      scrub (some ⟨[], "[REDACTED]", false⟩) (.object [("a", .str "v")]) := by
  simp [scrub, scrubValue, scrubEntries, scrubField, applyRules, applyRulesLoop, Rule.admits,
    replaceWith]

/-! ### Idempotence -/

section Idempotence

variable {rules : List (Rule σ)}

omit [ToString σ] in
/-- Scrubbing a field a second time, whatever the first pass left in it, ends as the first pass
did, provided the second pass stores a replacement the same way and its descent is stable. -/
theorem scrubField_twice (h : ∀ r ∈ rules, r.PlaceConstant) {α : Type} {path : List String}
    {key : String} {v v' : Value σ} {coerce coerce' : Value σ → α} {d d' : α}
    (hc : ∀ r, applyRules rules ⟨path, key, v⟩ = some r → coerce' r = coerce r)
    (hd : applyRules rules ⟨path, key, v⟩ = none → d' = d) :
    scrubField rules ⟨path, key, v'⟩ coerce' d' = scrubField rules ⟨path, key, v⟩ coerce d := by
  rw [scrubField, scrubField, applyRules_ignoresValue h path key v' v]
  split
  · exact hc _ ‹_›
  · exact hd ‹_›

omit [ToString σ] in
/-- The field a first pass leaves, when no rule fired on it. -/
theorem scrubField_of_none {α : Type} {ctx : FieldContext σ} {coerce : Value σ → α} {d : α}
    (hn : applyRules rules ctx = none) : scrubField rules ctx coerce d = d := by
  rw [scrubField, hn]

/-- Storing a header replacement again, at the length the first store gave, changes nothing. -/
theorem toStringSlice_length_toStringSlice (r : Value σ) (n : Nat) :
    r.toStringSlice (r.toStringSlice n).length = r.toStringSlice n := by
  cases r <;> cases n <;> simp [Value.toStringSlice]

theorem scrubFlatEntries_twice (h : ∀ r ∈ rules, r.PlaceConstant) (path : List String)
    (es : List (String × String)) :
    scrubFlatEntries rules path (scrubFlatEntries rules path es) = scrubFlatEntries rules path es := by
  simp only [scrubFlatEntries_eq_map, List.map_map]
  refine List.map_congr_left fun e _ => Prod.ext rfl ?_
  dsimp only
  exact scrubField_twice h (fun _ _ => rfl) fun hn => scrubField_of_none hn

theorem scrubHeaderEntries_twice (h : ∀ r ∈ rules, r.PlaceConstant) (path : List String)
    (es : List (String × List String)) :
    scrubHeaderEntries rules path (scrubHeaderEntries rules path es) =
      scrubHeaderEntries rules path es := by
  simp only [scrubHeaderEntries_eq_map, List.map_map]
  refine List.map_congr_left fun e _ => Prod.ext rfl ?_
  dsimp only
  refine scrubField_twice h (fun r hr => ?_) fun hn => scrubField_of_none hn
  simp only [scrubField, hr, toStringSlice_length_toStringSlice]

theorem scrubStrings_twice (h : ∀ r ∈ rules, r.PlaceConstant) (path : List String) :
    ∀ (i : Nat) (xs : List String),
      scrubStrings rules path i (scrubStrings rules path i xs) = scrubStrings rules path i xs
  | _, [] => rfl
  | i, x :: xs => by
    rw [scrubStrings, scrubStrings, scrubStrings_twice h path (i + 1) xs]
    exact congrArg (· :: _) (scrubField_twice h (fun _ _ => rfl) fun hn => scrubField_of_none hn)

mutual
theorem scrubValue_twice (h : ∀ r ∈ rules, r.PlaceConstant) :
    ∀ (path : List String) (v : Value σ),
      scrubValue rules path (scrubValue rules path v) = scrubValue rules path v
  | path, .object es => by rw [scrubValue, scrubValue, scrubEntries_twice h path es]
  | path, .stringMap es => by rw [scrubValue, scrubValue, scrubFlatEntries_twice h]
  | path, .stringListMap es => by rw [scrubValue, scrubValue, scrubHeaderEntries_twice h]
  | path, .stringList xs => by rw [scrubValue, scrubValue, scrubStrings_twice h]
  | path, .list xs => by rw [scrubValue, scrubValue, scrubItems_twice h path xs]
  | _, .str _ | _, .scalar _ | _, .null => rfl
termination_by structural _ v => v
theorem scrubEntries_twice (h : ∀ r ∈ rules, r.PlaceConstant) :
    ∀ (path : List String) (es : List (String × Value σ)),
      scrubEntries rules path (scrubEntries rules path es) = scrubEntries rules path es
  | _, [] => rfl
  | path, (k, v) :: rest => by
    rw [scrubEntries, scrubEntries, scrubEntries_twice h path rest,
      scrubField_twice h (fun _ _ => rfl) fun hn =>
        (congrArg (scrubValue rules _) (scrubField_of_none hn)).trans (scrubValue_twice h _ _)]
termination_by structural _ es => es
theorem scrubItems_twice (h : ∀ r ∈ rules, r.PlaceConstant) :
    ∀ (path : List String) (xs : List (Value σ)),
      scrubItems rules path (scrubItems rules path xs) = scrubItems rules path xs
  | _, [] => rfl
  | path, v :: rest => by
    rw [scrubItems, scrubItems, scrubValue_twice h, scrubItems_twice h path rest]
termination_by structural _ xs => xs
end

end Idempotence

/-- **Scrubbing is idempotent** when every rule's matcher reads only the field's path and key
(the key and path matchers, and `MatchAny`, `MatchAll`, `MatchNot` over them) and every
transform is a constant (`ReplaceWith`, `RemoveValue`): `Scrub(Scrub(x)) = Scrub(x)` for every
value of the recognised shapes. -/
theorem scrub_idempotent (s : Scrubber σ) (hs : ∀ r ∈ s.rules, r.PlaceConstant) (x : Value σ) :
    scrub (some s) (scrub (some s) x) = scrub (some s) x :=
  scrubValue_twice hs [] x

/-- The default scrubber, on an object with a vocabulary field and an ordinary one. -/
theorem scrub_idempotent_default :
    scrub (some (newScrubber Char.toLower []))
        (scrub (some (newScrubber Char.toLower [])) (.object [("password", .str "p"), ("user", .str "u")] : Value Nat)) =
      scrub (some (newScrubber Char.toLower [])) (.object [("password", .str "p"), ("user", .str "u")]) :=
  scrub_idempotent _ (defaultSensitiveRules_placeConstant Char.toLower "[REDACTED]") _

/-! ### `ScrubStringMap` -/

theorem toString_scrubField (rules : List (Rule σ)) (ctx : FieldContext σ) (d : Value σ) :
    (scrubField rules ctx id d).toString = scrubField rules ctx Value.toString d.toString := by
  unfold scrubField
  split <;> rfl

/-- **`ScrubStringMap` agrees with `Scrub` on a flat map**: promoting the map to
`map[string]any`, traversing it and rendering every value with `toString` gives the map the
`map[string]string` branch builds, for every scrubber (a `nil` one included) and every map. -/
theorem scrubStringMap_eq_scrub (s : Option (Scrubber σ)) (m : List (String × String)) :
    scrub s (.stringMap m) = .stringMap (scrubStringMap s m) := by
  cases s with
  | none => rfl
  | some s =>
    cases m with
    | nil => rfl
    | cons e rest =>
      simp only [scrub, scrubStringMap, cloneTags, scrubValue, List.isEmpty_cons, Bool.false_eq_true, if_false,
        scrubEntries_eq_map, scrubFlatEntries_eq_map, List.map_map, Function.comp_def,
        toString_scrubField, scrubValue_str, Value.toString_str, List.nil_append]

end Recorder
