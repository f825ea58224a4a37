import Recorder.Json.RoundTrip

/-!
# What `json.Unmarshal` makes, and that it inverts `json.Marshal` there

Decoding a payload into an `any` gives back a value of a few shapes only: maps (one iteration
order of which is its entries sorted by key, since a Go map has distinct keys), slices,
strings, float64s, booleans and `nil`, nested no deeper than the scanner allows. `Canonical n`
names those values, `n` bounding their nesting.

- `readValue_within`: Go's reader returns values within the depth it has left (one step lemma
  per reader function, then an induction on the fuel);
- `toGo_canonical`: what decode.go makes of a JSON value within `n` levels is canonical within
  `n` levels;
- `toGo_jsonOf`: decode.go turns the JSON of a canonical value back into the value;
- **`unmarshal_marshal`**: `json.Unmarshal(json.Marshal(v))` gives back every canonical `v`
  within the scanner's limit;
- **`unmarshal_canonical`**: and every value `json.Unmarshal` returns is such a `v`.
-/

namespace Recorder

namespace Json

theorem map_eq_ok {ε α β : Type} {f : α → β} {x : Except ε α} {b : β} :
    x.map f = .ok b ↔ ∃ a, x = .ok a ∧ f a = b := by
  cases x <;> simp [Except.map]

/-! ## The scanner's depth limit -/

section Depth

variable {fuel : Nat}

/-- Values read with `fuel` are within the depth they have left. -/
def ValuesWithin (fuel : Nat) : Prop :=
  ∀ depth bs j r, readValue true fuel depth bs = .ok (j, r) → j.Within (maxNestingDepth - depth)

/-- Members read with `fuel` are within the depth they have left. -/
def MembersWithin (fuel : Nat) : Prop :=
  ∀ depth first bs ms r, readMembers true fuel depth first bs = .ok (ms, r) →
    ∀ m ∈ ms, m.2.Within (maxNestingDepth - depth)

/-- Elements read with `fuel` are within the depth they have left. -/
def ItemsWithin (fuel : Nat) : Prop :=
  ∀ depth first bs items r, readItems true fuel depth first bs = .ok (items, r) →
    ∀ v ∈ items, v.Within (maxNestingDepth - depth)

/-- A container opened at `depth` past the check leaves one more level than its contents. -/
theorem depth_of_check {depth : Nat} (hc : ¬(true = true ∧ maxNestingDepth < depth + 1)) :
    maxNestingDepth - depth = maxNestingDepth - (depth + 1) + 1 := by
  simp at hc
  omega

theorem valuesWithin_succ (hm : MembersWithin fuel) (hi : ItemsWithin fuel) :
    ValuesWithin (fuel + 1) := by
  intro depth bs j r h
  rw [readValue] at h
  generalize skipWs bs = ws at h
  rcases ws with _ | ⟨b, rest⟩
  · cases h
  dsimp only at h
  by_cases hobj : isByte b '{' = true
  · rw [if_pos hobj] at h
    split at h
    · cases h
    · obtain ⟨_, hread, he⟩ := map_eq_ok.mp h
      cases he
      rw [depth_of_check ‹_›]
      exact .object (hm _ _ _ _ _ hread)
  rw [if_neg hobj] at h
  by_cases harr : isByte b '[' = true
  · rw [if_pos harr] at h
    split at h
    · cases h
    · obtain ⟨_, hread, he⟩ := map_eq_ok.mp h
      cases he
      rw [depth_of_check ‹_›]
      exact .array (hi _ _ _ _ _ hread)
  rw [if_neg harr] at h
  repeat' split at h
  all_goals first
    | cases h
    | obtain ⟨_, -, he⟩ := map_eq_ok.mp h
      cases he
      constructor

theorem membersWithin_succ (hv : ValuesWithin fuel) (hm : MembersWithin fuel) :
    MembersWithin (fuel + 1) := by
  intro depth first bs ms r h m hmem
  rw [readMembers] at h
  repeat' split at h
  all_goals first
    | cases h
    | skip
  · simp at hmem
  · obtain ⟨⟨ms', r'⟩, hms, he⟩ := map_eq_ok.mp h
    cases he
    rcases List.mem_cons.mp hmem with rfl | hmem
    · exact hv _ _ _ _ ‹_›
    · exact hm _ _ _ _ _ hms m hmem
  · rcases List.mem_singleton.mp hmem with rfl
    exact hv _ _ _ _ ‹_›

theorem itemsWithin_succ (hv : ValuesWithin fuel) (hi : ItemsWithin fuel) :
    ItemsWithin (fuel + 1) := by
  intro depth first bs items r h v hmem
  rw [readItems] at h
  repeat' split at h
  all_goals first
    | cases h
    | skip
  · simp at hmem
  · obtain ⟨⟨items', r'⟩, his, he⟩ := map_eq_ok.mp h
    cases he
    rcases List.mem_cons.mp hmem with rfl | hmem
    · exact hv _ _ _ _ ‹_›
    · exact hi _ _ _ _ _ his v hmem
  · rcases List.mem_singleton.mp hmem with rfl
    exact hv _ _ _ _ ‹_›

/-- **Go's reader returns values within the depth it has left**, whatever its fuel. -/
theorem readValue_within (fuel : Nat) : ValuesWithin fuel ∧ MembersWithin fuel ∧ ItemsWithin fuel := by
  induction fuel with
  | zero =>
    refine ⟨fun _ _ _ _ h => ?_, fun _ _ _ _ _ h => ?_, fun _ _ _ _ _ h => ?_⟩ <;>
      simp [readValue, readMembers, readItems] at h
  | succ fuel ih =>
    obtain ⟨hv, hm, hi⟩ := ih
    exact ⟨valuesWithin_succ hm hi, membersWithin_succ hv hm, itemsWithin_succ hv hi⟩

/-- What Go's reader accepts nests at most `maxNestingDepth` levels. -/
theorem readText_within {bs : List UInt8} {j : JsonValue} (h : readText true bs = .ok j) :
    j.Within maxNestingDepth := by
  rw [readText] at h
  split at h
  · cases h
  · split at h
    · cases h
      exact (readValue_within _).1 0 bs _ _ ‹_›
    · cases h

end Depth

/-! ## Maps with sorted keys -/

/-- The keys of a map in strictly increasing order: the entries of a Go map, whose keys are
distinct, in the order `sortedByKey` gives them. -/
def KeysSorted {α : Type} (es : List (String × α)) : Prop :=
  (es.map Prod.fst).Pairwise fun a b => Value.stringLess a b = true

section Sorted

variable {α : Type}

@[simp] theorem keysSorted_nil : KeysSorted ([] : List (String × α)) :=
  List.Pairwise.nil

theorem keysSorted_cons {e : String × α} {l : List (String × α)} :
    KeysSorted (e :: l) ↔ (∀ f ∈ l, Value.stringLess e.1 f.1) ∧ KeysSorted l := by
  simp [KeysSorted, List.pairwise_cons]

/-- A map already in key order is its own sorted form. -/
theorem sortedByKey_of_keysSorted {es : List (String × α)} (h : KeysSorted es) :
    Value.sortedByKey es = es := by
  induction es with
  | nil => rfl
  | cons e rest ih =>
    obtain ⟨hlt, hrest⟩ := keysSorted_cons.mp h
    change Value.insertByKey e (Value.sortedByKey rest) = e :: rest
    rw [ih hrest]
    cases rest with
    | nil => rfl
    | cons f rest =>
      rw [Value.insertByKey, if_neg (by rw [Value.stringLess_asymm (hlt f (List.mem_cons_self _ _))]; decide)]

theorem mem_mapInsert {e x : String × α} {l : List (String × α)} (h : x ∈ mapInsert e l) :
    x = e ∨ x ∈ l := by
  induction l with
  | nil => simpa [mapInsert] using h
  | cons f rest ih =>
    unfold mapInsert at h
    split_ifs at h
    · rcases List.mem_cons.mp h with h | h
      · exact .inl h
      · exact .inr (List.mem_cons_of_mem _ h)
    · rcases List.mem_cons.mp h with h | h
      · exact .inr (h ▸ List.mem_cons_self _ _)
      · exact (ih h).imp_right (List.mem_cons_of_mem _)
    · simpa [or_comm, or_left_comm] using h

/-- `m[k] = v` keeps a map's keys in order. -/
theorem keysSorted_mapInsert (e : String × α) {l : List (String × α)} (h : KeysSorted l) :
    KeysSorted (mapInsert e l) := by
  induction l with
  | nil => simp [mapInsert, keysSorted_cons]
  | cons f rest ih =>
    obtain ⟨hlt, hrest⟩ := keysSorted_cons.mp h
    unfold mapInsert
    split_ifs with heq hless
    · exact keysSorted_cons.mpr ⟨fun g hg => heq ▸ hlt g hg, hrest⟩
    · refine keysSorted_cons.mpr ⟨fun g hg => ?_, ih hrest⟩
      rcases mem_mapInsert hg with rfl | hg
      · exact hless
      · exact hlt g hg
    · have hef : Value.stringLess e.1 f.1 := by
        simpa [hless] using Value.stringLess_total (Ne.symm heq)
      exact keysSorted_cons.mpr ⟨fun g hg => by
        rcases List.mem_cons.mp hg with rfl | hg
        · exact hef
        · exact Value.stringLess_trans hef (hlt g hg), h⟩

/-- Inserting a key above every key of the map appends it. -/
theorem mapInsert_of_lt {e : String × α} {l : List (String × α)}
    (h : ∀ f ∈ l, Value.stringLess f.1 e.1) : mapInsert e l = l ++ [e] := by
  induction l with
  | nil => rfl
  | cons f rest ih =>
    have hf := h f (List.mem_cons_self _ _)
    have hne : f.1 ≠ e.1 := fun heq => by rw [heq, Value.stringLess_irrefl] at hf; cases hf
    rw [mapInsert, if_neg hne, if_pos hf, ih fun g hg => h g (List.mem_cons_of_mem _ hg)]
    rfl

end Sorted

/-! ## The values the decoder makes -/

/-- A value `json.Unmarshal` makes into an `any`, nesting at most `n` maps and slices. -/
inductive Canonical : Nat → Value Scalar → Prop
  | object {n : Nat} {es : List (String × Value Scalar)} :
    KeysSorted es → (∀ e ∈ es, Canonical n e.2) → Canonical (n + 1) (.object es)
  | list {n : Nat} {items : List (Value Scalar)} :
    (∀ v ∈ items, Canonical n v) → Canonical (n + 1) (.list items)
  | str (n : Nat) (s : String) : Canonical n (.str s)
  | scalar (n : Nat) (x : Scalar) : Canonical n (.scalar x)
  | null (n : Nat) : Canonical n .null

/-- A Lean string's code points are all valid, so decode.go gives it back. -/
@[simp] theorem goString_codePoints (s : String) : goString (codePoints s) = s := by
  have hid : ((fun n : Nat => if n.isValidChar then Char.ofNat n else '\uFFFD') ∘ Char.toNat) = id :=
    funext fun c => by
      simp only [Function.comp, id, if_pos (show c.toNat.isValidChar from c.valid),
        Char.ofNat_toNat]
  simp only [goString, codePoints, List.map_map, hid, List.map_id]

theorem toGoMembers_jsonOf (stack : List String) (es acc : List (String × Value Scalar))
    (hs : KeysSorted (acc ++ es)) (hv : ∀ e ∈ es, ∀ stack, toGoAt stack (jsonOf e.2) = .ok e.2) :
    toGoMembers stack (es.map fun e => (codePoints e.1, jsonOf e.2)) acc = .ok (acc ++ es) := by
  induction es generalizing acc with
  | nil => simp [toGoMembers]
  | cons e rest ih =>
    have hlt : ∀ f ∈ acc, Value.stringLess f.1 e.1 := by
      rw [KeysSorted, List.map_append, List.pairwise_append] at hs
      exact fun f hf => hs.2.2 f.1 (List.mem_map_of_mem _ hf) e.1 (List.mem_cons_self _ _)
    rw [List.map_cons, toGoMembers, hv e (List.mem_cons_self _ _)]
    dsimp only
    rw [goString_codePoints, mapInsert_of_lt hlt,
      ih (acc ++ [e]) (by simpa using hs) fun f hf => hv f (List.mem_cons_of_mem _ hf)]
    simp

theorem toGoItems_jsonOf (stack : List String) (items : List (Value Scalar))
    (hv : ∀ v ∈ items, ∀ stack, toGoAt stack (jsonOf v) = .ok v) :
    toGoItems stack (items.map jsonOf) = .ok items := by
  induction items with
  | nil => rfl
  | cons v rest ih =>
    rw [List.map_cons, toGoItems, hv v (List.mem_cons_self _ _)]
    dsimp only
    rw [ih fun w hw => hv w (List.mem_cons_of_mem _ hw)]
    rfl

/-- decode.go turns the JSON of a canonical value back into the value, wherever it stands. -/
theorem toGoAt_jsonOf {n : Nat} {v : Value Scalar} (h : Canonical n v) (stack : List String) :
    toGoAt stack (jsonOf v) = .ok v := by
  induction h generalizing stack with
  | @object n es hs _ ih =>
    rw [jsonOf_object, sortedByKey_of_keysSorted hs, toGoAt,
      toGoMembers_jsonOf stack es [] (by simpa using hs) ih]
    rfl
  | list _ ih =>
    rw [jsonOf_list, toGoAt, toGoItems_jsonOf stack _ ih]
    rfl
  | str n s => simp [jsonOf, toGoAt]
  | scalar n x =>
    cases x with
    | number x => simp [jsonOf, toGoAt, parseFloat_jsonNumber]
    | bool b => rfl
  | null n => rfl

/-- **decode.go turns the JSON of a canonical value back into the value.** -/
theorem toGo_jsonOf {n : Nat} {v : Value Scalar} (h : Canonical n v) : toGo (jsonOf v) = .ok v :=
  toGoAt_jsonOf h []

/-- The JSON of a canonical value nests as the value does. -/
theorem canonical_within {n : Nat} {v : Value Scalar} (h : Canonical n v) : (jsonOf v).Within n := by
  induction h with
  | @object n es _ _ ih =>
    rw [jsonOf_object]
    refine .object fun m hm => ?_
    obtain ⟨e, he, rfl⟩ := List.mem_map.mp hm
    exact ih e (Value.mem_sortedByKey.mp he)
  | list _ ih =>
    rw [jsonOf_list]
    refine .array fun j hj => ?_
    obtain ⟨v, hv, rfl⟩ := List.mem_map.mp hj
    exact ih v hv
  | str n s => exact .string _ _
  | scalar n x => cases x <;> constructor
  | null n => exact .null _

/-- **`json.Unmarshal(json.Marshal(v))` gives back every canonical value within the scanner's
depth limit.** -/
theorem unmarshal_marshal {v : Value Scalar} (h : Canonical maxNestingDepth v) :
    unmarshal (marshal v) = .ok v := by
  rw [unmarshal, readText_marshal true v fun _ => canonical_within h]
  exact toGo_jsonOf h

mutual
/-- What decode.go makes of a JSON value within `n` levels is canonical within `n` levels. -/
theorem toGoAt_canonical (stack : List String) : ∀ (j : JsonValue) {n : Nat} {x : Value Scalar},
    toGoAt stack j = .ok x → j.Within n → Canonical n x
  | .null, n, _, h, _ => by cases h; exact .null n
  | .bool b, n, _, h, _ => by cases h; exact .scalar n _
  | .number t, n, x, h, _ => by
    rw [toGoAt] at h
    split at h
    · cases h
      exact .scalar n _
    · cases h
  | .string s, n, _, h, _ => by cases h; exact .str n _
  | .array items, _, x, h, hw => by
    obtain ⟨n, rfl, hn⟩ := hw.of_array
    obtain ⟨xs, hxs, rfl⟩ := map_eq_ok.mp h
    exact .list (toGoItems_canonical stack items hxs hn)
  | .object members, _, x, h, hw => by
    obtain ⟨n, rfl, hn⟩ := hw.of_object
    obtain ⟨res, hres, rfl⟩ := map_eq_ok.mp h
    obtain ⟨hs, hc⟩ := toGoMembers_canonical stack members [] hres hn keysSorted_nil (by simp)
    exact .object hs hc
/-- The elements of an array. -/
theorem toGoItems_canonical (stack : List String) : ∀ (items : List JsonValue) {n : Nat}
    {xs : List (Value Scalar)}, toGoItems stack items = .ok xs → (∀ v ∈ items, v.Within n) →
      ∀ x ∈ xs, Canonical n x
  | [], _, _, h, _ => by cases h; simp
  | v :: rest, n, xs, h, hw => by
    rw [toGoItems] at h
    split at h
    · cases h
    · obtain ⟨ys, hys, rfl⟩ := map_eq_ok.mp h
      intro x hx
      rcases List.mem_cons.mp hx with rfl | hx
      · exact toGoAt_canonical stack v ‹_› (hw v (List.mem_cons_self _ _))
      · exact toGoItems_canonical stack rest hys (fun w hw' => hw w (List.mem_cons_of_mem _ hw'))
          x hx
/-- The members of an object, inserted one after another into the map built so far. -/
theorem toGoMembers_canonical (stack : List String) : ∀ (members : List (List Nat × JsonValue))
    (acc : List (String × Value Scalar)) {n : Nat} {res : List (String × Value Scalar)},
    toGoMembers stack members acc = .ok res → (∀ m ∈ members, m.2.Within n) → KeysSorted acc →
      (∀ e ∈ acc, Canonical n e.2) → KeysSorted res ∧ ∀ e ∈ res, Canonical n e.2
  | [], _, _, _, h, _, hs, hc => by cases h; exact ⟨hs, hc⟩
  | (k, v) :: rest, acc, n, res, h, hw, hs, hc => by
    rw [toGoMembers] at h
    split at h
    · cases h
    · have hv := toGoAt_canonical _ v ‹_› (hw _ (List.mem_cons_self _ _))
      refine toGoMembers_canonical stack rest _ h (fun m hm => hw m (List.mem_cons_of_mem _ hm))
        (keysSorted_mapInsert _ hs) fun e he => ?_
      rcases mem_mapInsert he with rfl | he
      · exact hv
      · exact hc e he
end

/-- **Every value `json.Unmarshal` returns is canonical within the scanner's depth limit.** -/
theorem unmarshal_canonical {bs : List UInt8} {x : Value Scalar} (h : unmarshal bs = .ok x) :
    Canonical maxNestingDepth x := by
  rw [unmarshal] at h
  split at h
  · cases h
  · exact toGoAt_canonical [] _ h (readText_within ‹_›)

/-- The members of a `map[string]string` always decode. -/
theorem toGoMembers_strings (l : List (String × String)) (acc : List (String × Value Scalar)) :
    ∃ res, toGoMembers [] (l.map fun e => (codePoints e.1, .string (codePoints e.2))) acc =
      .ok res := by
  induction l generalizing acc with
  | nil => exact ⟨acc, rfl⟩
  | cons e rest ih => exact ih _

/-- **A marshalled `map[string]string` always decodes.** -/
theorem unmarshal_marshalStringMap (m : List (String × String)) :
    ∃ x, unmarshal (marshalStringMap m) = .ok x := by
  have hw : (jsonOf (.stringMap m)).Within maxNestingDepth :=
    JsonValue.Within.mono (n := 1) (.object fun e he => by
      obtain ⟨e, -, rfl⟩ := List.mem_map.mp he
      exact .string _ _) (by decide)
  obtain ⟨res, hres⟩ := toGoMembers_strings (Value.sortedByKey m) []
  refine ⟨.object res, ?_⟩
  rw [unmarshal, marshalStringMap, readText_marshal true _ fun _ => hw]
  show (toGoMembers [] _ []).map Value.object = _
  rw [hres]
  rfl

end Json

end Recorder
