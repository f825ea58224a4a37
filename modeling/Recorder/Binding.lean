import Recorder.BaseRecorder
import Recorder.Json.Canonical
import Recorder.Scrubber.Defaults
import Recorder.Storage.File

/-!
# The scrubber binding

`WithScrubber` installs a scrubber on a recorder as two hooks: the payload hook runs
`Scrubber.ScrubJSON` on every non-empty payload and, unless `ScrubberFailOnError` was given,
falls back to the raw payload when that fails; the tag hook runs `ScrubStringMap`, unless
`ScrubberSkipTags` was given.

`ScrubJSON` trims the payload with `bytes.TrimSpace`, decodes it with `json.Unmarshal` into an
`any`, scrubs the result and marshals it again. So what it writes is what Go decoded, not the
payload's text: escaped lone surrogates and invalid UTF-8 come back as U+FFFD, numbers as the
nearest float64, and a repeated member name keeps only its last value.

- `scrubValue_canonical`: rules that return leaves keep a decoded value decoded;
- **`scrubJSON_output_decodes`**: the output decodes to exactly `Scrub` of what Go decoded
  from the payload;
- `scrubValue_redacted`: with the built-in rule after rules that let the vocabulary through,
  every member with a vocabulary key of the scrubbed JSON holds the replacement;
- **`defaultBinding_stores_redacted`**: a recorder built with
  `New(storage, WithScrubber(NewScrubber()))` hands the storage only redacted JSON, for every
  request or response payload `json.Unmarshal` accepts and for every metrics map. A payload it
  does not accept is stored as it is (`defaultBinding_stores_undecodable`).
-/

namespace Recorder

open Json

/-! ## `ScrubJSON` and `WithScrubber` -/

/-- `Scrubber.ScrubJSON`. Marshalling the scrubbed value cannot fail on the values the model
holds, so the `encode json` error has no branch. -/
def scrubJSON : Option (Scrubber Scalar) → Bytes → Except String Bytes
  | none, data => .ok data
  | some s, data =>
    let trimmed := Json.trimSpace isSpace data
    if trimmed.isEmpty then .ok data
    else
      match unmarshal trimmed with
      | .error e => .error ("scrubber: decode json: " ++ e)
      | .ok payload => .ok (marshal (scrubValue s.rules [] payload))

/-- `scrubberBindingConfig` -/
structure ScrubberBindingConfig where
  failOnError : Bool
  scrubTags : Bool

/-- `ScrubberBindingOption` -/
abbrev ScrubberBindingOption := ScrubberBindingConfig → ScrubberBindingConfig

/-- `ScrubberFailOnError` -/
def scrubberFailOnError : ScrubberBindingOption :=
  fun cfg => { cfg with failOnError := true }

/-- `ScrubberSkipTags` -/
def scrubberSkipTags : ScrubberBindingOption :=
  fun cfg => { cfg with scrubTags := false }

/-- The binding's configuration: tags scrubbed, errors not fatal, then the options in order,
`nil` ones skipped. -/
def bindingConfig (opts : List (Option ScrubberBindingOption)) : ScrubberBindingConfig :=
  opts.foldl (fun cfg opt => match opt with | some o => o cfg | none => cfg) ⟨false, true⟩

/-- The payload hook of `WithScrubber`. -/
def scrubberPayloadHook (scrubber : Scrubber Scalar) (cfg : ScrubberBindingConfig) :
    PayloadScrubFunc :=
  fun _ payload =>
    if payload.isEmpty then .ok payload
    else
      match scrubJSON (some scrubber) payload with
      | .error e => if cfg.failOnError then .error e else .ok payload
      | .ok sanitized => .ok sanitized

/-- `WithScrubber`: nothing for a `nil` scrubber. -/
def withScrubber (scrubber : Option (Scrubber Scalar)) (opts : List (Option ScrubberBindingOption)) :
    RecorderOption :=
  fun o =>
    match scrubber with
    | none => o
    | some s =>
      let cfg := bindingConfig opts
      let o := { o with payloadScrubber := some (scrubberPayloadHook s cfg) }
      if cfg.scrubTags then { o with tagScrubber := some fun _ tags => .ok (scrubStringMap (some s) tags) }
      else o

/-! ## What `ScrubJSON` writes -/

theorem canonical_of_isLeaf {n : Nat} {v : Value Scalar} (h : v.IsLeaf) : Canonical n v := by
  cases v <;> first | exact h.elim | constructor

section Decoded

variable {rules : List (Rule Scalar)} (hleaf : ∀ r ∈ rules, r.ReturnsLeaf)
include hleaf

/-- A field's replacement under such rules is a leaf. -/
theorem applyRules_isLeaf {ctx : FieldContext Scalar} {r : Value Scalar}
    (h : applyRules rules ctx = some r) : r.IsLeaf :=
  applyRulesLoop_isLeaf hleaf (fun h => absurd h Bool.false_ne_true) h

/-- **Rules that return leaves keep a decoded value decoded**, with its nesting bound. -/
theorem scrubValue_canonical {n : Nat} {v : Value Scalar} (h : Canonical n v) (path : List String) :
    Canonical n (scrubValue rules path v) := by
  induction h generalizing path with
  | @object n es hs _ ih =>
    rw [scrubValue, scrubEntries_eq_map]
    refine .object (by simpa [KeysSorted, Function.comp_def] using hs) fun x hx => ?_
    obtain ⟨e, he, rfl⟩ := List.mem_map.mp hx
    unfold scrubField
    split
    · exact canonical_of_isLeaf (applyRules_isLeaf hleaf ‹_›)
    · exact ih e he _
  | list _ ih =>
    rw [scrubValue, scrubItems_eq_map]
    refine .list fun x hx => ?_
    obtain ⟨v, hv, rfl⟩ := List.mem_map.mp hx
    exact ih v hv _
  | str n s => exact .str n s
  | scalar n x => exact .scalar n x
  | null n => exact .null n

end Decoded

theorem unmarshal_nil : unmarshal [] = .error eofError :=
  rfl

/-- **`ScrubJSON`'s output decodes to `Scrub` of what Go decoded from the payload**, when the
rules return leaves (a float64, a bool, `nil` or a string, which a Lean string keeps valid
UTF-8; a rule returning a Go `int` or invalid UTF-8 is outside the model's values): either the
payload is blank and comes back as it is, or Go's scanner reads the trimmed payload as a JSON
value `j`, decode.go makes `x` of it, and the output decodes to the scrubbed `x`. -/
theorem scrubJSON_output_decodes (s : Scrubber Scalar) (hleaf : ∀ r ∈ s.rules, r.ReturnsLeaf)
    {data out : Bytes} (h : scrubJSON (some s) data = .ok out) :
    (Json.trimSpace isSpace data = [] ∧ out = data) ∨
      ∃ j x, readText true (Json.trimSpace isSpace data) = .ok j ∧ toGo j = .ok x ∧
        unmarshal out = .ok (scrubValue s.rules [] x) := by
  unfold scrubJSON at h
  dsimp only at h
  split_ifs at h with hblank
  · exact .inl ⟨List.isEmpty_iff.mp hblank, (Except.ok.inj h).symm⟩
  · split at h
    · cases h
    · rename_i x hx
      cases h
      have hdec := hx
      rw [unmarshal] at hdec
      split at hdec
      · cases hdec
      · exact .inr ⟨_, x, ‹_›, hdec,
          unmarshal_marshal (scrubValue_canonical hleaf (unmarshal_canonical hx) [])⟩

/-- The built-in rule returns a leaf. -/
theorem newScrubber_returnsLeaf (lower : Char → Char) :
    ∀ r ∈ (newScrubber lower [] : Scrubber Scalar).rules, r.ReturnsLeaf := by
  intro r hr f hf ctx
  simp only [newScrubber, applyOptions, List.foldl_nil, if_true, List.nil_append,
    defaultSensitiveRules, List.mem_singleton] at hr
  subst hr
  cases hf
  trivial

/-- `{"password":"x"}` -/
def passwordPayload : Bytes :=
  utf8 "\x7b\"password\":\"x\"\x7d".data

/-- `{"password":"[REDACTED]"}` -/
def redactedPasswordPayload : Bytes :=
  utf8 "\x7b\"password\":\"[REDACTED]\"\x7d".data

theorem scrubJSON_output_decodes_password :
    (Json.trimSpace isSpace passwordPayload = [] ∧ redactedPasswordPayload = passwordPayload) ∨
      ∃ j x, readText true (Json.trimSpace isSpace passwordPayload) = .ok j ∧ toGo j = .ok x ∧
        unmarshal redactedPasswordPayload =
          .ok (scrubValue (newScrubber Char.toLower [] : Scrubber Scalar).rules [] x) :=
  scrubJSON_output_decodes _ (newScrubber_returnsLeaf Char.toLower) (by rfl)

/-- `["\ud800"]`: a string holding an escaped lone surrogate, which RFC 8259 allows. -/
def loneSurrogatePayload : Bytes :=
  utf8 "[\"\\ud800\"]".data

/-- `ScrubJSON` rewrites an escaped lone surrogate as U+FFFD, which matches no rule: the output
is not the payload's JSON value although nothing in it is sensitive. -/
theorem scrubJSON_replaces_lone_surrogate :
    readText false loneSurrogatePayload = .ok (.array [.string [0xD800]]) ∧
      scrubJSON (some (newScrubber Char.toLower [])) loneSurrogatePayload =
        .ok (utf8 "[\"\uFFFD\"]".data) ∧
      readText false (utf8 "[\"\uFFFD\"]".data) = .ok (.array [.string [0xFFFD]]) :=
  ⟨rfl, rfl, rfl⟩

/-! ## Redaction -/

/-- No member of `j`, at any depth, has a key that lower-cases like a vocabulary word and a value
other than the string `replacement`. -/
inductive Redacted (lower : Char → Char) (replacement : String) : JsonValue → Prop
  | object {members : List (List Nat × JsonValue)} :
    (∀ m ∈ members, IsVocabularyKey lower (goString m.1) →
      m.2 = .string (codePoints replacement)) →
    (∀ m ∈ members, Redacted lower replacement m.2) → Redacted lower replacement (.object members)
  | array {items : List JsonValue} :
    (∀ v ∈ items, Redacted lower replacement v) → Redacted lower replacement (.array items)
  | null : Redacted lower replacement .null
  | bool (b : Bool) : Redacted lower replacement (.bool b)
  | number (t : NumberText) : Redacted lower replacement (.number t)
  | string (s : List Nat) : Redacted lower replacement (.string s)

section Redaction

variable {lower : Char → Char} {d : String}

theorem redacted_jsonOf_of_isLeaf {v : Value Scalar} (h : v.IsLeaf) : Redacted lower d (jsonOf v) := by
  cases v with
  | str s => exact .string _
  | scalar x => cases x <;> constructor
  | null => exact .null
  | _ => exact h.elim

variable {pre post : List (Rule Scalar)} (hpre : ∀ r ∈ pre, r.PassesVocabulary lower)
  (hleaf : ∀ r ∈ pre ++ defaultSensitiveRules lower d ++ post, r.ReturnsLeaf)
include hpre hleaf

/-- **With the built-in rule after rules that let the vocabulary through, every member of the
scrubbed JSON with a vocabulary key holds the replacement**, at every depth of a decoded
value. -/
theorem scrubValue_redacted {n : Nat} {v : Value Scalar} (h : Canonical n v) (path : List String) :
    Redacted lower d (jsonOf (scrubValue (pre ++ defaultSensitiveRules lower d ++ post) path v)) := by
  induction h generalizing path with
  | @object n es _ _ ih =>
    rw [scrubValue, scrubEntries_eq_map, jsonOf_object]
    refine .object (fun m hm => ?_) (fun m hm => ?_) <;>
      obtain ⟨x, hx, rfl⟩ := List.mem_map.mp hm <;>
      obtain ⟨e, he, rfl⟩ := List.mem_map.mp (Value.mem_sortedByKey.mp hx)
    · intro hk
      rw [goString_codePoints] at hk
      simp only [scrubField, applyRules,
        applyRulesLoop_default hk post pre hpre e.2 false]
      rfl
    · unfold scrubField
      split
      · exact redacted_jsonOf_of_isLeaf (applyRules_isLeaf hleaf ‹_›)
      · exact ih e he _
  | list _ ih =>
    rw [scrubValue, scrubItems_eq_map, jsonOf_list]
    refine .array fun x hx => ?_
    obtain ⟨y, hy, rfl⟩ := List.mem_map.mp hx
    obtain ⟨v, hv, rfl⟩ := List.mem_map.mp hy
    exact ih v hv _
  | str n s => exact .string _
  | scalar n x => cases x <;> constructor
  | null n => exact .null

end Redaction

/-! ## What the default binding stores -/

/-- A stored payload that reads, under RFC 8259, as a JSON text whose vocabulary members all
hold `"[REDACTED]"`. -/
def StoredRedacted (lower : Char → Char) (payload : Bytes) : Prop :=
  ∃ j, readText false payload = .ok j ∧ Redacted lower "[REDACTED]" j

section DefaultBinding

variable (lower : Char → Char) {S : Type} (storage : Storage S)

/-- The rules of `NewScrubber()`: the built-in rule alone. -/
theorem newScrubber_nil_rules :
    (newScrubber lower [] : Scrubber Scalar).rules = [] ++ defaultSensitiveRules lower "[REDACTED]" ++ [] :=
  rfl

/-- `NewScrubber()` writes decoded values back redacted. -/
theorem storedRedacted_scrub {x : Value Scalar} (hx : Canonical maxNestingDepth x) :
    StoredRedacted lower (marshal (scrubValue (newScrubber lower [] : Scrubber Scalar).rules [] x)) := by
  refine ⟨_, readText_marshal false _ fun h => absurd h Bool.false_ne_true, ?_⟩
  rw [newScrubber_nil_rules]
  exact scrubValue_redacted (fun r hr => absurd hr (List.not_mem_nil r))
    (newScrubber_nil_rules lower ▸ newScrubber_returnsLeaf lower) hx []

/-- Under the default binding, a payload that decodes is scrubbed and saved, with the tags the
tag hook returns. -/
theorem defaultBinding_scrubAndSave (s : S) (recordType what : String) (primaryID : Option String)
    (requestID : String) {payload : Bytes} (tags : Tags) {x : Value Scalar} (hne : payload ≠ [])
    (hx : unmarshal (Json.trimSpace isSpace payload) = .ok x) :
    ∃ tags', (new storage [some (withScrubber (some (newScrubber lower [])) [])]).scrubAndSave s
        recordType what primaryID requestID payload tags =
      storage.save s ⟨recordType, primaryID, requestID,
        marshal (scrubValue (newScrubber lower [] : Scrubber Scalar).rules [] x), tags'⟩ := by
  have htrim : (Json.trimSpace isSpace payload).isEmpty = false := by
    cases h : Json.trimSpace isSpace payload
    · rw [h, unmarshal_nil] at hx
      cases hx
    · rfl
  have hpay : (new storage [some (withScrubber (some (newScrubber lower [])) [])]).scrubPayload
      recordType payload = .ok (marshal (scrubValue (newScrubber lower [] : Scrubber Scalar).rules [] x)) := by
    simp only [BaseRecorder.scrubPayload, new, withScrubber, bindingConfig, scrubberPayloadHook,
      scrubJSON, List.foldl_cons, List.foldl_nil, if_true]
    simp [hne, htrim, hx]
  obtain ⟨tags', ht⟩ : ∃ tags', (new storage [some (withScrubber (some (newScrubber lower [])) [])]).prepareTags
      recordType tags = .ok tags' := by
    simp only [BaseRecorder.prepareTags, new, withScrubber, bindingConfig, List.foldl_cons,
      List.foldl_nil, if_true]
    split_ifs <;> exact ⟨_, rfl⟩
  refine ⟨tags', ?_⟩
  rw [BaseRecorder.scrubAndSave, hpay]
  dsimp only
  rw [ht]
  rfl

/-- A marshalled `map[string]string` is its own `bytes.TrimSpace`: it starts with `{` and ends
with `}`. -/
theorem trimSpace_marshalStringMap (m : List (String × String)) :
    Json.trimSpace isSpace (marshalStringMap m) = marshalStringMap m :=
  Json.trimSpace_utf8 (c := '\x7b') (d := '\x7d') (by decide) (by decide) _

/-- **A recorder built with `New(storage, WithScrubber(NewScrubber()))` hands the storage only
redacted JSON**: every `RecordRequest` or `RecordResponse` whose payload `json.Unmarshal`
accepts once trimmed, and every `RecordMetrics`, fails with the state unchanged or saves a
record whose payload reads as JSON with every vocabulary member holding `"[REDACTED]"`. -/
theorem defaultBinding_stores_redacted (s : S) :
    (∀ (recordType what : String) (primaryID : Option String) (requestID : String)
        (payload : Bytes) (tags : Tags) (x : Value Scalar),
        unmarshal (Json.trimSpace isSpace payload) = .ok x →
        (∃ e, (new storage [some (withScrubber (some (newScrubber lower [])) [])]).recordPayload
          s recordType what primaryID requestID payload tags = (.error e, s)) ∨
        ∃ rec, (new storage [some (withScrubber (some (newScrubber lower [])) [])]).recordPayload
          s recordType what primaryID requestID payload tags = storage.save s rec ∧
          StoredRedacted lower rec.payload) ∧
    ∀ (primaryID : Option String) (requestID : String) (metrics tags : Tags),
      (∃ e, (new storage [some (withScrubber (some (newScrubber lower [])) [])]).recordMetrics
        s primaryID requestID metrics tags = (.error e, s)) ∨
      ∃ rec, (new storage [some (withScrubber (some (newScrubber lower [])) [])]).recordMetrics
        s primaryID requestID metrics tags = storage.save s rec ∧ StoredRedacted lower rec.payload := by
  refine ⟨fun recordType what primaryID requestID payload tags x hx => ?_,
    fun primaryID requestID metrics tags => ?_⟩
  · unfold BaseRecorder.recordPayload
    split_ifs with hid hempty
    · exact .inl ⟨_, rfl⟩
    · exact .inl ⟨_, rfl⟩
    · obtain ⟨tags', h⟩ := defaultBinding_scrubAndSave lower storage s recordType what primaryID
        requestID tags (fun h => hempty (List.isEmpty_iff.mpr h)) hx
      exact .inr ⟨_, h, storedRedacted_scrub lower (unmarshal_canonical hx)⟩
  · unfold BaseRecorder.recordMetrics
    split_ifs with hid hempty
    · exact .inl ⟨_, rfl⟩
    · exact .inl ⟨_, rfl⟩
    · obtain ⟨x, hx⟩ := unmarshal_marshalStringMap metrics
      rw [← trimSpace_marshalStringMap] at hx
      obtain ⟨tags', h⟩ := defaultBinding_scrubAndSave lower storage s "metrics" "metrics" primaryID
        requestID tags (by simp [marshalStringMap, marshal, encode, encodeObject, encodeRune_ne_nil]) hx
      exact .inr ⟨_, h, storedRedacted_scrub lower (unmarshal_canonical hx)⟩

theorem defaultBinding_stores_redacted_password :
    unmarshal (Json.trimSpace isSpace passwordPayload) = .ok (.object [("password", .str "x")]) ∧
      ((∃ e, (new (File.storage "base")
          [some (withScrubber (some (newScrubber Char.toLower [])) [])]).recordPayload
          FileSystem.empty "request" "request" none "r" passwordPayload [] = (.error e, FileSystem.empty)) ∨
        ∃ rec, (new (File.storage "base")
          [some (withScrubber (some (newScrubber Char.toLower [])) [])]).recordPayload
          FileSystem.empty "request" "request" none "r" passwordPayload [] =
            (File.storage "base").save FileSystem.empty rec ∧ StoredRedacted Char.toLower rec.payload) :=
  ⟨rfl, (defaultBinding_stores_redacted Char.toLower (File.storage "base") FileSystem.empty).1
    "request" "request" none "r" passwordPayload [] _ rfl⟩

/-- `{"password":"x","n":1e400}`: well-formed JSON, with a number no float64 holds. -/
def overflowingPayload : Bytes :=
  utf8 "\x7b\"password\":\"x\",\"n\":1e400\x7d".data

/-- The default binding stores a well-formed payload with its password in clear when
`json.Unmarshal` rejects it: `ScrubJSON` fails on the number and the hook falls back to the raw
payload. -/
theorem defaultBinding_stores_undecodable :
    let r := new (File.storage "base") [some (withScrubber (some (newScrubber Char.toLower [])) [])]
    (∃ j, readText false overflowingPayload = .ok j ∧ ¬ Redacted Char.toLower "[REDACTED]" j) ∧
      (r.recordRequest FileSystem.empty none "r" overflowingPayload []).1 = .ok () ∧
      (r.recordRequest FileSystem.empty none "r" overflowingPayload []).2 "base/requests/r.json" =
        some overflowingPayload := by
  refine ⟨⟨_, rfl, fun h => ?_⟩, ?_, ?_⟩
  · cases h with
    | object hk _ =>
      have := hk (codePoints "password", .string (codePoints "x")) (List.mem_cons_self _ _)
        (by decide)
      simp [codePoints] at this
  · set_option exponentiation.threshold 2000 in rfl
  · set_option exponentiation.threshold 2000 in rfl

end DefaultBinding

end Recorder
