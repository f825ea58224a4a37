import Recorder.Value

/-!
# Rules, matchers and transforms

A rule pairs a matcher (`FieldMatcher`) with a transform (`ScrubFunc`) and a `Continue` flag
(scrubber.go `Rule`). `applyRules` runs a rule list over one field in order: a rule whose
matcher admits the field and which has a transform replaces the working value; unless it asks
to continue, evaluation stops there. The field counts as matched when some rule fired.

Two details of the code that later results depend on:

- a rule with no matcher (`Match == nil`) is **admitted everywhere**: the loop only skips a rule
  when `matcher != nil && !matcher(ctx)`;
- a rule with no transform never fires, whatever its matcher says.

The Unicode tables the matchers consult (`unicode.ToLower`, the simple case folding behind
`strings.EqualFold`, a compiled regular expression) belong to the Go runtime, not to this
repository; they are parameters of the matcher constructors. `unicode.IsSpace`, behind
`strings.TrimSpace`, is a short fixed list and is written out.
-/

namespace Recorder

/-- `FieldContext` (scrubber.go): where a field sits (`Path`), its key, and its current value. -/
structure FieldContext (σ : Type) where
  path : List String
  key : String
  value : Value σ

/-- `FieldMatcher`: decides whether a rule applies to a field. -/
abbrev FieldMatcher (σ : Type) := FieldContext σ → Bool

/-- `ScrubFunc`: computes a field's replacement. -/
abbrev ScrubFunc (σ : Type) := FieldContext σ → Value σ

/-- `Rule` (scrubber.go). `matcher` is the Go field `Match`, `none` when it is `nil`; `apply` is
`Apply`; `continues` is `Continue`. -/
structure Rule (σ : Type) where
  name : String
  matcher : Option (FieldMatcher σ)
  apply : Option (ScrubFunc σ)
  continues : Bool

variable {σ : Type}

namespace Rule

/-- The rule's matcher admits the field; a `nil` matcher admits every field. -/
def admits (rule : Rule σ) (ctx : FieldContext σ) : Bool :=
  rule.matcher.all (· ctx)

/-- The rule fires on a field: it is admitted and has a transform. -/
def Fires (rule : Rule σ) (ctx : FieldContext σ) : Prop :=
  rule.admits ctx = true ∧ rule.apply.isSome

end Rule

/-! ## Applying the rule list to one field -/

/-- The loop of `applyRules` over the remaining rules, threading the working value `current`
and whether a rule has fired yet. -/
def applyRulesLoop (path : List String) (key : String) :
    List (Rule σ) → Value σ → Bool → Option (Value σ)
  | [], current, matched => if matched then some current else none
  | rule :: rest, current, matched =>
    let ctx : FieldContext σ := ⟨path, key, current⟩
    if !rule.admits ctx then applyRulesLoop path key rest current matched
    else match rule.apply with
      | none => applyRulesLoop path key rest current matched
      | some f =>
        if rule.continues then applyRulesLoop path key rest (f ctx) true else some (f ctx)

/-- `applyRules` (scrubber.go): the field's replacement, or `none` when no rule fired
(Go returns `(nil, false)`). -/
def applyRules (rules : List (Rule σ)) (ctx : FieldContext σ) : Option (Value σ) :=
  applyRulesLoop ctx.path ctx.key rules ctx.value false

variable {path : List String} {key : String}

@[simp] theorem applyRulesLoop_nil (current : Value σ) (matched : Bool) :
    applyRulesLoop path key [] current matched = if matched then some current else none := rfl

/-- A rule that does not fire is passed over. -/
theorem applyRulesLoop_cons_of_not_fires {rule : Rule σ} {rest : List (Rule σ)}
    {current : Value σ} {matched : Bool} (h : ¬ rule.Fires ⟨path, key, current⟩) :
    applyRulesLoop path key (rule :: rest) current matched =
      applyRulesLoop path key rest current matched := by
  simp only [Rule.Fires, Option.isSome_iff_exists, not_and, not_exists] at h
  cases hr : rule.admits ⟨path, key, current⟩ with
  | false => simp [applyRulesLoop, hr]
  | true =>
    cases ha : rule.apply with
    | none => simp [applyRulesLoop, hr, ha]
    | some f => exact absurd ha (h hr f)

/-- A firing rule that continues hands its output on as the working value. -/
theorem applyRulesLoop_cons_continue {rule : Rule σ} {rest : List (Rule σ)}
    {current : Value σ} {matched : Bool} {f : ScrubFunc σ}
    (hadm : rule.admits ⟨path, key, current⟩ = true) (hf : rule.apply = some f)
    (hc : rule.continues = true) :
    applyRulesLoop path key (rule :: rest) current matched =
      applyRulesLoop path key rest (f ⟨path, key, current⟩) true := by
  simp [applyRulesLoop, hadm, hf, hc]

/-- A firing rule that does not continue decides the field. -/
theorem applyRulesLoop_cons_stop {rule : Rule σ} {rest : List (Rule σ)}
    {current : Value σ} {matched : Bool} {f : ScrubFunc σ}
    (hadm : rule.admits ⟨path, key, current⟩ = true) (hf : rule.apply = some f)
    (hc : rule.continues = false) :
    applyRulesLoop path key (rule :: rest) current matched = some (f ⟨path, key, current⟩) := by
  simp [applyRulesLoop, hadm, hf, hc]

/-- `unicode.IsSpace`: the Latin-1 spaces and the other `White_Space` code points. -/
def isSpace (c : Char) : Bool :=
  c ∈ ['\t', '\n', '\x0b', '\x0c', '\r', ' ', '\x85', '\xa0', '\u1680', '\u2000', '\u2001',
    '\u2002', '\u2003', '\u2004', '\u2005', '\u2006', '\u2007', '\u2008', '\u2009', '\u200a',
    '\u2028', '\u2029', '\u202f', '\u205f', '\u3000']

/-- `strings.TrimSpace`. -/
def trimSpace (s : String) : String :=
  ⟨((s.toList.dropWhile isSpace).reverse.dropWhile isSpace).reverse⟩

/-- `strings.ToLower`, given `unicode.ToLower` as `lower`. -/
def toLower (lower : Char → Char) (s : String) : String :=
  ⟨s.toList.map lower⟩

/-- The candidates of a key matcher: trimmed, blanks dropped, lower-cased. -/
def normalizeCandidates (lower : Char → Char) (keys : List String) : List String :=
  keys.filterMap fun key =>
    let trimmed := trimSpace key
    if trimmed = "" then none else some (toLower lower trimmed)

/-- The three case-insensitive key matchers differ only in how the lower-cased key is compared
with a candidate: `==`, `strings.HasPrefix`, `strings.Contains`. -/
def matchKeyBy (lower : Char → Char) (test : String → String → Bool) (keys : List String) :
    FieldMatcher σ :=
  fun ctx => (normalizeCandidates lower keys).any (test (toLower lower ctx.key))

/-- `MatchKeyInsensitive`. -/
def matchKeyInsensitive (lower : Char → Char) (keys : List String) : FieldMatcher σ :=
  matchKeyBy lower (· == ·) keys

/-- `MatchKeyPrefixInsensitive`. -/
def matchKeyPrefixInsensitive (lower : Char → Char) (prefixes : List String) : FieldMatcher σ :=
  matchKeyBy lower (fun key pre => key.startsWith pre) prefixes

/-- `MatchKeyContainsInsensitive` (`strings.Contains`, on the character lists). -/
def matchKeyContainsInsensitive (lower : Char → Char) (parts : List String) : FieldMatcher σ :=
  matchKeyBy lower (fun key part => key.toList.tails.any part.toList.isPrefixOf) parts

/-- `MatchKeyInsensitive` matches exactly the keys whose lower-cased form is a normalised
candidate. -/
theorem matchKeyInsensitive_iff (lower : Char → Char) (keys : List String)
    (ctx : FieldContext σ) :
    matchKeyInsensitive lower keys ctx = true ↔
      toLower lower ctx.key ∈ normalizeCandidates lower keys := by
  simp only [matchKeyInsensitive, matchKeyBy, List.any_eq_true, beq_iff_eq, exists_eq_right']

/-- `strings.Split(s, ".")` on a character list. -/
def splitOnDot : List Char → List String
  | [] => [""]
  | c :: rest =>
    match splitOnDot rest with
    | [] => [""]
    | seg :: segs => if c = '.' then "" :: seg :: segs else (String.push "" c ++ seg) :: segs

/-- `pathMatches`: same number of segments, and each non-`*` pattern segment equal to the path
segment under `strings.EqualFold` (given as `equalFold`). -/
def pathMatches (equalFold : String → String → Bool) (path pattern : List String) : Bool :=
  path.length == pattern.length &&
    (path.zip pattern).all fun (seg, pat) => pat == "*" || equalFold seg pat

/-- `MatchPathInsensitive`: dot-separated patterns, segments trimmed, blank patterns dropped. -/
def matchPathInsensitive (equalFold : String → String → Bool) (paths : List String) :
    FieldMatcher σ :=
  let patterns := paths.filterMap fun path =>
    let trimmed := trimSpace path
    if trimmed = "" then none else some ((splitOnDot trimmed.toList).map trimSpace)
  fun ctx => patterns.any (pathMatches equalFold ctx.path)

/-- `MatchKeyRegexp`, with the compiled expression's `MatchString` as `re`; `nil` never
matches. -/
def matchKeyRegexp (re : Option (String → Bool)) : FieldMatcher σ :=
  fun ctx => re.any (· ctx.key)

variable [ToString σ]

/-- `MatchValueRegexp`: the expression against `fmt.Sprint` of the value; a `nil` expression
or a `nil` value never matches. -/
def matchValueRegexp (re : Option (String → Bool)) : FieldMatcher σ :=
  fun ctx => match ctx.value with
    | .null => false
    | v => re.any (· v.sprint)

/-- `MatchAny`: some non-`nil` matcher admits the field. -/
def matchAny (matchers : List (Option (FieldMatcher σ))) : FieldMatcher σ :=
  fun ctx => matchers.any fun m => m.any (· ctx)

/-- `MatchAll`: every non-`nil` matcher admits the field. -/
def matchAll (matchers : List (Option (FieldMatcher σ))) : FieldMatcher σ :=
  fun ctx => matchers.all fun m => m.all (· ctx)

/-- `MatchNot`: negation, with a `nil` inner matcher never true. -/
def matchNot (matcher : Option (FieldMatcher σ)) : FieldMatcher σ :=
  fun ctx => matcher.any fun m => !m ctx

/-! ## Transforms and the default rule -/

/-- `ReplaceWith`: a constant string. -/
def replaceWith (replacement : String) : ScrubFunc σ :=
  fun _ => .str replacement

/-- `RemoveValue`: `nil`. -/
def removeValue : ScrubFunc σ :=
  fun _ => .null

/-- `NewRule`: a rule that does not continue. -/
def newRule (name : String) (matcher : Option (FieldMatcher σ)) (scrub : Option (ScrubFunc σ)) :
    Rule σ :=
  ⟨name, matcher, scrub, false⟩

/-- The built-in sensitive key vocabulary of `defaultSensitiveRules`. -/
def defaultSensitiveKeys : List String :=
  ["password", "pass", "passwd", "secret", "token", "auth", "authorization", "api_key",
    "apikey", "access_token", "refresh_token", "session", "cookie", "set-cookie"]

/-- `defaultSensitiveRules`: one rule replacing every vocabulary key with `replacement`. -/
def defaultSensitiveRules (lower : Char → Char) (replacement : String) : List (Rule σ) :=
  [⟨"default-sensitive", some (matchKeyInsensitive lower defaultSensitiveKeys),
    some (replaceWith replacement), false⟩]

/-- The vocabulary words are their own trimmed forms, so the default matcher admits exactly the
keys that lower-case like some vocabulary word. -/
theorem normalizeCandidates_defaultSensitiveKeys (lower : Char → Char) :
    normalizeCandidates lower defaultSensitiveKeys = defaultSensitiveKeys.map (toLower lower) :=
  rfl

end Recorder
