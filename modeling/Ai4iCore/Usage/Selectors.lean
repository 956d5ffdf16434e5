import Ai4iCore.Base.PromqlSelector
import Mathlib

/-!
# The selectors of metering queries

`build_base_selectors` and `escape_label_value` (metering_promql_builder.py): the text of a selector
from the arguments of a metering query, and what Prometheus reads in it
(`base_selectors_parse`).

The tenant is scoped by its id where it is given, and by its name only where it is not. The id, the
name and the authentication type are escaped, which leaves newlines alone; the service id is put
between the quotes as it is, and the authentication type is read as a regular expression.
-/

namespace Ai4iCore.Usage.Selectors

open PromqlSelector (Text Op Matcher Body Plain Renders parseSelector)

/-! ## The builder -/

/-- `str.replace` of one character. -/
def replaceChar (old : Char) (new : Text) (t : Text) : Text :=
  t.flatMap fun c => if c = old then new else [c]

/-- `escape_label_value`. -/
def escapeLabelValue (value : Text) : Text :=
  replaceChar '"' ['\\', '"'] (replaceChar '\\' ['\\', '\\'] value)

/-- `f'{label}{op}"{body}"'`. -/
def selector (label : Text) (op : Op) (body : Text) : Text :=
  label ++ (op.text ++ '"' :: (body ++ ['"']))

/-- `INFERENCE_ENDPOINT_REGEX`. -/
def inferenceEndpointRegex : Text := "(.*/inference|/api/v1/chat(/completions)?)".toList

def tenantLabel : Text := ['t', 'e', 'n', 'a', 'n', 't']

def tenantIdLabel : Text := tenantLabel ++ ['_', 'i', 'd']

def serviceIdLabel : Text := ['s', 'e', 'r', 'v', 'i', 'c', 'e', '_', 'i', 'd']

def authTypeLabel : Text := ['a', 'u', 't', 'h', '_', 't', 'y', 'p', 'e']

def unknown : Text := ['u', 'n', 'k', 'n', 'o', 'w', 'n']

/-- The arguments of `build_base_selectors`. -/
structure Arguments where
  inferenceOnly : Bool := true
  tenant : Option Text := none
  serviceId : Option Text := none
  extra : List Text := []
  endpointRegex : Option Text := none
  tenantId : Option Text := none
  authType : Option Text := none
  deriving DecidableEq, Repr

/-- An argument that is not falsy. -/
def given (argument : Option Text) : Option Text := argument.filter (· ≠ [])

/-- `endpoint_regex or INFERENCE_ENDPOINT_REGEX`. -/
def Arguments.regex (a : Arguments) : Text := (given a.endpointRegex).getD inferenceEndpointRegex

/-- The list `selectors`. -/
def selectors (pathLabel : Text) (a : Arguments) : List Text :=
  selector tenantLabel .notEqual unknown ::
    ((if a.inferenceOnly then [selector pathLabel .regex a.regex] else []) ++
      (match given a.tenantId, given a.tenant with
        | some tenantId, _ => [selector tenantIdLabel .equal (escapeLabelValue tenantId)]
        | none, some tenant => [selector tenantLabel .equal (escapeLabelValue tenant)]
        | none, none => []) ++
      ((given a.serviceId).map (selector serviceIdLabel .equal)).toList ++
      ((given a.authType).map fun authType =>
        selector authTypeLabel .regex (escapeLabelValue authType ++ ['|'])).toList ++
      a.extra)

/-- `build_base_selectors`. -/
def buildBaseSelectors (pathLabel : Text) (a : Arguments) : Text :=
  '\x7b' :: (List.intercalate [','] (selectors pathLabel a) ++ ['\x7d'])

/-! ## What is meant -/

/-- The matchers that do not come from the four arguments. -/
def baseMatchers (pathLabel : Text) (a : Arguments) : List Matcher :=
  ⟨tenantLabel, .notEqual, unknown⟩ ::
    if a.inferenceOnly then [⟨pathLabel, .regex, a.regex⟩] else []

/-- The tenant by its id, or by its name where no id is given. -/
def tenantMatcher (a : Arguments) : Option Matcher :=
  match given a.tenantId, given a.tenant with
  | some tenantId, _ => some ⟨tenantIdLabel, .equal, tenantId⟩
  | none, some tenant => some ⟨tenantLabel, .equal, tenant⟩
  | none, none => none

def serviceMatcher (a : Arguments) : Option Matcher :=
  (given a.serviceId).map (⟨serviceIdLabel, .equal, ·⟩)

def authTypeMatcher (a : Arguments) : Option Matcher :=
  (given a.authType).map fun authType => ⟨authTypeLabel, .regex, authType ++ ['|']⟩

/-- One matcher for each argument, beside those of the builder and its caller. -/
def intended (pathLabel : Text) (a : Arguments) (extra : List Matcher) : List Matcher :=
  baseMatchers pathLabel a ++ (tenantMatcher a).toList ++ (serviceMatcher a).toList ++
    (authTypeMatcher a).toList ++ extra

/-- A series by its labels, empty where it has none. -/
abbrev Series := Text → Text

/-- What an anchored regular expression matches, `none` where it is not one. -/
abbrev Regex := Text → Option (Text → Bool)

def selects (regex : Regex) (series : Series) (m : Matcher) : Bool :=
  match m.op with
  | .equal => series m.label = m.value
  | .notEqual => series m.label ≠ m.value
  | .regex => (regex m.value).any fun matches_ => matches_ (series m.label)
  | .notRegex => (regex m.value).any fun matches_ => !matches_ (series m.label)

/-- The characters that stand for something else in a regular expression. -/
def isMeta (c : Char) : Bool :=
  c ∈ ['\\', '.', '+', '*', '?', '(', ')', '|', '[', ']', '\x7b', '\x7d', '^', '$']

/-- Alternatives without such characters match themselves. -/
def ReadsAlternatives (regex : Regex) : Prop :=
  ∀ words : List Text, words ≠ [] → (∀ word ∈ words, ∀ c ∈ word, isMeta c = false) →
    regex (List.intercalate ['|'] words) = some fun text => words.contains text

/-- Arguments that the escaping is up to: no newlines, nothing to escape in a service id, and
nothing but itself in an authentication type. -/
structure Clean (pathLabel : Text) (a : Arguments) : Prop where
  pathLabel : PromqlSelector.isName pathLabel = true
  regex : ∀ c ∈ a.regex, Plain c
  tenantId : ∀ tenantId, a.tenantId = some tenantId → '\n' ∉ tenantId
  tenant : ∀ tenant, a.tenant = some tenant → '\n' ∉ tenant
  serviceId : ∀ serviceId, a.serviceId = some serviceId → ∀ c ∈ serviceId, Plain c
  authType : ∀ authType, a.authType = some authType →
    ∀ c ∈ authType, c ≠ '\n' ∧ isMeta c = false

/-! ## Escaping -/

/-- What a character is escaped to. -/
def escapeChar (c : Char) : Text := if c = '"' ∨ c = '\\' then ['\\', c] else [c]

theorem escapeLabelValue_eq (value : Text) : escapeLabelValue value = value.flatMap escapeChar := by
  unfold escapeLabelValue replaceChar
  rw [List.flatMap_assoc]
  congr 1
  funext c
  unfold escapeChar
  by_cases hslash : c = '\\'
  · rw [hslash]
    decide
  · by_cases hquote : c = '"'
    · rw [hquote]
      decide
    · simp [hslash, hquote]

/-- An escaped value is read as itself. -/
theorem body_escapeLabelValue {value : Text} (h : '\n' ∉ value) :
    Body (escapeLabelValue value) value := by
  rw [escapeLabelValue_eq]
  refine PromqlSelector.body_flatMap fun c hc => ?_
  unfold escapeChar
  split
  · rename_i hspecial
    exact PromqlSelector.body_escaped hspecial
  · rename_i hplain
    rw [not_or] at hplain
    exact Plain.body ⟨hplain.1, hplain.2, fun hnewline => h (hnewline ▸ hc)⟩

theorem given_eq_some {argument : Option Text} {value : Text} (h : given argument = some value) :
    argument = some value ∧ value ≠ [] := by
  cases argument with
  | none => cases h
  | some text =>
    simp only [given, Option.filter_some] at h
    split at h
    · rename_i hne
      obtain rfl := Option.some.inj h
      exact ⟨rfl, by simpa using hne⟩
    · cases h

theorem written_selector {label : Text} (hname : PromqlSelector.isName label = true) (op : Op)
    {body value : Text} (h : Body body value) :
    Renders (selector label op body) ⟨label, op, value⟩ :=
  ⟨hname, body, h, rfl⟩

/-- The builder's own expression needs no escapes. -/
theorem plain_inferenceEndpointRegex : ∀ c ∈ inferenceEndpointRegex, Plain c := by
  have h : (inferenceEndpointRegex.all fun c => decide (Plain c)) = true := by decide +kernel
  intro c hc
  exact of_decide_eq_true (List.all_eq_true.mp h c hc)

/-! ## Every selector is the matcher that is meant -/

section Renders

variable {pathLabel : Text} {a : Arguments}

theorem written_unknown :
    Renders (selector tenantLabel .notEqual unknown) ⟨tenantLabel, .notEqual, unknown⟩ :=
  written_selector (by decide) _ (PromqlSelector.body_plain (by simp [unknown, Plain]))

theorem Clean.written_base (h : Clean pathLabel a) :
    List.Forall₂ Renders (if a.inferenceOnly then [selector pathLabel .regex a.regex] else [])
      (if a.inferenceOnly then [⟨pathLabel, .regex, a.regex⟩] else []) := by
  split
  · exact .cons (written_selector h.pathLabel _ (PromqlSelector.body_plain h.regex)) .nil
  · exact .nil

theorem Clean.written_tenant (h : Clean pathLabel a) :
    List.Forall₂ Renders
      (match given a.tenantId, given a.tenant with
        | some tenantId, _ => [selector tenantIdLabel .equal (escapeLabelValue tenantId)]
        | none, some tenant => [selector tenantLabel .equal (escapeLabelValue tenant)]
        | none, none => [])
      (tenantMatcher a).toList := by
  unfold tenantMatcher
  cases hid : given a.tenantId with
  | some tenantId =>
    exact .cons (written_selector (by decide) _
      (body_escapeLabelValue (h.tenantId tenantId (given_eq_some hid).1))) .nil
  | none =>
    cases htenant : given a.tenant with
    | some tenant =>
      exact .cons (written_selector (by decide) _
        (body_escapeLabelValue (h.tenant tenant (given_eq_some htenant).1))) .nil
    | none => exact .nil

theorem Clean.written_service (h : Clean pathLabel a) :
    List.Forall₂ Renders ((given a.serviceId).map (selector serviceIdLabel .equal)).toList
      (serviceMatcher a).toList := by
  unfold serviceMatcher
  cases hgiven : given a.serviceId with
  | none => exact .nil
  | some serviceId =>
    exact .cons (written_selector (by decide) _
      (PromqlSelector.body_plain (h.serviceId serviceId (given_eq_some hgiven).1))) .nil

theorem Clean.written_authType (h : Clean pathLabel a) :
    List.Forall₂ Renders
      ((given a.authType).map fun authType =>
        selector authTypeLabel .regex (escapeLabelValue authType ++ ['|'])).toList
      (authTypeMatcher a).toList := by
  unfold authTypeMatcher
  cases hgiven : given a.authType with
  | none => exact .nil
  | some authType =>
    have hclean := h.authType authType (given_eq_some hgiven).1
    have hbody : Body (escapeLabelValue authType ++ ['|']) (authType ++ ['|']) :=
      (body_escapeLabelValue fun hnewline => (hclean _ hnewline).1 rfl).append
        (Plain.body (by decide))
    exact .cons (written_selector (by decide) _ hbody) .nil

/-- **The text of a selector is read as the matchers that are meant.** -/
theorem Clean.parse (h : Clean pathLabel a) {extra : List Matcher}
    (hextra : List.Forall₂ Renders a.extra extra) :
    parseSelector (buildBaseSelectors pathLabel a) = some (intended pathLabel a extra) := by
  have hrest := List.rel_append (List.rel_append (List.rel_append (List.rel_append h.written_base
    h.written_tenant) h.written_service) h.written_authType) hextra
  have hread := PromqlSelector.parseSelector_join written_unknown hrest
  simpa only [buildBaseSelectors, selectors, intended, baseMatchers, List.cons_append] using hread

end Renders

/-! ## What is selected -/

section Selected

variable {regex : Regex} {series : Series}

theorem selects_tenant_iff (a : Arguments) :
    (∀ m ∈ (tenantMatcher a).toList, selects regex series m = true) ↔
      (∀ tenantId, given a.tenantId = some tenantId → series tenantIdLabel = tenantId) ∧
      (given a.tenantId = none →
        ∀ tenant, given a.tenant = some tenant → series tenantLabel = tenant) := by
  unfold tenantMatcher
  cases hid : given a.tenantId with
  | some tenantId => simp [selects]
  | none => cases htenant : given a.tenant <;> simp [selects]

theorem selects_service_iff (a : Arguments) :
    (∀ m ∈ (serviceMatcher a).toList, selects regex series m = true) ↔
      ∀ serviceId, given a.serviceId = some serviceId → series serviceIdLabel = serviceId := by
  unfold serviceMatcher
  cases hservice : given a.serviceId <;> simp [selects]

theorem selects_authType_iff (hregex : ReadsAlternatives regex) {pathLabel : Text} {a : Arguments}
    (h : Clean pathLabel a) :
    (∀ m ∈ (authTypeMatcher a).toList, selects regex series m = true) ↔
      ∀ authType, given a.authType = some authType →
        series authTypeLabel = authType ∨ series authTypeLabel = [] := by
  unfold authTypeMatcher
  cases hauth : given a.authType with
  | none => simp
  | some authType =>
    have hclean := h.authType authType (given_eq_some hauth).1
    have hread : regex (authType ++ ['|']) = some fun text => decide (text ∈ [authType, []]) := by
      have hwords := hregex [authType, []] (List.cons_ne_nil _ _) (by
        intro word hword c hc
        rcases List.mem_cons.mp hword with rfl | hword
        · exact (hclean c hc).2
        · rw [List.mem_singleton.mp hword] at hc
          cases hc)
      simpa [List.intercalate] using hwords
    simp [selects, hread]

/-- **Selectors of clean arguments select what is meant**: the text is a selector with one matcher
for each argument, and a series is selected when it passes the builder's own and its caller's
matchers and has the value of every argument. -/
theorem base_selectors_parse (hregex : ReadsAlternatives regex) {pathLabel : Text} {a : Arguments}
    (h : Clean pathLabel a) {extra : List Matcher} (hextra : List.Forall₂ Renders a.extra extra) :
    parseSelector (buildBaseSelectors pathLabel a) = some (intended pathLabel a extra) ∧
      ∀ series, (∀ m ∈ intended pathLabel a extra, selects regex series m = true) ↔
        (∀ m ∈ baseMatchers pathLabel a ++ extra, selects regex series m = true) ∧
        ((∀ tenantId, given a.tenantId = some tenantId → series tenantIdLabel = tenantId) ∧
          (given a.tenantId = none →
            ∀ tenant, given a.tenant = some tenant → series tenantLabel = tenant)) ∧
        (∀ serviceId, given a.serviceId = some serviceId → series serviceIdLabel = serviceId) ∧
        ∀ authType, given a.authType = some authType →
          series authTypeLabel = authType ∨ series authTypeLabel = [] := by
  refine ⟨h.parse hextra, fun series => ?_⟩
  have htenant : (∀ m ∈ (tenantMatcher a).toList, selects regex series m = true) ↔ _ :=
    selects_tenant_iff a
  have hservice : (∀ m ∈ (serviceMatcher a).toList, selects regex series m = true) ↔ _ :=
    selects_service_iff a
  have hauth : (∀ m ∈ (authTypeMatcher a).toList, selects regex series m = true) ↔ _ :=
    selects_authType_iff hregex h
  rw [← htenant, ← hservice, ← hauth, intended]
  simp only [List.forall_mem_append]
  tauto

end Selected

/-- Alternatives, read as literals. -/
def literals (pattern : Text) : Option (Text → Bool) :=
  some fun text => (pattern.splitOn '|').contains text

theorem readsAlternatives_literals : ReadsAlternatives literals := by
  intro words hne hwords
  have hbar : ∀ word ∈ words, '|' ∉ word := fun word hword hmem =>
    absurd (hwords word hword '|' hmem) (by decide)
  rw [literals, List.splitOn_intercalate '|' hbar hne]

/-- A tenant's name with a quote in it. -/
def byName : Arguments where
  inferenceOnly := false
  tenant := some ['A', '"', 'B']
  serviceId := some ['a', 's', 'r']
  authType := some ['k', 'e', 'y']

theorem clean_byName : Clean tenantLabel byName where
  pathLabel := by decide
  regex := plain_inferenceEndpointRegex
  tenantId := by rintro _ ⟨⟩
  tenant := by
    rintro _ ⟨⟩
    simp
  serviceId := by
    rintro _ ⟨⟩
    simp [Plain]
  authType := by
    rintro _ ⟨⟩
    simp [isMeta]

theorem base_selectors_by_name :
    parseSelector (buildBaseSelectors tenantLabel byName) =
        some [⟨tenantLabel, .notEqual, unknown⟩, ⟨tenantLabel, .equal, ['A', '"', 'B']⟩,
          ⟨serviceIdLabel, .equal, ['a', 's', 'r']⟩,
          ⟨authTypeLabel, .regex, ['k', 'e', 'y', '|']⟩] ∧
      ∀ series, (∀ m ∈ intended tenantLabel byName [], selects literals series m = true) →
        series tenantLabel = ['A', '"', 'B'] := by
  obtain ⟨hparse, hselects⟩ :=
    base_selectors_parse readsAlternatives_literals clean_byName .nil
  refine ⟨hparse, fun series hseries => ?_⟩
  exact ((hselects series).mp hseries).2.1.2 rfl _ rfl

/-- The name of a tenant is left out where the id is given, and a service id is not escaped: one
that ends its literal adds a matcher. -/
theorem base_selectors_not_one_each :
    parseSelector (buildBaseSelectors tenantLabel
        { inferenceOnly := false, tenant := some ['A'], tenantId := some ['7'] }) =
      some [⟨tenantLabel, .notEqual, unknown⟩, ⟨tenantIdLabel, .equal, ['7']⟩] ∧
    parseSelector (buildBaseSelectors tenantLabel
        { inferenceOnly := false, serviceId := some ['s', '"', ',', 'm', '=', '"', 'x'] }) =
      some [⟨tenantLabel, .notEqual, unknown⟩, ⟨serviceIdLabel, .equal, ['s']⟩,
        ⟨['m'], .equal, ['x']⟩] := by
  constructor <;> decide +kernel

end Ai4iCore.Usage.Selectors
