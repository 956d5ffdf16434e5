import Ai4iCore.Guardrail.InputMasking

/-!
# Policies and their scopes

Each policy names the side of a call it is enforced on. The context keeps the types of all
policies in one list and their scopes in another, and a direction is masked with all the types
as soon as one scope covers it. What a policy asks for on one side therefore depends on the
scopes of the others.

`scopes_compose_iff` says when that makes no difference. Everything is stated for a direction
`covers`, of which there are two.
-/

namespace Ai4iCore.Guardrail

/-! ## Applied policies -/

/-- A policy that applies to a request, as the context takes it in. -/
structure Applied where
  id : Int
  types : List PolicyType
  scope : Option Scope

/-- The policy's own scope covers a direction. -/
def Applied.covers (q : Applied) (direction : Scope → Bool) : Bool := q.scope.any direction

/-- The entity types of the policy in texts of a language. -/
def Applied.entities (q : Applied) (language : String) : List String :=
  q.types.flatMap fun pt => pt.entities language

/-- What a policy id brings into the context. -/
def applies (getPolicy : Int → Option Policy) (pid : Int) : Option Applied :=
  if pid = 0 then none
  else (getPolicy pid).bind fun policy =>
    if !policy.isActive || policy.category = some false || policy.subCategory = some false then none
    else policy.types.map fun types => ⟨pid, types, policy.scope⟩

/-- The policies the loop of `build_guardrail_context` applies. -/
def appliedOf (getPolicy : Int → Option Policy) (pids : List Int) : List Applied :=
  pids.filterMap (applies getPolicy)

/-- The context of some policies. -/
def contextOf (ps : List Applied) : Context where
  appliedPolicyIds := ps.map Applied.id
  policyTypes := ps.flatMap Applied.types
  scopes := ps.filterMap Applied.scope

/-- The loop adds the policies it applies to the context. -/
theorem addPolicies_eq {getPolicy : Int → Option Policy} {pids : List Int} {ctx ctx' : Context}
    (h : addPolicies getPolicy pids ctx = some ctx') :
    ctx' = { ctx with
      appliedPolicyIds := ctx.appliedPolicyIds ++ (contextOf (appliedOf getPolicy pids)).appliedPolicyIds
      policyTypes := ctx.policyTypes ++ (contextOf (appliedOf getPolicy pids)).policyTypes
      scopes := ctx.scopes ++ (contextOf (appliedOf getPolicy pids)).scopes } := by
  induction pids generalizing ctx with
  | nil =>
    cases h
    simp [contextOf, appliedOf]
  | cons pid rest ih =>
    unfold addPolicies at h
    split at h
    · rename_i hzero
      have happlies : applies getPolicy pid = none := by simp [applies, hzero]
      have hcons : appliedOf getPolicy (pid :: rest) = appliedOf getPolicy rest :=
        List.filterMap_cons_none happlies
      rw [ih h, hcons]
    · rename_i hzero
      split at h
      · cases h
      · rename_i policy hpolicy
        split at h
        · rename_i hinactive
          have happlies : applies getPolicy pid = none := by
            rw [applies, if_neg hzero, hpolicy, Option.bind_some, if_pos hinactive]
          have hcons : appliedOf getPolicy (pid :: rest) = appliedOf getPolicy rest :=
            List.filterMap_cons_none happlies
          rw [ih h, hcons]
        · rename_i hactive
          split at h
          · cases h
          · rename_i types htypes
            have happlies : applies getPolicy pid = some ⟨pid, types, policy.scope⟩ := by
              rw [applies, if_neg hzero, hpolicy, Option.bind_some, if_neg hactive, htypes]
              rfl
            have hcons : appliedOf getPolicy (pid :: rest) =
                ⟨pid, types, policy.scope⟩ :: appliedOf getPolicy rest :=
              List.filterMap_cons_some happlies
            rw [ih h, hcons]
            cases hscope : policy.scope <;> simp [contextOf]

/-- The context of a request is that of the policies that apply to it. -/
theorem buildGuardrailContext_eq {lookup : Lookup} {ctx : Context}
    (h : buildGuardrailContext lookup = some ctx) :
    ∃ app global, lookup.appPolicyIds = some app ∧ lookup.globalPolicyIds = some global ∧
      ctx = contextOf (appliedOf lookup.getPolicy (app ++ global.filter (· ∉ app))) := by
  unfold buildGuardrailContext at h
  split at h
  · rename_i app global happ hglobal
    refine ⟨app, global, happ, hglobal, ?_⟩
    rw [addPolicies_eq h]
    rfl
  · cases h

/-! ## What is masked -/

/-- The entity types `_mask` asks for in a text. -/
def askedFor (engine : Engine) (types : List PolicyType) (text : Text) : List String :=
  types.flatMap fun pt => pt.entities (languageOf engine types text)

theorem analyzeAdHoc_entityType {engine : Engine} {text : Text} {fields : List CustomField}
    {ds : List Detection} (h : analyzeAdHoc engine text fields = .ok ds) :
    ∀ d ∈ ds, ∃ cf ∈ fields, cf.entityName = d.entityType := by
  induction fields generalizing ds with
  | nil =>
    cases h
    nofun
  | cons cf fields ih =>
    unfold analyzeAdHoc at h
    split at h
    · cases h
    · rename_i spans _
      split at h
      · cases h
      · rename_i results hresults
        cases h
        intro d hd
        rcases List.mem_append.mp hd with hd | hd
        · obtain ⟨s, -, rfl⟩ := List.mem_map.mp hd
          exact ⟨cf, List.mem_cons_self, rfl⟩
        · obtain ⟨cf', hcf', hname⟩ := ih hresults d hd
          exact ⟨cf', List.mem_cons_of_mem _ hcf', hname⟩

/-- Nothing but what was asked for is replaced in a text. -/
theorem detect_entityType {engine : Engine} {types : List PolicyType} {text : Text}
    {ds : List Detection}
    (hanalyze : ∀ language entities, ∀ d ∈ engine.analyze text language entities,
      d.entityType ∈ entities) (h : detect engine types text = .ok ds) :
    ∀ d ∈ ds, d.entityType ∈ askedFor engine types text := by
  have hcustom : ∀ {results : List Detection} {recs : Recognizers},
      buildRecognizers engine types (languageOf engine types text) = .ok recs →
      analyzeAdHoc engine text recs.adHoc = .ok results →
      ∀ d ∈ results, d.entityType ∈ askedFor engine types text := by
    intro results recs hrecs hresults d hd
    unfold buildRecognizers at hrecs
    split at hrecs
    · cases hrecs
      obtain ⟨cf, hcf, hname⟩ := analyzeAdHoc_entityType hresults d hd
      obtain ⟨pt, hpt, hcf⟩ := List.mem_flatMap.mp hcf
      refine List.mem_flatMap.mpr ⟨pt, hpt, List.mem_append_left _ ?_⟩
      exact List.mem_map.mpr ⟨cf, hcf, hname⟩
    · cases hrecs
  unfold detect at h
  dsimp only at h
  split at h
  · cases h
  · rename_i recs hrecs
    split at h
    · cases h
      exact fun d hd => absurd hd List.not_mem_nil
    · split at h
      · cases h
      · rename_i results hresults
        split at h
        · cases h
          exact hcustom hrecs hresults
        · split at h
          · cases h
            intro d hd
            rcases List.mem_append.mp hd with hd | hd
            · exact hcustom hrecs hresults d hd
            · have hmodel := hanalyze _ _ d hd
              unfold buildRecognizers at hrecs
              split at hrecs
              · cases hrecs
                obtain ⟨pt, hpt, hentity⟩ := List.mem_flatMap.mp hmodel
                exact List.mem_flatMap.mpr ⟨pt, hpt, List.mem_append_right _ hentity⟩
              · cases hrecs
          · cases h

/-- What `_mask` replaces in a text is of the entity types it asks for. -/
theorem mask_replaces {engine : Engine} {types : List PolicyType} {text text' : Text}
    {mapping mapping' : EntityMapping}
    (hanalyze : ∀ language entities, ∀ d ∈ engine.analyze text language entities,
      d.entityType ∈ entities) (h : mask engine types text mapping = .ok (text', mapping')) :
    text' = text ∨ ∃ ds, (∀ d ∈ ds, d.entityType ∈ askedFor engine types text) ∧
      text' = (anonymize engine text ds mapping).1 := by
  unfold mask at h
  split at h
  · cases h
  · cases h
    exact .inl rfl
  · rename_i ds _ hds
    injection h with h
    exact .inr ⟨ds, detect_entityType hanalyze hds, by rw [h]⟩

/-- The entity types masked in a direction: those of all policies, once one of them covers
it. The guard is that of `apply_input_guardrail` and `apply_output_guardrail`. -/
def maskedIn (direction : Scope → Bool) (engine : Engine) (ps : List Applied) (text : Text) :
    List String :=
  if (contextOf ps).scopes.any direction && !(contextOf ps).policyTypes.isEmpty then
    askedFor engine (contextOf ps).policyTypes text
  else []

/-- A text that is returned to the client is changed in the entity types masked in the output
only. -/
theorem applyOutputGuardrail_replaces {engine : Engine} {ps : List Applied} {text text' : Text}
    (hanalyze : ∀ language entities, ∀ d ∈ engine.analyze text language entities,
      d.entityType ∈ entities)
    (h : applyOutputGuardrail engine text (contextOf ps) = .ok text') :
    text' = text ∨ ∃ ds, (∀ d ∈ ds, d.entityType ∈ maskedIn Scope.coversOutput engine ps text) ∧
      text' = (anonymize engine text ds []).1 := by
  unfold applyOutputGuardrail at h
  split at h
  · cases h
    exact .inl rfl
  · rename_i hguard
    have hmasked : maskedIn Scope.coversOutput engine ps text =
        askedFor engine (contextOf ps).policyTypes text := by
      rw [maskedIn, if_pos]
      simpa [Context.needsOutputMask] using hguard
    cases hmask : mask engine (contextOf ps).policyTypes text [] with
    | error e =>
      rw [hmask] at h
      cases h
    | ok r =>
      rw [hmask] at h
      cases h
      rw [hmasked]
      exact mask_replaces hanalyze hmask

/-- The messages of a request are masked with the entity types masked in the input. -/
theorem applyInputGuardrail_replaces {engine : Engine} {ps : List Applied} {payload payload' : Payload}
    {ctx' : Context} (h : applyInputGuardrail engine payload (contextOf ps) = .ok (payload', ctx')) :
    payload' = payload ∨
      (∀ text, maskedIn Scope.coversInput engine ps text =
        askedFor engine (contextOf ps).policyTypes text) ∧
      ∃ mapping, maskMessages engine (contextOf ps).policyTypes payload.messages [] =
        .ok (payload'.messages, mapping) := by
  unfold applyInputGuardrail at h
  split at h
  · cases h
    exact .inl rfl
  · rename_i hguard
    split at h
    · cases h
    · rename_i messages mapping hmask
      cases h
      refine .inr ⟨fun text => ?_, mapping, hmask⟩
      rw [maskedIn, if_pos]
      simpa [Context.needsInputMask] using hguard

/-- The language the texts are taken to be in. -/
def textLanguage (engine : Engine) (ps : List Applied) (text : Text) : String :=
  languageOf engine (contextOf ps).policyTypes text

theorem any_scopes_iff (ps : List Applied) (direction : Scope → Bool) :
    (contextOf ps).scopes.any direction = true ↔ ∃ q ∈ ps, q.covers direction = true := by
  simp only [contextOf, List.any_filterMap, List.any_eq_true]
  rfl

theorem mem_maskedIn_iff (direction : Scope → Bool) (engine : Engine) (ps : List Applied)
    (text : Text) (e : String) :
    e ∈ maskedIn direction engine ps text ↔ (∃ q ∈ ps, q.covers direction = true) ∧
      ∃ q ∈ ps, e ∈ q.entities (textLanguage engine ps text) := by
  have hentities : e ∈ askedFor engine (contextOf ps).policyTypes text ↔
      ∃ q ∈ ps, e ∈ q.entities (textLanguage engine ps text) := by
    simp only [askedFor, Applied.entities, List.mem_flatMap, textLanguage]
    constructor
    · rintro ⟨pt, hpt, he⟩
      obtain ⟨q, hq, hpt⟩ := List.mem_flatMap.mp hpt
      exact ⟨q, hq, pt, hpt, he⟩
    · rintro ⟨q, hq, pt, hpt, he⟩
      exact ⟨pt, List.mem_flatMap.mpr ⟨q, hq, hpt⟩, he⟩
  unfold maskedIn
  rw [← any_scopes_iff, ← hentities]
  by_cases hany : (contextOf ps).scopes.any direction = true
  · by_cases htypes : (contextOf ps).policyTypes = []
    · simp [htypes, askedFor]
    · simp [hany, htypes]
  · simp [hany]

/-- Nothing in the text is replaced but entities that an active policy of the application or a
global one names, and only if one of these policies covers the output. -/
def ReplacesNamed (engine : Engine) (lookup : Lookup) (text text' : Text) : Prop :=
  ∃ ps : List Applied, (∀ q ∈ ps, ∃ pid, applies lookup.getPolicy pid = some q ∧
      (pid ∈ lookup.appPolicyIds.getD [] ∨ pid ∈ lookup.globalPolicyIds.getD [])) ∧
    (text' = text ∨ ∃ ds, text' = (anonymize engine text ds []).1 ∧ ∀ d ∈ ds,
      (∃ q ∈ ps, q.covers Scope.coversOutput = true) ∧
        ∃ q ∈ ps, d.entityType ∈ q.entities (textLanguage engine ps text))

/-- What is returned to the client, from the policy ids of the request on. -/
theorem output_replaces_named {engine : Engine} {lookup : Lookup} {ctx : Context}
    {text text' : Text}
    (hanalyze : ∀ language entities, ∀ d ∈ engine.analyze text language entities,
      d.entityType ∈ entities)
    (hctx : buildGuardrailContext lookup = some ctx)
    (h : applyOutputGuardrail engine text ctx = .ok text') :
    ReplacesNamed engine lookup text text' := by
  obtain ⟨app, global, happ, hglobal, rfl⟩ := buildGuardrailContext_eq hctx
  refine ⟨appliedOf lookup.getPolicy (app ++ global.filter (· ∉ app)), fun q hq => ?_, ?_⟩
  · obtain ⟨pid, hpid, happlies⟩ := List.mem_filterMap.mp hq
    rw [happ, hglobal]
    exact ⟨pid, happlies, (List.mem_append.mp hpid).imp_right List.mem_of_mem_filter⟩
  · refine (applyOutputGuardrail_replaces hanalyze h).imp_right fun ⟨ds, hds, htext⟩ => ?_
    exact ⟨ds, htext, fun d hd => (mem_maskedIn_iff ..).mp (hds d hd)⟩

theorem output_replaces_named_phone :
    ReplacesNamed literalEngine ⟨some [1], some [], fun _ => some (phonePolicy .output)⟩
      phoneText "call <PHONE_1>".toList :=
  output_replaces_named (fun _ _ _ hd => absurd hd List.not_mem_nil) rfl (by decide +kernel)

/-! ## Composition -/

/-- In the direction exactly the entity types of the policies that cover it are masked. -/
def ExactIn (direction : Scope → Bool) (engine : Engine) (ps : List Applied) (text : Text) :
    Prop :=
  ∀ e, e ∈ maskedIn direction engine ps text ↔
    ∃ q ∈ ps, q.covers direction = true ∧ e ∈ q.entities (textLanguage engine ps text)

/-- No policy covers the direction, or those that do ask for everything the others ask for. -/
def CoveredIn (direction : Scope → Bool) (engine : Engine) (ps : List Applied) (text : Text) :
    Prop :=
  (∀ q ∈ ps, q.covers direction = false) ∨
    ∀ q ∈ ps, ∀ e ∈ q.entities (textLanguage engine ps text),
      ∃ q' ∈ ps, q'.covers direction = true ∧ e ∈ q'.entities (textLanguage engine ps text)

/-- With `p` among the policies, entity types that are not its own are masked as without it. -/
def UnaffectedIn (direction : Scope → Bool) (engine : Engine) (ps : List Applied) (p : Applied)
    (ps' : List Applied) (text : Text) : Prop :=
  ∀ e, e ∉ p.entities (textLanguage engine ps' text) →
    (e ∈ maskedIn direction engine ps text ↔ e ∈ maskedIn direction engine ps' text)

/-- The languages the text is taken to be in without and with `p` give the policies that cover
the direction the same entity types, those of `p` apart. -/
def SameEntitiesIn (direction : Scope → Bool) (engine : Engine) (ps : List Applied) (p : Applied)
    (ps' : List Applied) (text : Text) : Prop :=
  ∀ e, e ∉ p.entities (textLanguage engine ps' text) →
    ((∃ q ∈ ps, q.covers direction = true ∧ e ∈ q.entities (textLanguage engine ps text)) ↔
      ∃ q ∈ ps, q.covers direction = true ∧ e ∈ q.entities (textLanguage engine ps' text))

section Composition

variable {direction : Scope → Bool} {engine : Engine} {ps ps' : List Applied} {p : Applied}
  {text : Text}

theorem exactIn_iff : ExactIn direction engine ps text ↔ CoveredIn direction engine ps text := by
  unfold ExactIn CoveredIn
  constructor
  · intro hexact
    by_cases hany : ∃ q ∈ ps, q.covers direction = true
    · refine .inr fun q hq e he => ?_
      exact (hexact e).mp ((mem_maskedIn_iff ..).mpr ⟨hany, q, hq, he⟩)
    · refine .inl fun q hq => ?_
      rw [← Bool.not_eq_true]
      exact fun hq' => hany ⟨q, hq, hq'⟩
  · rintro hcovered e
    rw [mem_maskedIn_iff]
    constructor
    · rintro ⟨⟨q, hq, hq'⟩, r, hr, he⟩
      rcases hcovered with hnone | hall
      · rw [hnone q hq] at hq'
        cases hq'
      · exact hall r hr e he
    · rintro ⟨q, hq, hcovers, he⟩
      exact ⟨⟨q, hq, hcovers⟩, q, hq, he⟩

/-- Where both sets are masked exactly, the added policy leaves the others alone just when it
does not change what they ask for. -/
theorem unaffectedIn_iff (hadd : ps'.Perm (p :: ps)) (hexact : ExactIn direction engine ps text)
    (hexact' : ExactIn direction engine ps' text) :
    UnaffectedIn direction engine ps p ps' text ↔ SameEntitiesIn direction engine ps p ps' text := by
  unfold UnaffectedIn SameEntitiesIn
  refine forall_congr' fun e => imp_congr_right fun hp => ?_
  have hother : (∃ q ∈ ps', q.covers direction = true ∧ e ∈ q.entities (textLanguage engine ps' text)) ↔
      ∃ q ∈ ps, q.covers direction = true ∧ e ∈ q.entities (textLanguage engine ps' text) := by
    constructor
    · rintro ⟨q, hq, hcovers, he⟩
      rcases List.mem_cons.mp (hadd.mem_iff.mp hq) with rfl | hq
      · exact absurd he hp
      · exact ⟨q, hq, hcovers, he⟩
    · rintro ⟨q, hq, hcovers, he⟩
      exact ⟨q, hadd.mem_iff.mpr (List.mem_cons_of_mem _ hq), hcovers, he⟩
  rw [hexact e, hexact' e, hother]

theorem composes_iff (hadd : ps'.Perm (p :: ps)) :
    (ExactIn direction engine ps text ∧ ExactIn direction engine ps' text ∧
      UnaffectedIn direction engine ps p ps' text) ↔
      (CoveredIn direction engine ps text ∧ CoveredIn direction engine ps' text ∧
        SameEntitiesIn direction engine ps p ps' text) := by
  rw [← exactIn_iff, ← exactIn_iff]
  refine and_congr_right fun hexact => and_congr_right fun hexact' => ?_
  exact unaffectedIn_iff hadd hexact hexact'

/-- **Policy scopes.** A policy `p` is added to the applied policies `ps`. In both directions
exactly the entity types of the policies that cover it are masked, before and after, and the
addition changes nothing for the entity types that are not its own, if and only if: in both
directions, before and after, the policies that cover it ask for all that any policy asks for
unless none covers it, and the language the text is taken to be in gives the others the same
entity types as before. -/
theorem scopes_compose_iff (hadd : ps'.Perm (p :: ps)) :
    (∀ direction ∈ [Scope.coversInput, Scope.coversOutput],
      ExactIn direction engine ps text ∧ ExactIn direction engine ps' text ∧
        UnaffectedIn direction engine ps p ps' text) ↔
    (∀ direction ∈ [Scope.coversInput, Scope.coversOutput],
      CoveredIn direction engine ps text ∧ CoveredIn direction engine ps' text ∧
        SameEntitiesIn direction engine ps p ps' text) :=
  forall_congr' fun _ => imp_congr_right fun _ => composes_iff hadd

end Composition

/-- A policy for one plain string. -/
def literalPolicy (id : Int) (entity regex : String) (scope : Scope) : Applied :=
  ⟨id, [⟨"PII", [⟨entity, regex⟩], []⟩], some scope⟩

def phoneOnBoth : Applied := literalPolicy 1 "PHONE" "9876" .both

def nameOnBoth : Applied := literalPolicy 2 "NAME" "call" .both

theorem scopes_compose_alike :
    (ExactIn Scope.coversInput literalEngine [phoneOnBoth, nameOnBoth] phoneText ∧
      UnaffectedIn Scope.coversInput literalEngine [phoneOnBoth] nameOnBoth
        [phoneOnBoth, nameOnBoth] phoneText) ∧
    ExactIn Scope.coversOutput literalEngine [phoneOnBoth, nameOnBoth] phoneText ∧
      UnaffectedIn Scope.coversOutput literalEngine [phoneOnBoth] nameOnBoth
        [phoneOnBoth, nameOnBoth] phoneText := by
  have hadd : [phoneOnBoth, nameOnBoth].Perm [nameOnBoth, phoneOnBoth] := List.Perm.swap ..
  have hcompose := (@scopes_compose_iff literalEngine _ _ _ phoneText hadd).mpr ?_
  · exact ⟨(hcompose _ List.mem_cons_self).2,
      (hcompose _ (List.mem_cons_of_mem _ List.mem_cons_self)).2⟩
  · intro direction hdirection
    have hboth : direction .both = true := by
      simp only [List.mem_cons, List.not_mem_nil, or_false] at hdirection
      rcases hdirection with rfl | rfl <;> rfl
    refine ⟨.inr fun q hq e he => ⟨q, hq, ?_, he⟩, .inr fun q hq e he => ⟨q, hq, ?_, he⟩,
      fun e _ => Iff.rfl⟩
    · obtain rfl := List.mem_singleton.mp hq
      exact hboth
    · simp only [List.mem_cons, List.not_mem_nil, or_false] at hq
      rcases hq with rfl | rfl <;> exact hboth

/-- A policy for the phone number on the output; one for a name on the input is added: from
then on the phone number is masked on the input too. -/
theorem scope_of_another_policy :
    maskedIn Scope.coversInput literalEngine [literalPolicy 1 "PHONE" "9876" .output] phoneText = [] ∧
      maskedIn Scope.coversInput literalEngine
        [literalPolicy 1 "PHONE" "9876" .output, literalPolicy 2 "NAME" "call" .input] phoneText =
        ["PHONE", "NAME"] ∧
      ¬ ExactIn Scope.coversInput literalEngine
        [literalPolicy 1 "PHONE" "9876" .output, literalPolicy 2 "NAME" "call" .input] phoneText := by
  refine ⟨by decide +kernel, by decide +kernel, fun hexact => ?_⟩
  obtain ⟨q, hq, hcovers, he⟩ := (hexact "PHONE").mp (by decide +kernel)
  simp only [List.mem_cons, List.not_mem_nil, or_false] at hq
  rcases hq with rfl | rfl
  · cases hcovers
  · exact absurd he (by decide +kernel)

end Ai4iCore.Guardrail
