import Mathlib.Data.List.Basic
import Mathlib.Data.List.Forall2
import Mathlib.Data.List.Sort
import Ai4iCore.Base.Dict

/-!
# Masking personal data

What `services/guardrail.py` does to one text and to the messages of a chat: `_mask` asks
the detectors of the policy types for the entities in a text and replaces each by a
numbered token, `_mask_messages` does so over all messages with one shared numbering, and
`_unmask` puts the originals back.

A text is its list of characters. What the services of `services/pii` are built on — the
language guesser, regular expressions, Presidio's recognizers and the way its anonymizer
resolves overlapping detections — is the parameter `Engine`.
-/

namespace Ai4iCore.Guardrail

abbrev Text := List Char

/-! ## Policy types and detectors -/

/-- `CustomField`. -/
structure CustomField where
  entityName : String
  regex : String
  deriving DecidableEq, Repr

/-- `PolicyType`; `modelEntities` goes from a language to entity names. -/
structure PolicyType where
  name : String
  customFields : List CustomField
  modelEntities : Dict String (List String)
  deriving DecidableEq, Repr

/-- `RecognizerResult`: an entity at the characters from `start` up to `stop`. -/
structure Detection where
  entityType : String
  start : Nat
  stop : Nat
  deriving DecidableEq, Repr

/-- The libraries behind the detection. -/
structure Engine where
  /-- `detect_langs`, the most probable first; `none` when it raises -/
  detectLangs : Text → Option (List String)
  /-- whether a policy's regex compiles -/
  compiles : String → Bool
  /-- the spans of `finditer`; `none` when the time budget is used up -/
  finditer : String → Text → Option (List (Nat × Nat))
  /-- `detectable_entities` -/
  detectable : String → List String
  /-- `analyze`, for the named entities -/
  analyze : Text → String → List String → List Detection
  /-- what the anonymizer replaces, from right to left -/
  resolve : Text → List Detection → List Detection

/-- Why masking raises: a `GuardrailError`, or the `InvalidPolicyError` of a regex. -/
inductive MaskError
  | guardrail
  | invalidPolicy
  deriving DecidableEq, Repr

def defaultLanguage : String := "en"

/-- `detect_language`, with candidates. -/
def detectLanguage (engine : Engine) (text : Text) (candidates : List String) : String :=
  match engine.detectLangs text with
  | none => defaultLanguage
  | some ranked => (ranked.find? (· ∈ candidates)).getD defaultLanguage

/-- The languages the policy types name. -/
def policyLanguages (types : List PolicyType) : List String :=
  types.flatMap fun pt => pt.modelEntities.map Prod.fst

/-- The language `_mask` takes a text to be in. -/
def languageOf (engine : Engine) (types : List PolicyType) (text : Text) : String :=
  if policyLanguages types = [] then defaultLanguage
  else detectLanguage engine text (policyLanguages types)

/-- The entities of a policy type in texts of a language. -/
def PolicyType.entities (pt : PolicyType) (language : String) : List String :=
  pt.customFields.map CustomField.entityName ++ (pt.modelEntities.get? language).getD []

/-- `_Recognizers`. -/
structure Recognizers where
  adHoc : List CustomField
  sources : List String
  modelEntities : List String

/-- `_build_recognizers`. -/
def buildRecognizers (engine : Engine) (types : List PolicyType) (language : String) :
    Except MaskError Recognizers :=
  if types.all fun pt => pt.customFields.all fun cf => engine.compiles cf.regex then
    .ok
      { adHoc := types.flatMap PolicyType.customFields
        sources := types.flatMap fun pt => pt.entities language
        modelEntities := types.flatMap fun pt => (pt.modelEntities.get? language).getD [] }
  else .error .invalidPolicy

/-- `TimedPatternRecognizer.analyze`, over all of them. -/
def analyzeAdHoc (engine : Engine) (text : Text) : List CustomField → Except MaskError (List Detection)
  | [] => .ok []
  | cf :: rest =>
    match engine.finditer cf.regex text with
    | none => .error .invalidPolicy
    | some spans =>
      match analyzeAdHoc engine text rest with
      | .error e => .error e
      | .ok results =>
        -- an empty match is skipped
        .ok ((spans.filter fun s => s.1 ≠ s.2).map (fun s => ⟨cf.entityName, s.1, s.2⟩) ++ results)

/-- The detection part of `_mask`: `analyzer_results`. -/
def detect (engine : Engine) (types : List PolicyType) (text : Text) :
    Except MaskError (List Detection) :=
  let language := languageOf engine types text
  match buildRecognizers engine types language with
  | .error e => .error e
  | .ok recs =>
    if recs.sources = [] then .ok []
    else
      match analyzeAdHoc engine text recs.adHoc with
      | .error e => .error e
      | .ok results =>
        if recs.modelEntities = [] then .ok results
        else if recs.modelEntities.all (· ∈ engine.detectable language) then
          .ok (results ++ engine.analyze text language recs.modelEntities)
        else .error .guardrail

/-! ## Tokens -/

/-- `{entity_type: {original: token}}`. -/
abbrev EntityMapping := Dict String (Dict Text Text)

/-- `TOKEN_FORMAT`. -/
def tokenOf (entityType : String) (index : Nat) : Text :=
  ("<" ++ entityType ++ "_" ++ toString index ++ ">").toList

theorem tokenOf_eq (entityType : String) (index : Nat) :
    ∃ rest, tokenOf entityType index = '<' :: rest := by
  refine ⟨(entityType ++ "_" ++ toString index ++ ">").toList, ?_⟩
  simp [tokenOf, String.toList_append]

/-- `InstanceCounterAnonymizer.operate`: the token, and the mapping afterwards. -/
def operate (mapping : EntityMapping) (entityType : String) (original : Text) :
    Text × EntityMapping :=
  let perType := (mapping.get? entityType).getD []
  match perType.get? original with
  | some token => (token, mapping)
  | none =>
    let token := tokenOf entityType (perType.length + 1)
    (token, mapping.set entityType (perType.set original token))

/-- A mapping that the operator filled, starting from an empty one. -/
inductive Filled : EntityMapping → Prop
  | empty : Filled []
  | operate {mapping : EntityMapping} (h : Filled mapping) (entityType : String)
      (original : Text) : Filled (operate mapping entityType original).2

/-- Every token in a filled mapping is a numbered token of its entity type. -/
theorem Filled.isToken {mapping : EntityMapping} (h : Filled mapping) {entityType : String}
    {perType : Dict Text Text} (hper : mapping.get? entityType = some perType) {original token : Text}
    (htoken : perType.get? original = some token) : ∃ i, token = tokenOf entityType i := by
  induction h generalizing entityType perType original token with
  | empty => cases hper
  | @operate mapping h entityType' original' ih =>
    unfold Guardrail.operate at hper
    dsimp only at hper
    split at hper
    · exact ih hper htoken
    · rw [Dict.get?_set] at hper
      split at hper
      · rename_i heq
        subst heq
        obtain rfl := Option.some.inj hper
        rw [Dict.get?_set] at htoken
        split at htoken
        · exact ⟨_, (Option.some.inj htoken).symm⟩
        · cases hold : mapping.get? entityType with
          | none =>
            rw [hold] at htoken
            cases htoken
          | some old =>
            rw [hold] at htoken
            exact ih hold htoken
      · exact ih hper htoken

/-- The operator answers with a numbered token. -/
theorem Filled.operate_isToken {mapping : EntityMapping} (h : Filled mapping)
    (entityType : String) (original : Text) :
    ∃ i, (Guardrail.operate mapping entityType original).1 = tokenOf entityType i := by
  unfold Guardrail.operate
  dsimp only
  split
  · rename_i token htoken
    cases hper : mapping.get? entityType with
    | none =>
      rw [hper] at htoken
      cases htoken
    | some perType =>
      rw [hper] at htoken
      exact h.isToken hper htoken
  · exact ⟨_, rfl⟩

/-- Replace one detection. -/
def replaceDetection (state : Text × EntityMapping) (d : Detection) : Text × EntityMapping :=
  let (token, mapping) := operate state.2 d.entityType ((state.1.take d.stop).drop d.start)
  (state.1.take d.start ++ token ++ state.1.drop d.stop, mapping)

/-- `anonymize`. -/
def anonymize (engine : Engine) (text : Text) (results : List Detection)
    (mapping : EntityMapping) : Text × EntityMapping :=
  (engine.resolve text results).foldl replaceDetection (text, mapping)

/-- `_mask`, with the mapping it fills. -/
def mask (engine : Engine) (types : List PolicyType) (text : Text) (mapping : EntityMapping) :
    Except MaskError (Text × EntityMapping) :=
  match detect engine types text with
  | .error e => .error e
  | .ok [] => .ok (text, mapping)
  | .ok results => .ok (anonymize engine text results mapping)

theorem Filled.foldl {mapping : EntityMapping} (h : Filled mapping) (text : Text)
    (ds : List Detection) : Filled (ds.foldl replaceDetection (text, mapping)).2 := by
  induction ds generalizing text mapping with
  | nil => exact h
  | cons d ds ih => exact ih (h.operate d.entityType _) _

theorem Filled.mask {engine : Engine} {types : List PolicyType} {text text' : Text}
    {mapping mapping' : EntityMapping} (h : Filled mapping)
    (hmask : mask engine types text mapping = .ok (text', mapping')) : Filled mapping' := by
  unfold Guardrail.mask at hmask
  split at hmask
  · cases hmask
  · cases hmask
    exact h
  · rename_i results _ _
    have hfold := h.foldl text (engine.resolve text results)
    injection hmask with hmask
    rw [anonymize] at hmask
    rw [hmask] at hfold
    exact hfold

/-- `{token: original}`. -/
def tokenToOriginal (mapping : EntityMapping) : Dict Text Text :=
  Dict.setAll [] (mapping.flatMap fun perType => perType.2.map Prod.swap)

/-! ## Messages -/

/-- A part of a message: text, or an image or a file. -/
inductive Part
  | text (t : Text)
  | media
  deriving DecidableEq, Repr

/-- The `content` of a message: a string, a list of parts, or neither. -/
inductive Content
  | str (t : Text)
  | parts (l : List Part)
  | absent
  deriving DecidableEq, Repr

structure Message where
  role : String
  content : Content
  deriving DecidableEq, Repr

/-- One message of `_mask_messages`. Only a string is masked. -/
def maskMessage (engine : Engine) (types : List PolicyType) (msg : Message)
    (mapping : EntityMapping) : Except MaskError (Message × EntityMapping) :=
  match msg.content with
  | .str text =>
    if text = [] then .ok (msg, mapping)
    else
      match mask engine types text mapping with
      | .error e => .error e
      | .ok (text', mapping') => .ok ({ msg with content := .str text' }, mapping')
  | _ => .ok (msg, mapping)

/-- A text that is not empty is replaced by its mask; any other message is passed on as it is. -/
theorem maskMessage_ok {engine : Engine} {types : List PolicyType} {msg msg' : Message}
    {mapping mapping' : EntityMapping}
    (h : maskMessage engine types msg mapping = .ok (msg', mapping')) :
    (∃ text text', msg.content = .str text ∧ msg'.content = .str text' ∧
      mask engine types text mapping = .ok (text', mapping')) ∨
    (msg' = msg ∧ mapping' = mapping ∧ ∀ text, msg.content = .str text → text = []) := by
  unfold maskMessage at h
  split at h
  · rename_i text hcontent
    split at h
    · rename_i hempty
      cases h
      refine .inr ⟨rfl, rfl, fun text' hcontent' => ?_⟩
      obtain rfl := Content.str.inj (hcontent.symm.trans hcontent')
      exact hempty
    · split at h
      · cases h
      · rename_i hmask
        cases h
        exact .inl ⟨text, _, hcontent, rfl, hmask⟩
  · rename_i hcontent
    cases h
    exact .inr ⟨rfl, rfl, fun text htext => absurd htext (hcontent text)⟩

theorem Filled.maskMessage {engine : Engine} {types : List PolicyType} {msg msg' : Message}
    {mapping mapping' : EntityMapping} (hfilled : Filled mapping)
    (h : maskMessage engine types msg mapping = .ok (msg', mapping')) : Filled mapping' := by
  rcases maskMessage_ok h with ⟨text, text', -, -, hmask⟩ | ⟨-, rfl, -⟩
  · exact hfilled.mask hmask
  · exact hfilled

/-- `_mask_messages`, with the mapping shared by all messages. -/
def maskMessages (engine : Engine) (types : List PolicyType) :
    List Message → EntityMapping → Except MaskError (List Message × EntityMapping)
  | [], mapping => .ok ([], mapping)
  | msg :: rest, mapping =>
    match maskMessage engine types msg mapping with
    | .error e => .error e
    | .ok (msg', mapping') =>
      match maskMessages engine types rest mapping' with
      | .error e => .error e
      | .ok (rest', mapping'') => .ok (msg' :: rest', mapping'')

/-- `str.replace` for a non-empty `old`; `skip` characters are still part of the last match. -/
def replaceFrom (old new : Text) : Nat → Text → Text
  | _, [] => []
  | skip + 1, _ :: rest => replaceFrom old new skip rest
  | 0, c :: rest =>
    if old.isPrefixOf (c :: rest) then new ++ replaceFrom old new (old.length - 1) rest
    else c :: replaceFrom old new 0 rest

/-- `_unmask`. -/
def unmask (text : Text) (tokens : Dict Text Text) : Text :=
  tokens.foldl (fun text entry => replaceFrom entry.1 entry.2 0 text) text

/-! ## Plain strings for regexes -/

/-- The occurrences of a non-empty string, without overlap. -/
def literalSpans (pattern : Text) : Nat → Nat → Text → List (Nat × Nat)
  | _, _, [] => []
  | skip + 1, i, _ :: rest => literalSpans pattern skip (i + 1) rest
  | 0, i, c :: rest =>
    if pattern.isPrefixOf (c :: rest) then
      (i, i + pattern.length) :: literalSpans pattern (pattern.length - 1) (i + 1) rest
    else literalSpans pattern 0 (i + 1) rest

/-- An engine for policies of custom fields whose regexes are plain strings that do not
overlap; it has no models. -/
def literalEngine : Engine where
  detectLangs _ := none
  compiles _ := true
  finditer regex text := some (literalSpans regex.toList 0 0 text)
  detectable _ := []
  analyze _ _ _ := []
  resolve _ results := results.insertionSort fun d d' => d'.start ≤ d.start

end Ai4iCore.Guardrail
