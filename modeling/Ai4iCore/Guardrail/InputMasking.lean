import Ai4iCore.Guardrail.Proxy

/-!
# What reaches an upstream has been masked

With a policy on the input, no text of a message should leave for a model service except
through `_mask`. The payload is rebuilt on its way — the model name is injected, the usage
is asked for, each fallback gets its own copy — but the messages in it are those that
`_mask_messages` returned (`called_messages`), so all turns on that function: it masks
contents that are strings and passes lists of parts on as they are. `input_masked_iff` says
what that means for a request: its text parts have to be texts that `_mask` does not change.
-/

namespace Ai4iCore.Guardrail

/-! ## Masked messages -/

/-- The text is what `_mask` makes of the text that was sent. -/
def MaskedFrom (engine : Engine) (types : List PolicyType) (sent text : Text) : Prop :=
  ∃ mapping mapping', Filled mapping ∧ mask engine types sent mapping = .ok (text, mapping')

/-- An empty text needs no masking. -/
def TextMasked (engine : Engine) (types : List PolicyType) (sent text : Text) : Prop :=
  (sent = [] ∧ text = []) ∨ MaskedFrom engine types sent text

inductive PartMasked (engine : Engine) (types : List PolicyType) : Part → Part → Prop
  | text {sent text : Text} (h : TextMasked engine types sent text) :
    PartMasked engine types (.text sent) (.text text)
  | media : PartMasked engine types .media .media

inductive ContentMasked (engine : Engine) (types : List PolicyType) : Content → Content → Prop
  | str {sent text : Text} (h : TextMasked engine types sent text) :
    ContentMasked engine types (.str sent) (.str text)
  | parts {sent parts : List Part} (h : List.Forall₂ (PartMasked engine types) sent parts) :
    ContentMasked engine types (.parts sent) (.parts parts)
  | absent : ContentMasked engine types .absent .absent

/-- The messages, one by one, are masked versions of those that were sent. -/
def MessagesMasked (engine : Engine) (types : List PolicyType) (sent msgs : List Message) : Prop :=
  List.Forall₂ (fun m m' => ContentMasked engine types m.content m'.content) sent msgs

/-- The texts of the messages whose content is a list of parts. -/
def Content.partTexts : Content → List Text
  | .parts l => l.filterMap fun
    | .text t => some t
    | .media => none
  | _ => []

def partTexts (msgs : List Message) : List Text := msgs.flatMap fun m => m.content.partTexts

section Messages

variable {engine : Engine} {types : List PolicyType}

/-- A list of parts that is passed on as it is counts as masked when its texts do. -/
theorem forall₂_part_self_iff (l : List Part) :
    List.Forall₂ (PartMasked engine types) l l ↔
      ∀ t ∈ (Content.parts l).partTexts, TextMasked engine types t t := by
  induction l with
  | nil => simp [Content.partTexts]
  | cons p l ih =>
    rw [List.forall₂_cons, ih]
    cases p with
    | text t =>
      have hpart : PartMasked engine types (.text t) (.text t) ↔ TextMasked engine types t t :=
        ⟨fun h => by cases h; assumption, .text⟩
      simp [Content.partTexts, hpart]
    | media =>
      have hpart : PartMasked engine types .media .media := .media
      simp [Content.partTexts, hpart]

/-- One message: a string is masked; the rest counts as masked when its part texts do. -/
theorem maskMessage_iff {msg msg' : Message} {mapping mapping' : EntityMapping}
    (hfilled : Filled mapping) (h : maskMessage engine types msg mapping = .ok (msg', mapping')) :
    ContentMasked engine types msg.content msg'.content ↔
      ∀ t ∈ msg.content.partTexts, TextMasked engine types t t := by
  rcases maskMessage_ok h with ⟨text, text', hsent, hmasked, hmask⟩ | ⟨rfl, -, hempty⟩
  · rw [hsent, hmasked]
    exact iff_of_true (.str (.inr ⟨mapping, mapping', hfilled, hmask⟩)) nofun
  · cases hcontent : msg'.content with
    | str text =>
      obtain rfl := hempty text hcontent
      exact iff_of_true (.str (.inl ⟨rfl, rfl⟩)) nofun
    | parts l =>
      rw [← forall₂_part_self_iff]
      exact ⟨fun h => by cases h; assumption, .parts⟩
    | absent => exact iff_of_true .absent nofun

/-- All messages. -/
theorem maskMessages_iff {msgs msgs' : List Message} {mapping mapping' : EntityMapping}
    (hfilled : Filled mapping)
    (h : maskMessages engine types msgs mapping = .ok (msgs', mapping')) :
    MessagesMasked engine types msgs msgs' ↔
      ∀ t ∈ partTexts msgs, TextMasked engine types t t := by
  induction msgs generalizing mapping msgs' with
  | nil =>
    cases h
    simp [MessagesMasked, partTexts]
  | cons msg rest ih =>
    unfold maskMessages at h
    split at h
    · cases h
    · rename_i msg' mapping₁ hmsg
      split at h
      · cases h
      · rename_i rest' mapping₂ hrest
        cases h
        have hhead := maskMessage_iff hfilled hmsg
        have htail := ih (hfilled.maskMessage hmsg) hrest
        unfold MessagesMasked at htail ⊢
        rw [List.forall₂_cons, hhead, htail]
        simp only [partTexts, List.flatMap_cons, List.mem_append, or_imp, forall_and]

end Messages

/-! ## The payloads that are sent -/

section Calls

variable {env : Env} {payload : Payload}

theorem prepareRequest_messages {prepared : Prepared}
    (h : prepareRequest env payload = .ok prepared) :
    prepared.payload.messages = payload.messages := by
  obtain ⟨model, hmodel⟩ := prepareRequest_payload h
  rw [hmodel]

theorem callWithFallbacks_messages {β : Type} (prepared : Prepared) (call : Nat → β)
    (failed : β → Bool) :
    ∀ p ∈ (callWithFallbacks env prepared payload call failed).1,
      p.payload.messages = payload.messages := by
  intro p hp
  obtain ⟨model, hmodel⟩ := callWithFallbacks_payload prepared call failed p hp
  rw [hmodel]

/-- What the proxies send: nothing, or the messages that came out of the input guardrail, at
least once. -/
inductive Sends (env : Env) (payload : Payload) (called : List Prepared) : Prop
  | nothing (h : called = [])
      (hinput : ∀ prepared ctx payload', prepareRequest env payload = .ok prepared →
        applyGuardrailInput env prepared.payload ≠ .proceed ctx payload')
  | messages {prepared : Prepared} {ctx : Context} {payload' : Payload}
      (hprepared : prepareRequest env payload = .ok prepared)
      (hinput : applyGuardrailInput env prepared.payload = .proceed ctx payload')
      (hne : called ≠ []) (hall : ∀ p ∈ called, p.payload.messages = payload'.messages)

theorem sends_of_refused {prepared : Prepared} {r : InputResult}
    (hprepared : prepareRequest env payload = .ok prepared)
    (hinput : applyGuardrailInput env prepared.payload = r)
    (hr : ∀ ctx payload', r ≠ .proceed ctx payload') : Sends env payload [] := by
  refine .nothing rfl fun prepared' ctx payload' h => ?_
  rw [hprepared] at h
  cases h
  rw [hinput]
  exact hr ctx payload'

theorem proxyTraced_sends (env : Env) (payload : Payload) (answers : Nat → Answer) :
    Sends env payload (proxyTraced env payload answers).called := by
  unfold proxyTraced
  split
  · rename_i status herror
    exact .nothing rfl fun prepared _ _ h => by rw [herror] at h; cases h
  · rename_i prepared hprepared
    split
    · rename_i hraised
      exact sends_of_refused hprepared hraised nofun
    · rename_i audit hblocked
      exact sends_of_refused hprepared hblocked nofun
    · rename_i ctx payload' hinput
      refine .messages hprepared hinput ?_ ?_
      · show (forwardWithFallbacks env prepared payload' answers).1 ≠ []
        rw [forwardWithFallbacks_called]
        exact callWithFallbacks_ne_nil _ _ _
      · show ∀ p ∈ (forwardWithFallbacks env prepared payload' answers).1, _
        rw [forwardWithFallbacks_called]
        exact callWithFallbacks_messages _ _ _

theorem proxyTracedStream_sends (env : Env) (payload : Payload) (answers : Nat → StreamAnswer) :
    Sends env payload (proxyTracedStream env payload answers).called := by
  unfold proxyTracedStream
  split
  · rename_i status herror
    exact .nothing rfl fun prepared _ _ h => by rw [herror] at h; cases h
  · rename_i prepared hprepared
    split
    · rename_i hraised
      exact sends_of_refused hprepared hraised nofun
    · rename_i audit hblocked
      exact sends_of_refused hprepared hblocked nofun
    · rename_i ctx payload' hinput
      have hcalled : ∀ p ∈ (streamWithFallbacks env prepared (withIncludeUsage payload')
          answers).1, p.payload.messages = payload'.messages := by
        rw [streamWithFallbacks_called]
        exact @callWithFallbacks_messages env (withIncludeUsage payload') _ prepared answers _
      have hne : (streamWithFallbacks env prepared (withIncludeUsage payload') answers).1 ≠ [] := by
        rw [streamWithFallbacks_called]
        exact callWithFallbacks_ne_nil _ _ _
      dsimp only
      split
      · exact .messages hprepared hinput hne hcalled
      · split <;> exact .messages hprepared hinput hne hcalled

end Calls

/-! ## The condition -/

/-- Where the context has a type there is a policy it came from. -/
theorem addPolicies_active {getPolicy : Int → Option Policy} {pids : List Int} {ctx ctx' : Context}
    (h : addPolicies getPolicy pids ctx = some ctx')
    (hctx : ctx.policyTypes ≠ [] → ctx.active = true) :
    ctx'.policyTypes ≠ [] → ctx'.active = true := by
  induction pids generalizing ctx with
  | nil =>
    cases h
    exact hctx
  | cons pid rest ih =>
    unfold addPolicies at h
    split at h
    · exact ih h hctx
    · split at h
      · cases h
      · split at h
        · exact ih h hctx
        · split at h
          · cases h
          · exact ih h fun _ => by simp [Context.active]

theorem buildGuardrailContext_active {lookup : Lookup} {ctx : Context}
    (h : buildGuardrailContext lookup = some ctx) (htypes : ctx.policyTypes ≠ []) :
    ctx.active = true := by
  unfold buildGuardrailContext at h
  split at h
  · exact addPolicies_active h (fun hne => absurd rfl hne) htypes
  · cases h

/-- A request that is not forwarded at all: its service does not resolve or is out of tier, or
the masking of its string contents raises. -/
def Refused (env : Env) (ctx : Context) (payload : Payload) : Prop :=
  (∃ status, prepareRequest env payload = .error status) ∨
    ∃ e, maskMessages env.engine ctx.policyTypes payload.messages [] = .error e

section Main

variable {env : Env} {ctx : Context} {payload : Payload}

/-- The input guardrail of a context that masks the input. -/
theorem applyGuardrailInput_of_masks (hctx : buildGuardrailContext env.lookup = some ctx)
    (hscope : ctx.needsInputMask = true) (htypes : ctx.policyTypes ≠ []) (p : Payload) :
    match maskMessages env.engine ctx.policyTypes p.messages [] with
    | .ok (messages, mapping) => applyGuardrailInput env p = .proceed
        { ctx with tokenToOriginal := Guardrail.tokenToOriginal mapping } { p with messages }
    | .error _ => ∀ ctx' p', applyGuardrailInput env p ≠ .proceed ctx' p' := by
  have hactive := buildGuardrailContext_active hctx htypes
  have hguard : (!ctx.needsInputMask || ctx.policyTypes.isEmpty) = false := by
    simp [hscope, htypes]
  unfold applyGuardrailInput applyInputGuardrail
  cases hmask : maskMessages env.engine ctx.policyTypes p.messages [] with
  | ok r => simp [hctx, hactive, hguard, hmask]
  | error e => cases e <;> simp [hctx, hactive, hguard, hmask]

/-- What was sent is masked exactly when nothing was sent, or the text parts are texts that
`_mask` leaves alone. -/
theorem sends_masked_iff (hctx : buildGuardrailContext env.lookup = some ctx)
    (hscope : ctx.needsInputMask = true) (htypes : ctx.policyTypes ≠ []) {called : List Prepared}
    (hsends : Sends env payload called) :
    (∀ p ∈ called, MessagesMasked env.engine ctx.policyTypes payload.messages p.payload.messages) ↔
      (Refused env ctx payload ∨
        ∀ t ∈ partTexts payload.messages, TextMasked env.engine ctx.policyTypes t t) := by
  cases hsends with
  | nothing hnil hinput =>
    subst hnil
    refine iff_of_true (fun p hp => absurd hp List.not_mem_nil) (.inl ?_)
    cases hprepared : prepareRequest env payload with
    | error status => exact .inl ⟨status, hprepared⟩
    | ok prepared =>
      refine .inr ?_
      have hmasks := applyGuardrailInput_of_masks hctx hscope htypes prepared.payload
      rw [prepareRequest_messages hprepared] at hmasks
      split at hmasks
      · exact absurd hmasks (hinput _ _ _ hprepared)
      · rename_i e hmask
        exact ⟨e, hmask⟩
  | @messages prepared ctx' payload' hprepared hinput hne hall =>
    have hmasks := applyGuardrailInput_of_masks hctx hscope htypes prepared.payload
    rw [prepareRequest_messages hprepared] at hmasks
    split at hmasks
    · rename_i messages mapping hmask
      rw [hinput] at hmasks
      cases hmasks
      have hrefused : ¬ Refused env ctx payload := by
        rintro (⟨status, herror⟩ | ⟨e, herror⟩)
        · rw [hprepared] at herror
          cases herror
        · rw [hmask] at herror
          cases herror
      rw [or_iff_right hrefused, ← maskMessages_iff .empty hmask]
      constructor
      · intro hmasked
        obtain ⟨p, hp⟩ := List.exists_mem_of_ne_nil called hne
        have hp' := hmasked p hp
        rwa [hall p hp] at hp'
      · intro hmasked p hp
        rw [hall p hp]
        exact hmasked
    · exact absurd hinput (hmasks _ _)

/-- **Input masking.** Under a policy on the input with a type, everything that the buffered
or the streaming proxy sends to the requested service or to a fallback is masked exactly when
the request is refused before it is sent, or each text part of its messages is one that
`_mask` does not change. -/
theorem input_masked_iff (hctx : buildGuardrailContext env.lookup = some ctx)
    (hscope : ctx.needsInputMask = true) (htypes : ctx.policyTypes ≠ [])
    (answers : Nat → Answer) (streamAnswers : Nat → StreamAnswer) :
    (∀ p ∈ (proxyTraced env payload answers).called ++
        (proxyTracedStream env payload streamAnswers).called,
      MessagesMasked env.engine ctx.policyTypes payload.messages p.payload.messages) ↔
      (Refused env ctx payload ∨
        ∀ t ∈ partTexts payload.messages, TextMasked env.engine ctx.policyTypes t t) := by
  have hbuffered := sends_masked_iff hctx hscope htypes
    (proxyTraced_sends env payload answers)
  have hstreamed := sends_masked_iff hctx hscope htypes
    (proxyTracedStream_sends env payload streamAnswers)
  simp only [List.mem_append, or_imp, forall_and]
  rw [hbuffered, hstreamed, and_self]

end Main

/-! A policy for a phone number, and a request that is answered by its fallback. -/

def phonePolicy (scope : Scope) : Policy where
  isActive := true
  category := some true
  subCategory := some true
  types := some [⟨"PII", [⟨"PHONE", "9876"⟩], []⟩]
  scope := some scope

def sampleEnv (policies : Int → Option Policy) (ids : List Int) : Env where
  resolve id := .found ⟨true, "http://" ++ id, "vllm-" ++ id, []⟩
  tierId := ""
  fallbacks := ["backup"]
  lookup := { appPolicyIds := some ids, globalPolicyIds := some [], getPolicy := policies }
  engine := literalEngine

def chatOf (content : Content) : Payload := ⟨"chat", [⟨"user", content⟩], none⟩

/-- The requested service fails; the fallback answers. -/
def sampleAnswers : Nat → Answer
  | 0 => .response 500 .empty
  | _ => .response 200 (.completion [⟨some 0, some "ok".toList⟩])

def sampleStreams : Nat → StreamAnswer
  | 0 => .error 500 .empty
  | _ => .stream [.chunk ⟨[⟨some 0, some "ok".toList⟩], none⟩, .done]

def phoneTypes : List PolicyType := [⟨"PII", [⟨"PHONE", "9876"⟩], []⟩]

def phoneText : Text := "call 9876".toList

theorem input_masked_in_string :
    (proxyTraced (sampleEnv (fun _ => some (phonePolicy .input)) [1]) (chatOf (.str phoneText))
        sampleAnswers).called.map (fun p => p.payload.messages.map Message.content) =
        [[.str "call <PHONE_1>".toList], [.str "call <PHONE_1>".toList]] ∧
      ∀ p ∈ (proxyTraced (sampleEnv (fun _ => some (phonePolicy .input)) [1])
          (chatOf (.str phoneText)) sampleAnswers).called ++
        (proxyTracedStream (sampleEnv (fun _ => some (phonePolicy .input)) [1])
          (chatOf (.str phoneText)) sampleStreams).called,
        MessagesMasked literalEngine phoneTypes (chatOf (.str phoneText)).messages
          p.payload.messages := by
  have hctx : buildGuardrailContext (sampleEnv (fun _ => some (phonePolicy .input)) [1]).lookup
      = some ⟨[1], phoneTypes, [.input], []⟩ := rfl
  refine ⟨by decide +kernel, ?_⟩
  exact (input_masked_iff hctx rfl (List.cons_ne_nil _ _) sampleAnswers sampleStreams).mpr
    (.inr nofun)

/-- The phone number never comes out of `_mask` as it went in. -/
theorem not_maskedFrom_phone : ¬ MaskedFrom literalEngine phoneTypes phoneText phoneText := by
  rintro ⟨mapping, mapping', hfilled, hmask⟩
  have hdetect : detect literalEngine phoneTypes phoneText = .ok [⟨"PHONE", 5, 9⟩] := rfl
  obtain ⟨i, htoken⟩ := hfilled.operate_isToken "PHONE" "9876".toList
  obtain ⟨rest, hrest⟩ := tokenOf_eq "PHONE" i
  rw [mask, hdetect] at hmask
  injection hmask with hmask
  have htext : "call ".toList ++ (operate mapping "PHONE" "9876".toList).1 ++ [] = phoneText :=
    congrArg Prod.fst hmask
  rw [htoken, hrest] at htext
  -- a token starts with an angle bracket
  have hhead : some '<' = some '9' := congrArg (fun t => (t.drop 5).head?) htext
  cases hhead

/-- The same text as a list of one part leaves for both services as it was written. -/
theorem part_text_leaks :
    ∃ p ∈ (proxyTraced (sampleEnv (fun _ => some (phonePolicy .input)) [1])
        (chatOf (.parts [.text phoneText])) sampleAnswers).called,
      p.payload.messages = [⟨"user", .parts [.text phoneText]⟩] ∧
      ¬ MessagesMasked literalEngine phoneTypes (chatOf (.parts [.text phoneText])).messages
        p.payload.messages := by
  refine ⟨⟨"chat", "vllm-chat", ⟨"vllm-chat", [⟨"user", .parts [.text phoneText]⟩], none⟩⟩,
    List.mem_of_mem_head? rfl, rfl, fun hmasked => ?_⟩
  cases hmasked with
  | cons hcontent _ =>
    cases hcontent with
    | parts hparts =>
      cases hparts with
      | cons hpart _ =>
        cases hpart with
        | text htext =>
          rcases htext with ⟨hempty, -⟩ | hmasked
          · exact absurd hempty (by decide +kernel)
          · exact not_maskedFrom_phone hmasked

end Ai4iCore.Guardrail
