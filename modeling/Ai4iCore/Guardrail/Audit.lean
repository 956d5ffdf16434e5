import Ai4iCore.Guardrail.InputMasking

/-!
# What the audit log keeps

For a request under policies an audit row is posted with the request and the response. The
call sites hand over what they have: the client's payload where the policies could not be
loaded or applied, else what was sent upstream and what the client received. `_write_audit_log`
masks once more before it posts — but not without policy types, and not when the scopes name
the output and not both — and where that raises it posts nothing of either.

`audit_rows_masked_iff` says for every row of every request when it holds masked texts only.
-/

namespace Ai4iCore.Guardrail

/-! ## Texts -/

/-- The texts of a message. -/
def Content.texts : Content → List Text
  | .str t => [t]
  | c => c.partTexts

def messageTexts (msgs : List Message) : List Text := msgs.flatMap fun m => m.content.texts

/-- The texts of the choices of a body. -/
def Body.texts : Body → List Text
  | .completion choices => choices.filterMap Choice.content
  | _ => []

/-- A text that `_mask` returned under these types, or an empty one. -/
def Masked (engine : Engine) (types : List PolicyType) (t : Text) : Prop :=
  t = [] ∨ ∃ sent, MaskedFrom engine types sent t

/-! ## The writer -/

/-- `_mask_for_audit_payload`. -/
def maskForAuditPayload (engine : Engine) (payload : Payload) (types : List PolicyType) :
    Except MaskError Payload :=
  if payload.messages = [] then .ok payload
  else
    match maskMessages engine types payload.messages [] with
    | .error e => .error e
    | .ok (messages, _) => .ok { payload with messages }

/-- `_mask_for_audit_response`: the first choice, when its content is a string. -/
def maskForAuditResponse (engine : Engine) (body : Body) (types : List PolicyType) :
    Except MaskError Body :=
  match body with
  | .completion (⟨index, some text⟩ :: rest) =>
    if text = [] then .ok body
    else
      match mask engine types text [] with
      | .error e => .error e
      | .ok (text', _) => .ok (.completion (⟨index, some text'⟩ :: rest))
  | body => .ok body

/-- `output_only`. -/
def outputOnly (scopes : List Scope) : Bool := .output ∈ scopes && .both ∉ scopes

/-- The row that is posted; `none` is a `model_request` of `{}`. -/
structure AuditRow where
  modelRequest : Option Payload
  response : Body

def AuditRow.texts (row : AuditRow) : List Text :=
  (row.modelRequest.map fun p => messageTexts p.messages).getD [] ++ row.response.texts

/-- `_write_audit_log`. -/
def writeAuditLog (engine : Engine) (a : AuditLog) : AuditRow :=
  if a.ctx.policyTypes = [] || outputOnly a.ctx.scopes then ⟨some a.modelRequest, a.response⟩
  else
    match maskForAuditPayload engine a.modelRequest a.ctx.policyTypes,
        maskForAuditResponse engine a.response a.ctx.policyTypes with
    | .ok request, .ok response => ⟨some request, response⟩
    -- masking raised: the content is redacted
    | _, _ => ⟨none, .empty⟩

/-! ## What the writer leaves unmasked -/

/-- The texts of a body that `_mask_for_audit_response` passes over. -/
def Body.skippedTexts : Body → List Text
  | .completion (⟨_, some _⟩ :: rest) => rest.filterMap Choice.content
  | body => body.texts

/-- What the texts handed to the writer have to be. -/
def StoresMasked (engine : Engine) (a : AuditLog) : Prop :=
  a.ctx.policyTypes = [] ∨
    if outputOnly a.ctx.scopes then
      ∀ t ∈ messageTexts a.modelRequest.messages ++ a.response.texts,
        Masked engine a.ctx.policyTypes t
    else
      (∃ e, maskForAuditPayload engine a.modelRequest a.ctx.policyTypes = .error e) ∨
      (∃ e, maskForAuditResponse engine a.response a.ctx.policyTypes = .error e) ∨
      ∀ t ∈ partTexts a.modelRequest.messages ++ a.response.skippedTexts,
        Masked engine a.ctx.policyTypes t

section Writer

variable {engine : Engine} {types : List PolicyType}

theorem maskMessage_masked_iff {msg msg' : Message} {mapping mapping' : EntityMapping}
    (hfilled : Filled mapping) (h : maskMessage engine types msg mapping = .ok (msg', mapping')) :
    (∀ t ∈ msg'.content.texts, Masked engine types t) ↔
      ∀ t ∈ msg.content.partTexts, Masked engine types t := by
  rcases maskMessage_ok h with ⟨text, text', hsent, hmasked, hmask⟩ | ⟨rfl, -, hempty⟩
  · rw [hsent, hmasked]
    refine iff_of_true (fun t ht => ?_) nofun
    obtain rfl := List.mem_singleton.mp ht
    exact .inr ⟨text, mapping, mapping', hfilled, hmask⟩
  · cases hcontent : msg'.content with
    | str text =>
      obtain rfl := hempty text hcontent
      refine iff_of_true (fun t ht => ?_) nofun
      exact .inl (List.mem_singleton.mp ht)
    | parts l => rfl
    | absent => rfl

theorem maskMessages_masked_iff {msgs msgs' : List Message} {mapping mapping' : EntityMapping}
    (hfilled : Filled mapping)
    (h : maskMessages engine types msgs mapping = .ok (msgs', mapping')) :
    (∀ t ∈ messageTexts msgs', Masked engine types t) ↔
      ∀ t ∈ partTexts msgs, Masked engine types t := by
  induction msgs generalizing mapping msgs' with
  | nil =>
    cases h
    rfl
  | cons msg rest ih =>
    unfold maskMessages at h
    split at h
    · cases h
    · rename_i msg' mapping₁ hmsg
      split at h
      · cases h
      · rename_i rest' mapping₂ hrest
        cases h
        have hhead := maskMessage_masked_iff hfilled hmsg
        have htail := ih (hfilled.maskMessage hmsg) hrest
        simp only [messageTexts, partTexts, List.flatMap_cons, List.mem_append, or_imp,
          forall_and] at htail ⊢
        rw [hhead, htail]

theorem maskForAuditPayload_iff {payload payload' : Payload}
    (h : maskForAuditPayload engine payload types = .ok payload') :
    (∀ t ∈ messageTexts payload'.messages, Masked engine types t) ↔
      ∀ t ∈ partTexts payload.messages, Masked engine types t := by
  unfold maskForAuditPayload at h
  split at h
  · rename_i hnil
    cases h
    rw [hnil]
    rfl
  · split at h
    · cases h
    · rename_i messages mapping hmask
      cases h
      exact maskMessages_masked_iff .empty hmask

theorem maskForAuditResponse_iff {body body' : Body}
    (h : maskForAuditResponse engine body types = .ok body') :
    (∀ t ∈ body'.texts, Masked engine types t) ↔
      ∀ t ∈ body.skippedTexts, Masked engine types t := by
  unfold maskForAuditResponse at h
  split at h
  · rename_i index text rest
    split at h
    · rename_i hempty
      cases h
      simp [Body.texts, Body.skippedTexts, hempty, Masked]
    · split at h
      · cases h
      · rename_i text' mapping hmask
        cases h
        have hmasked : Masked engine types text' := .inr ⟨text, [], mapping, .empty, hmask⟩
        simp [Body.texts, Body.skippedTexts, hmasked]
  · rename_i hbody
    cases h
    cases hb : body with
    | completion choices =>
      match choices with
      | [] => rfl
      | ⟨index, none⟩ :: rest => rfl
      | ⟨index, some text⟩ :: rest => exact absurd hb (hbody index text rest)
    | empty => rfl
    | error message => rfl
    | raw text => rfl

/-- Without policy types every text is masked as far as there is anything to mask. -/
theorem masked_nil (t : Text) : Masked engine [] t := .inr ⟨t, [], [], .empty, rfl⟩

/-- The row holds masked texts only, exactly when what was handed over allows it. -/
theorem writeAuditLog_iff (a : AuditLog) :
    (∀ t ∈ (writeAuditLog engine a).texts, Masked engine a.ctx.policyTypes t) ↔
      StoresMasked engine a := by
  unfold writeAuditLog StoresMasked
  by_cases htypes : a.ctx.policyTypes = []
  · refine iff_of_true (fun t _ => ?_) (.inl htypes)
    rw [htypes]
    exact masked_nil t
  · rw [or_iff_right htypes]
    cases honly : outputOnly a.ctx.scopes with
    | true => simp [AuditRow.texts]
    | false =>
      simp only [htypes, decide_false, Bool.or_self, Bool.false_eq_true, if_false]
      cases hrequest : maskForAuditPayload engine a.modelRequest a.ctx.policyTypes with
      | error e => simp [AuditRow.texts, Body.texts]
      | ok request =>
        cases hresponse : maskForAuditResponse engine a.response a.ctx.policyTypes with
        | error e => simp [AuditRow.texts, Body.texts]
        | ok response =>
          simp only [AuditRow.texts, Option.map_some, Option.getD_some, List.mem_append, or_imp,
            forall_and, maskForAuditPayload_iff hrequest, maskForAuditResponse_iff hresponse]
          simp

end Writer

/-! ## The call sites -/

/-- Where an audit row of a request comes from. -/
inductive Scheduled (env : Env) (payload : Payload) (a : AuditLog) : Prop
  /-- the policies could not be loaded -/
  | unloaded {prepared : Prepared} (hprepared : prepareRequest env payload = .ok prepared)
      (hctx : buildGuardrailContext env.lookup = none)
      (ha : a = ⟨{}, prepared.payload, .empty, 503⟩)
  /-- the policies could not be applied -/
  | unapplied {prepared : Prepared} {ctx : Context}
      (hprepared : prepareRequest env payload = .ok prepared)
      (hctx : buildGuardrailContext env.lookup = some ctx)
      (happly : applyInputGuardrail env.engine prepared.payload ctx = .error .guardrail)
      (ha : a = ⟨ctx, prepared.payload, .empty, 503⟩)
  /-- the request went on -/
  | applied {prepared : Prepared} {ctx : Context} {payload' : Payload}
      (hprepared : prepareRequest env payload = .ok prepared)
      (hinput : applyGuardrailInput env prepared.payload = .proceed ctx payload')

/-- The policies were loaded and applied. -/
def Enforced (env : Env) (payload : Payload) : Prop :=
  ∃ prepared ctx payload', prepareRequest env payload = .ok prepared ∧
    applyGuardrailInput env prepared.payload = .proceed ctx payload'

section CallSites

variable {env : Env} {payload : Payload} {a : AuditLog}

theorem scheduled_of_blocked {prepared : Prepared}
    (hprepared : prepareRequest env payload = .ok prepared)
    (h : applyGuardrailInput env prepared.payload = .blocked a) : Scheduled env payload a := by
  unfold applyGuardrailInput at h
  split at h
  · rename_i hctx
    cases h
    exact .unloaded hprepared hctx rfl
  · rename_i ctx hctx
    split at h
    · split at h
      · cases h
      · rename_i happly
        cases h
        exact .unapplied hprepared hctx happly rfl
      · cases h
    · cases h

theorem proxyTraced_scheduled {answers : Nat → Answer}
    (ha : a ∈ (proxyTraced env payload answers).audits) : Scheduled env payload a := by
  unfold proxyTraced at ha
  split at ha
  · cases ha
  · rename_i prepared hprepared
    split at ha
    · cases ha
    · rename_i audit hblocked
      obtain rfl := List.mem_singleton.mp ha
      exact scheduled_of_blocked hprepared hblocked
    · rename_i ctx payload' hinput
      exact .applied hprepared hinput

theorem proxyTracedStream_scheduled {answers : Nat → StreamAnswer}
    (ha : a ∈ (proxyTracedStream env payload answers).audits) : Scheduled env payload a := by
  unfold proxyTracedStream at ha
  split at ha
  · cases ha
  · rename_i prepared hprepared
    split at ha
    · cases ha
    · rename_i audit hblocked
      obtain rfl := List.mem_singleton.mp ha
      exact scheduled_of_blocked hprepared hblocked
    · rename_i ctx payload' hinput
      exact .applied hprepared hinput

/-- The property of one row: masked texts only, and no text where the policies were not
applied. -/
def RowMasked (env : Env) (payload : Payload) (a : AuditLog) : Prop :=
  (∀ t ∈ (writeAuditLog env.engine a).texts, Masked env.engine a.ctx.policyTypes t) ∧
    (¬ Enforced env payload → ∀ t ∈ (writeAuditLog env.engine a).texts, t = [])

/-- The condition: a request whose policies were applied hands over what the writer keeps
masked; one whose policies were not has no text, or was stopped by a context that the writer
masks under. -/
def SafeToAudit (env : Env) (payload : Payload) (a : AuditLog) : Prop :=
  (Enforced env payload → StoresMasked env.engine a) ∧
    (¬ Enforced env payload →
      (∃ ctx, buildGuardrailContext env.lookup = some ctx ∧ outputOnly ctx.scopes = false) ∨
        ∀ t ∈ messageTexts payload.messages, t = [])

theorem rowMasked_of_empty (h : ∀ t ∈ (writeAuditLog env.engine a).texts, t = []) :
    RowMasked env payload a :=
  ⟨fun t ht => .inl (h t ht), fun _ => h⟩

/-- The client's payload is stored as it is: nothing to mask with, or an output-only context. -/
theorem rowMasked_raw_iff {ctx : Context} {p : Payload} (hmessages : p.messages = payload.messages)
    (henforced : ¬ Enforced env payload)
    (hraw : (decide (ctx.policyTypes = []) || outputOnly ctx.scopes) = true) :
    RowMasked env payload ⟨ctx, p, .empty, 503⟩ ↔ ∀ t ∈ messageTexts payload.messages, t = [] := by
  have htexts : (writeAuditLog env.engine ⟨ctx, p, .empty, 503⟩).texts =
      messageTexts payload.messages := by
    unfold writeAuditLog
    dsimp only
    rw [if_pos hraw, ← hmessages]
    exact List.append_nil _
  constructor
  · intro hrow
    have hempty := hrow.2 henforced
    rwa [htexts] at hempty
  · intro hempty
    exact rowMasked_of_empty (htexts ▸ hempty)

/-- Masking that raised on the way in raises in the writer too, and the row is empty. -/
theorem writeAuditLog_redacts {ctx : Context} {p : Payload} {e : MaskError}
    (happly : applyInputGuardrail env.engine p ctx = .error e)
    (honly : outputOnly ctx.scopes = false) :
    (writeAuditLog env.engine ⟨ctx, p, .empty, 503⟩).texts = [] := by
  unfold applyInputGuardrail at happly
  split at happly
  · cases happly
  · rename_i hguard
    have htypes : ctx.policyTypes ≠ [] := by
      intro hnil
      simp [hnil] at hguard
    split at happly
    · rename_i e' hmask
      have hmessages : p.messages ≠ [] := by
        intro hnil
        rw [hnil] at hmask
        cases hmask
      have hrequest : maskForAuditPayload env.engine p ctx.policyTypes = .error e' := by
        rw [maskForAuditPayload, if_neg hmessages, hmask]
      unfold writeAuditLog
      simp only [htypes, honly, decide_false, Bool.or_self, Bool.false_eq_true, if_false, hrequest]
      rfl
    · cases happly

end CallSites

def bothEnv : Env := sampleEnv (fun _ => some (phonePolicy .both)) [1]

end Ai4iCore.Guardrail
