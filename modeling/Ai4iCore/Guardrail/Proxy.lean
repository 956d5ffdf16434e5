import Ai4iCore.Guardrail.Context

/-!
# The chat proxy

`OpenAIProxyService` of `services/llm_service.py`: a chat request is resolved and gated,
masked, sent to the requested service and, while that fails, to the application's fallbacks;
the answer is processed and an audit row is scheduled. `proxyTraced` is the buffered entry
point, `proxyTracedStream` the streaming one. Both give back what they did — the payloads
they sent upstream, the audit rows they scheduled — next to what the client gets.

What the outside does to a request (`Env`, and the answers to its calls, counted from 0)
is arbitrary.
-/

namespace Ai4iCore.Guardrail

/-! ## Resolution -/

/-- What the model registry says about a service. -/
structure ServiceInfo where
  isPublished : Bool
  endpoint : String
  modelName : String
  tierIds : List String

/-- The answer of the registry: `LookupError`, `ConnectionError`, or the service. -/
inductive Resolution
  | found (info : ServiceInfo)
  | notFound
  | unreachable

/-- The surroundings of a request. -/
structure Env where
  resolve : String → Resolution
  /-- the `X-Tier-ID` header, empty when there is none -/
  tierId : String
  /-- `get_fallbacks` of the requested service -/
  fallbacks : List String
  lookup : Lookup
  engine : Engine

/-- A service with the payload made out for it. -/
structure Prepared where
  serviceId : String
  modelName : String
  payload : Payload

/-- `resolve_upstream_url`, with the status of the `LLMProxyError` its failure becomes. -/
def resolveUpstream (env : Env) (serviceId : String) : Except Nat ServiceInfo :=
  match env.resolve serviceId with
  | .notFound => .error 404
  | .unreachable => .error 503
  | .found info =>
    if !info.isPublished then .error 404
    else if info.endpoint.toList.all Char.isWhitespace then .error 503
    else .ok info

/-- `_enforce_tier_gate` lets the request through. -/
def passesTierGate (env : Env) (info : ServiceInfo) : Bool :=
  env.tierId = "" || info.tierIds.isEmpty || env.tierId ∈ info.tierIds

/-- `_prepare_request`, with the status of the `LLMProxyError` it raises. -/
def prepareRequest (env : Env) (payload : Payload) : Except Nat Prepared :=
  match resolveUpstream env payload.model with
  | .error status => .error status
  | .ok info =>
    if !passesTierGate env info then .error 403
    else .ok
      { serviceId := payload.model, modelName := info.modelName
        payload := if info.modelName = "" then payload
          else { payload with model := info.modelName } }

/-! ## Failover -/

/-- The loop over `_fallbacks_for`: `call n` is the answer to the `n`-th call of the request,
`failed` says that the next fallback is tried. Returns the services that were called, with
their payloads, and the answer of the last one. -/
def tryFallbacks {β : Type} (env : Env) (payload : Payload) (call : Nat → β)
    (failed : β → Bool) : List String → Nat → β → List Prepared × β
  | [], _, last => ([], last)
  | fallbackId :: rest, n, last =>
    match prepareRequest env { payload with model := fallbackId } with
    -- unknown, unpublished or out of tier: skipped
    | .error _ => tryFallbacks env payload call failed rest n last
    | .ok prepared =>
      if failed (call n) then
        let (called, answer) := tryFallbacks env payload call failed rest (n + 1) (call n)
        (prepared :: called, answer)
      else ([prepared], call n)

/-- The requested service and, while it fails, its fallbacks. -/
def callWithFallbacks {β : Type} (env : Env) (prepared : Prepared) (payload : Payload)
    (call : Nat → β) (failed : β → Bool) : List Prepared × β :=
  let first : Prepared := { prepared with payload }
  if failed (call 0) then
    let (called, answer) := tryFallbacks env payload call failed env.fallbacks 1 (call 0)
    (first :: called, answer)
  else ([first], call 0)

/-! ## Bodies and audit rows -/

/-- A choice of a completion or of a chunk: its index, and the content of its `message` or
`delta` when that is a string. -/
structure Choice where
  index : Option Nat
  content : Option Text
  deriving DecidableEq, Repr

/-- A response body. -/
inductive Body
  | empty
  | completion (choices : List Choice)
  | error (message : String)
  | raw (text : String)
  deriving DecidableEq, Repr

/-- What `schedule_audit_log` is called with. -/
structure AuditLog where
  ctx : Context
  modelRequest : Payload
  response : Body
  statusCode : Nat

/-- What a request did. -/
structure Outcome (ρ : Type) where
  called : List Prepared
  audits : List AuditLog
  result : ρ

/-! ## Input -/

/-- How `_apply_guardrail_input` and `_prepare_stream_guardrail` end. -/
inductive InputResult
  /-- the request goes on -/
  | proceed (ctx : Context) (payload : Payload)
  /-- blocked with 503, and this audit row is scheduled -/
  | blocked (audit : AuditLog)
  /-- an exception that is not a `GuardrailError` leaves the handler -/
  | raised

/-- `_apply_guardrail_input`, and `_prepare_stream_guardrail` with it. -/
def applyGuardrailInput (env : Env) (payload : Payload) : InputResult :=
  match buildGuardrailContext env.lookup with
  | none => .blocked ⟨{}, payload, .empty, 503⟩
  | some ctx =>
    if ctx.active then
      match applyInputGuardrail env.engine payload ctx with
      | .ok (payload', ctx') => .proceed ctx' payload'
      | .error .guardrail => .blocked ⟨ctx, payload, .empty, 503⟩
      | .error .invalidPolicy => .raised
    else .proceed ctx payload

/-! ## The buffered proxy -/

/-- What an upstream does to one buffered call. -/
inductive Answer
  | transport
  | response (statusCode : Nat) (body : Body)

/-- The body `_forward_traced` makes of an upstream error. -/
def errorDetail : Body → Body
  | .error message => .error message
  | _ => .error "Upstream LLM error"

/-- `_forward_traced`. -/
def forwardTraced : Answer → Nat × Body
  | .transport => (502, .error "Upstream LLM request failed")
  | .response status body => (status, if 400 ≤ status then errorDetail body else body)

/-- `_run_fallback_chain_llm`, after the call to the requested service. -/
def forwardWithFallbacks (env : Env) (prepared : Prepared) (payload : Payload)
    (answers : Nat → Answer) : List Prepared × (Nat × Body) :=
  let (called, status, body) := callWithFallbacks env prepared payload
    (fun n => forwardTraced (answers n)) (fun r => 500 ≤ r.1)
  if !env.fallbacks.isEmpty && 500 ≤ status then (called, 503, .error "all_services_unavailable")
  else (called, status, body)

/-- The rewriting of a completion in `_apply_guardrail_output`: the first choice, when its
content is a string. -/
def processFirstChoice (engine : Engine) (ctx : Context) :
    List Choice → Except MaskError (List Choice)
  | [] => .ok []
  | first :: rest =>
    match first.content with
    | none => .ok (first :: rest)
    | some text =>
      match processResponseText engine text ctx with
      | .error e => .error e
      | .ok text' => .ok ({ first with content := some text' } :: rest)

/-- `_apply_guardrail_output`: the answer to the client and the audit rows. -/
def applyGuardrailOutput (engine : Engine) (ctx : Context) (status : Nat) (body : Body)
    (payload : Payload) : List AuditLog × (Nat × Body) :=
  if !ctx.active then ([], status, body)
  else
    match status, body with
    | 200, .completion choices =>
      match processFirstChoice engine ctx choices with
      | .error _ => ([⟨ctx, payload, .empty, 500⟩], 500, .error "guardrail_error")
      | .ok choices' => ([⟨ctx, payload, .completion choices', 200⟩], 200, .completion choices')
    | status, body => ([⟨ctx, payload, body, status⟩], status, body)

/-- `proxy_traced`. `none` is an exception that leaves the handler. -/
def proxyTraced (env : Env) (payload : Payload) (answers : Nat → Answer) :
    Outcome (Option (Nat × Body)) :=
  match prepareRequest env payload with
  | .error status => ⟨[], [], some (status, .error "llm_proxy_error")⟩
  | .ok prepared =>
    match applyGuardrailInput env prepared.payload with
    | .raised => ⟨[], [], none⟩
    | .blocked audit => ⟨[], [audit], some (503, .error "guardrail_error")⟩
    | .proceed ctx payload =>
      let (called, status, body) := forwardWithFallbacks env prepared payload answers
      let (audits, answer) := applyGuardrailOutput env.engine ctx status body payload
      ⟨called, audits, some answer⟩

/-! ## The streaming proxy -/

/-- `_with_include_usage`: the client's value is kept. -/
def withIncludeUsage (payload : Payload) : Payload :=
  { payload with includeUsage := some (payload.includeUsage.getD true) }

/-- A chunk of a stream; `usage` is its usage block, (prompt, completion, cached) tokens. -/
structure Chunk where
  choices : List Choice
  usage : Option (Nat × Nat × Nat)
  deriving DecidableEq, Repr

/-- A line of a stream: a chunk, the end marker, or anything else. -/
inductive Line
  | chunk (c : Chunk)
  | done
  | other
  deriving DecidableEq, Repr

/-- What an upstream does to one streaming call: an error before its first line, or lines. -/
inductive StreamAnswer
  | error (statusCode : Nat) (body : Body)
  | stream (lines : List Line)

/-- `proxy_stream` fails in a way that moves the request to a fallback. -/
def StreamAnswer.failed : StreamAnswer → Bool
  | .error status _ => 500 ≤ status
  | .stream _ => false

/-- `_proxy_stream_with_fallbacks`. -/
def streamWithFallbacks (env : Env) (prepared : Prepared) (payload : Payload)
    (answers : Nat → StreamAnswer) : List Prepared × StreamAnswer :=
  let (called, answer) := callWithFallbacks env prepared payload answers StreamAnswer.failed
  if !env.fallbacks.isEmpty && answer.failed then
    (called, .error 503 (.error "all_services_unavailable"))
  else (called, answer)

/-- The text `_buffered_guardrail_gen` takes from a line: the content of the chunk's first
choice. -/
def Line.firstContent : Line → Text
  | .chunk c => (c.choices.head?.bind Choice.content).getD []
  | _ => []

/-- `last_chunk`. -/
def lastChunk : List Line → Option Chunk
  | [] => none
  | line :: rest =>
    match lastChunk rest, line with
    | some c, _ => some c
    | none, .chunk c => some c
    | none, _ => none

/-- The chunk `_buffered_guardrail_gen` emits: the last one, with the processed text in the
first of its choices. -/
def syntheticChunk (last : Chunk) (text : Text) : Chunk :=
  { last with choices := [⟨last.choices.head?.bind Choice.index, some text⟩] }

/-- `_buffered_guardrail_gen` on the whole stream. `none` is the exception of the masking. -/
def bufferedGuardrailGen (engine : Engine) (ctx : Context) (payload : Payload)
    (lines : List Line) : List AuditLog × Option (List Line) :=
  match processResponseText engine (lines.flatMap Line.firstContent) ctx with
  | .error _ => ([], none)
  | .ok text =>
    match lastChunk lines with
    | some last =>
      let synthetic := syntheticChunk last text
      ([⟨ctx, payload, .completion synthetic.choices, 200⟩], some [.chunk synthetic, .done])
    | none => ([⟨ctx, payload, .empty, 200⟩], some [.done])

/-- What a streaming client gets: a JSON error, or lines; `none` for lines is a stream that
broke off before the first. -/
inductive StreamResult
  | error (statusCode : Nat) (body : Body)
  | stream (lines : Option (List Line))
  | raised

/-- `proxy_traced_stream`, with the stream read to its end. -/
def proxyTracedStream (env : Env) (payload : Payload) (answers : Nat → StreamAnswer) :
    Outcome StreamResult :=
  match prepareRequest env payload with
  | .error status => ⟨[], [], .error status (.error "llm_proxy_error")⟩
  | .ok prepared =>
    match applyGuardrailInput env prepared.payload with
    | .raised => ⟨[], [], .raised⟩
    | .blocked audit => ⟨[], [audit], .error 503 (.error "guardrail_error")⟩
    | .proceed ctx payload =>
      let payload := withIncludeUsage payload
      let (called, answer) := streamWithFallbacks env prepared payload answers
      -- once a service has answered, its own payload
      let payload := if answer.failed then payload
        else (called.getLast?.map Prepared.payload).getD payload
      match answer with
      | .error status body =>
        ⟨called, if ctx.active then [⟨ctx, payload, body, status⟩] else [], .error status body⟩
      | .stream lines =>
        if ctx.active then
          let (audits, lines) := bufferedGuardrailGen env.engine ctx payload lines
          ⟨called, audits, .stream lines⟩
        else ⟨called, [], .stream (some lines)⟩

/-! ## The payloads that are sent -/

section Calls

variable {env : Env} {payload : Payload}

/-- Preparing a request changes the model name and nothing else. -/
theorem prepareRequest_payload {prepared : Prepared}
    (h : prepareRequest env payload = .ok prepared) :
    ∃ model, prepared.payload = { payload with model := model } := by
  unfold prepareRequest at h
  split at h
  · cases h
  · split at h
    · cases h
    · cases h
      dsimp only
      split
      · exact ⟨payload.model, rfl⟩
      · exact ⟨_, rfl⟩

/-- The input guardrail writes the messages and nothing else. -/
theorem applyGuardrailInput_includeUsage {ctx : Context} {payload' : Payload}
    (h : applyGuardrailInput env payload = .proceed ctx payload') :
    payload'.includeUsage = payload.includeUsage := by
  unfold applyGuardrailInput at h
  split at h
  · cases h
  · split at h
    · split at h
      · rename_i payload'' ctx' happly
        cases h
        unfold applyInputGuardrail at happly
        split at happly
        · cases happly
          rfl
        · split at happly
          · cases happly
          · cases happly
            rfl
      · cases h
      · cases h
    · cases h
      rfl

/-- Every fallback gets the same payload, but for the model name. -/
theorem tryFallbacks_payload {β : Type} (call : Nat → β) (failed : β → Bool)
    (fallbacks : List String) (n : Nat) (last : β) :
    ∀ p ∈ (tryFallbacks env payload call failed fallbacks n last).1,
      ∃ model, p.payload = { payload with model := model } := by
  induction fallbacks generalizing n last with
  | nil => simp [tryFallbacks]
  | cons fallbackId rest ih =>
    intro p hp
    unfold tryFallbacks at hp
    split at hp
    · exact ih n last p hp
    · rename_i prepared hprepared
      have hpayload := prepareRequest_payload hprepared
      split at hp
      · rcases List.mem_cons.mp hp with rfl | hp
        · exact hpayload
        · exact ih _ _ p hp
      · obtain rfl := List.mem_singleton.mp hp
        exact hpayload

theorem callWithFallbacks_payload {β : Type} (prepared : Prepared) (call : Nat → β)
    (failed : β → Bool) :
    ∀ p ∈ (callWithFallbacks env prepared payload call failed).1,
      ∃ model, p.payload = { payload with model := model } := by
  intro p hp
  unfold callWithFallbacks at hp
  dsimp only at hp
  split at hp
  · rcases List.mem_cons.mp hp with rfl | hp
    · exact ⟨payload.model, rfl⟩
    · exact tryFallbacks_payload _ _ _ _ _ p hp
  · obtain rfl := List.mem_singleton.mp hp
    exact ⟨payload.model, rfl⟩

/-- The requested service is always called. -/
theorem callWithFallbacks_ne_nil {β : Type} (prepared : Prepared) (call : Nat → β)
    (failed : β → Bool) : (callWithFallbacks env prepared payload call failed).1 ≠ [] := by
  unfold callWithFallbacks
  dsimp only
  split <;> exact List.cons_ne_nil _ _

theorem forwardWithFallbacks_called (prepared : Prepared) (answers : Nat → Answer) :
    (forwardWithFallbacks env prepared payload answers).1 = (callWithFallbacks env prepared payload
      (fun n => forwardTraced (answers n)) (fun r => 500 ≤ r.1)).1 := by
  unfold forwardWithFallbacks
  dsimp only
  split <;> rfl

theorem streamWithFallbacks_called (prepared : Prepared) (answers : Nat → StreamAnswer) :
    (streamWithFallbacks env prepared payload answers).1 =
      (callWithFallbacks env prepared payload answers StreamAnswer.failed).1 := by
  unfold streamWithFallbacks
  dsimp only
  split <;> rfl

end Calls

end Ai4iCore.Guardrail
