import Ai4iCore.Base.Generator
import Ai4iCore.Guardrail.InputMasking

/-!
# What a stream leaves on its billing span

A streamed chat answer is billed from the ai-inference span around it, whose attributes are
collected while the stream runs (`_traced_stream_gen`) and put on the span when its body is
over (`traced_span`): as they are when the body returned, with the tokens zeroed when it raised
an `Exception`. The token counts come from the usage block that the upstream sends when
`stream_options.include_usage` is true.

A stream that runs to its end leaves the identity of the request on the span, and a positive
number of tokens unless the upstream broke off or the client had switched the usage block off
(`stream_billed`), which `_with_include_usage` lets it do. The exception that ends a generator
whose consumer stops is no `Exception`: a stream that its client leaves at any of its lines
leaves nothing on the span (`stream_not_billed`).
-/

namespace Ai4iCore.Inference

open Guardrail

/-! ## The span -/

/-- The context variables of a request that its spans carry and billing reads. -/
structure RequestContext where
  correlationId : Option String
  tenantId : Option String
  apiKeyId : Option String

/-- The attributes of an ai-inference span that billing reads. -/
structure SpanAttrs where
  correlationId : Option String := none
  tenantId : Option String := none
  apiKeyId : Option String := none
  serviceId : Option String := none
  inputTokens : Option Nat := none
  outputTokens : Option Nat := none
  cachedInputTokens : Option Nat := none
  deriving DecidableEq, Repr

def SpanAttrs.withTokens (a : SpanAttrs) (input output cached : Nat) : SpanAttrs :=
  { a with
    inputTokens := some input
    outputTokens := some output
    cachedInputTokens := some cached }

/-- What billing multiplies with the prices. -/
def SpanAttrs.tokens (a : SpanAttrs) : Nat := a.inputTokens.getD 0 + a.outputTokens.getD 0

/-- A context variable that is set, and not to the empty string. -/
def nonEmpty (v : Option String) : Option String := v.filter (· ≠ "")

/-- `get_context_attributes`. -/
def getContextAttributes (req : RequestContext) : SpanAttrs where
  correlationId := nonEmpty req.correlationId
  tenantId := nonEmpty req.tenantId
  apiKeyId := nonEmpty req.apiKeyId

/-- `traced_span` around a body that has run: the attributes of the span that is exported. -/
def tracedSpan {β : Type} (errorAttrs : SpanAttrs → SpanAttrs) (body : Gen.Ran SpanAttrs β) :
    SpanAttrs :=
  match body.exit with
  | .returned => body.state
  | .raised => errorAttrs body.state
  -- `GeneratorExit` and `CancelledError` pass both `finalize_span` calls by
  | .exited => {}

/-- `_zero_tokens` of `traced_inference`. -/
def zeroTokens (a : SpanAttrs) : SpanAttrs := a.withTokens 0 0 0

/-- The attributes when the body of `_traced_stream_gen` begins to read the stream. -/
def streamAttrs (req : RequestContext) (serviceId : String) : SpanAttrs :=
  { (getContextAttributes req).withTokens 0 0 0 with
    serviceId := some serviceId
    tenantId := some ((nonEmpty req.tenantId).getD "") }

/-! ## The stream -/

/-- The usage block of a line: prompt, completion and cached tokens. -/
def lineUsage : Line → Option (Nat × Nat × Nat)
  | .chunk c => c.usage
  | _ => none

/-- `_record_stream_usage`. -/
def recordStreamUsage (line : Line) (a : SpanAttrs) : SpanAttrs :=
  match lineUsage line with
  | some (input, output, cached) => a.withTokens input output cached
  | none => a

/-- The loop over the upstream's lines ends, or raises with the upstream. -/
def upstreamEnd (breaks : Bool) (rest : Gen SpanAttrs Line) : Gen SpanAttrs Line :=
  if breaks then .raise else rest

/-- The body of `_traced_stream_gen`: the lines are passed on as they come, or, under a
guardrail, read to the end first (`_buffered_guardrail_gen`). -/
def streamBody (engine : Engine) (ctx : Context) (payload : Payload) (lines : List Line)
    (breaks : Bool) : Gen SpanAttrs Line :=
  if !ctx.active then .relay recordStreamUsage lines (upstreamEnd breaks .done)
  else .consume recordStreamUsage lines <| upstreamEnd breaks <|
    match (bufferedGuardrailGen engine ctx payload lines).2 with
    | none => .raise
    | some out => .emit out .done

/-- A stream that was answered: the service with the payload it got, its lines, the lines that
reached the client, and the ai-inference span. -/
structure Streamed where
  sent : Prepared
  answer : List Line
  delivered : List Line
  span : SpanAttrs

/-- `_traced_stream_gen`, for a client that takes the lines up to number `stop`. -/
def tracedStreamGen (engine : Engine) (req : RequestContext) (ctx : Context) (sent : Prepared)
    (lines : List Line) (breaks : Bool) (stop : Option Nat) : Streamed :=
  let body := (streamBody engine ctx sent.payload lines breaks).run stop
    (streamAttrs req sent.serviceId)
  { sent, answer := lines, delivered := body.yielded, span := tracedSpan zeroTokens body }

/-- `proxy_traced_stream` with the stream it returns; `none` when there is no stream. The
upstream's stream ends after its lines, or `breaks`. -/
def tracedStream (env : Env) (req : RequestContext) (payload : Payload)
    (answers : Nat → StreamAnswer) (breaks : Bool) (stop : Option Nat) : Option Streamed :=
  match prepareRequest env payload with
  | .error _ => none
  | .ok prepared =>
    match applyGuardrailInput env prepared.payload with
    | .proceed ctx payload =>
      let (called, answer) := streamWithFallbacks env prepared (withIncludeUsage payload) answers
      match answer, called.getLast? with
      | .stream lines, some sent =>
        some (tracedStreamGen env.engine req ctx sent lines breaks stop)
      | _, _ => none
    | _ => none

section

variable {env : Env} {req : RequestContext} {payload : Payload}
  {answers : Nat → StreamAnswer} {breaks : Bool} {stop : Option Nat} {r : Streamed}

theorem tracedStream_cases (h : tracedStream env req payload answers breaks stop = some r) :
    ∃ prepared ctx payload' lines sent,
      prepareRequest env payload = .ok prepared ∧
      applyGuardrailInput env prepared.payload = .proceed ctx payload' ∧
      (streamWithFallbacks env prepared (withIncludeUsage payload') answers).2 = .stream lines ∧
      (streamWithFallbacks env prepared (withIncludeUsage payload') answers).1.getLast? =
        some sent ∧
      r = tracedStreamGen env.engine req ctx sent lines breaks stop := by
  unfold tracedStream at h
  split at h
  · cases h
  · rename_i prepared hprepared
    split at h
    · rename_i ctx payload' hinput
      dsimp only at h
      split at h
      · rename_i lines sent hanswer hsent
        exact ⟨prepared, ctx, payload', lines, sent, hprepared, hinput, hanswer, hsent,
          (Option.some.inj h).symm⟩
      · cases h
    · cases h

/-- Read to its end, the stream is the one of `proxyTracedStream`. -/
theorem tracedStream_delivered (h : tracedStream env req payload answers false none = some r) :
    ∃ lines, (proxyTracedStream env payload answers).result = .stream lines ∧
      r.delivered = lines.getD [] := by
  obtain ⟨prepared, ctx, payload', lines, sent, hprepared, hinput, hanswer, hsent, rfl⟩ :=
    tracedStream_cases h
  unfold proxyTracedStream
  rw [hprepared]
  dsimp only
  rw [hinput]
  dsimp only
  rw [hanswer, hsent]
  dsimp only
  unfold tracedStreamGen streamBody upstreamEnd
  cases hactive : ctx.active with
  | false =>
    refine ⟨some lines, by simp, ?_⟩
    simp [Gen.run_relay, Gen.run, Gen.Ran.prepend]
  | true =>
    cases hout : (bufferedGuardrailGen env.engine ctx sent.payload lines).2 with
    | none =>
      refine ⟨none, ?_, ?_⟩
      · simpa [StreamAnswer.failed] using hout
      · simp [Gen.run_consume, Gen.run]
    | some out =>
      refine ⟨some out, ?_, ?_⟩
      · simpa [StreamAnswer.failed] using hout
      · simp [Gen.run_consume, Gen.run_emit, Gen.run, Gen.Ran.prepend]

/-! ## The flag -/

/-- What goes upstream asks for the usage block, unless the client had its say. -/
theorem sent_includeUsage (h : tracedStream env req payload answers breaks stop = some r) :
    r.sent.payload.includeUsage = some (payload.includeUsage.getD true) := by
  obtain ⟨prepared, ctx, payload', lines, sent, hprepared, hinput, -, hsent, rfl⟩ :=
    tracedStream_cases h
  obtain ⟨model, hmodel⟩ := prepareRequest_payload hprepared
  have hkept : payload'.includeUsage = payload.includeUsage := by
    rw [applyGuardrailInput_includeUsage hinput, hmodel]
  have hmem := List.mem_of_getLast? hsent
  rw [streamWithFallbacks_called] at hmem
  obtain ⟨model', hmodel'⟩ := callWithFallbacks_payload _ _ _ sent hmem
  show sent.payload.includeUsage = _
  rw [hmodel', withIncludeUsage, hkept]

end

/-! ## The attributes -/

/-- The span carries what identifies the request and the service that answered. -/
structure Identified (req : RequestContext) (serviceId : String) (a : SpanAttrs) : Prop where
  correlationId : a.correlationId = nonEmpty req.correlationId
  tenantId : a.tenantId = some ((nonEmpty req.tenantId).getD "")
  apiKeyId : a.apiKeyId = nonEmpty req.apiKeyId
  serviceId : a.serviceId = some serviceId

theorem Identified.withTokens {req : RequestContext} {serviceId : String} {a : SpanAttrs}
    (h : Identified req serviceId a) (input output cached : Nat) :
    Identified req serviceId (a.withTokens input output cached) :=
  ⟨h.correlationId, h.tenantId, h.apiKeyId, h.serviceId⟩

theorem identified_streamAttrs (req : RequestContext) (serviceId : String) :
    Identified req serviceId (streamAttrs req serviceId) :=
  ⟨rfl, rfl, rfl, rfl⟩

/-- The usage block that counts is the last one. -/
def lastUsage (lines : List Line) : Option (Nat × Nat × Nat) :=
  (lines.filterMap lineUsage).getLast?

/-- The attributes after the loop over the lines. -/
def recordAll (lines : List Line) (a : SpanAttrs) : SpanAttrs :=
  lines.foldl (fun a line => recordStreamUsage line a) a

theorem lastUsage_concat (lines : List Line) (line : Line) :
    lastUsage (lines ++ [line]) = (lineUsage line).or (lastUsage lines) := by
  rw [lastUsage, List.filterMap_append, List.filterMap_cons]
  cases lineUsage line with
  | none =>
    rw [List.filterMap_nil, List.append_nil]
    rfl
  | some u => exact List.getLast?_concat

theorem recordAll_eq (lines : List Line) (a : SpanAttrs) :
    recordAll lines a = match lastUsage lines with
      | some (input, output, cached) => a.withTokens input output cached
      | none => a := by
  induction lines using List.reverseRecOn with
  | nil => rfl
  | append_singleton lines line ih =>
    have hstep : recordAll (lines ++ [line]) a = recordStreamUsage line (recordAll lines a) := by
      rw [recordAll, List.foldl_append]
      rfl
    rw [hstep, ih, lastUsage_concat, recordStreamUsage]
    cases lineUsage line with
    | none => rfl
    | some u =>
      -- a later block replaces an earlier one
      dsimp only [Option.some_or]
      split <;> rfl

theorem recordAll_identified {req : RequestContext} {serviceId : String} {a : SpanAttrs}
    (h : Identified req serviceId a) (lines : List Line) :
    Identified req serviceId (recordAll lines a) := by
  rw [recordAll_eq]
  split
  · exact h.withTokens _ _ _
  · exact h

/-- What is assumed of an upstream: it reports the usage of its answer, a positive number of
tokens, exactly when `include_usage` is true. -/
structure ReportsUsage (includeUsage : Option Bool) (lines : List Line) : Prop where
  reported : (lastUsage lines).isSome = true ↔ includeUsage = some true
  positive : ∀ u, lastUsage lines = some u → 0 < u.1 + u.2.1

theorem ReportsUsage.tokens_recordAll {includeUsage : Option Bool} {lines : List Line}
    (h : ReportsUsage includeUsage lines) (req : RequestContext) (serviceId : String) :
    0 < (recordAll lines (streamAttrs req serviceId)).tokens ↔ includeUsage = some true := by
  rw [← h.reported, recordAll_eq]
  cases hlast : lastUsage lines with
  | none =>
    refine iff_of_false ?_ (by simp)
    exact Nat.lt_irrefl 0
  | some u =>
    refine iff_of_true ?_ rfl
    exact h.positive u hlast

/-! ## A stream that runs to its end -/

section

variable (engine : Engine) (ctx : Context) (payload : Payload) (lines : List Line)
  (breaks : Bool) (a : SpanAttrs)

theorem streamBody_state :
    ((streamBody engine ctx payload lines breaks).run none a).state = recordAll lines a := by
  have hend : ∀ (rest : Gen SpanAttrs Line) (a : SpanAttrs), (rest.run none a).state = a →
      ((upstreamEnd breaks rest).run none a).state = a := by
    intro rest a hrest
    cases breaks with
    | false => exact hrest
    | true => rfl
  unfold streamBody
  split
  · rw [Gen.run_relay]
    exact hend _ _ rfl
  · rw [Gen.run_consume]
    refine hend _ _ ?_
    split
    · rfl
    · rw [Gen.run_emit]
      rfl

/-- Once something has reached the client, only the upstream can make the body raise. -/
theorem streamBody_exit
    (hne : ((streamBody engine ctx payload lines breaks).run none a).yielded ≠ []) :
    ((streamBody engine ctx payload lines breaks).run none a).exit =
      if breaks then .raised else .returned := by
  unfold streamBody at hne ⊢
  split
  · rw [Gen.run_relay]
    cases breaks <;> rfl
  · rename_i hactive
    rw [if_neg hactive, Gen.run_consume] at hne
    rw [Gen.run_consume]
    cases breaks with
    | true => rfl
    | false =>
      split at hne
      · exact absurd rfl hne
      · rename_i out hout
        simp only [upstreamEnd, Bool.false_eq_true, if_false]
        rw [Gen.run_emit]
        rfl

end

/-! ## The service of a span -/

theorem recordStreamUsage_serviceId (line : Line) (a : SpanAttrs) :
    (recordStreamUsage line a).serviceId = a.serviceId := by
  unfold recordStreamUsage
  split <;> rfl

theorem streamBody_keeps (engine : Engine) (ctx : Context) (payload : Payload) (lines : List Line)
    (breaks : Bool) (id : Option String) :
    (streamBody engine ctx payload lines breaks).Keeps fun a => a.serviceId = id := by
  have hline : ∀ line (a : SpanAttrs), a.serviceId = id →
      (recordStreamUsage line a).serviceId = id :=
    fun line a h => (recordStreamUsage_serviceId line a).trans h
  have hend : ∀ rest : Gen SpanAttrs Line, (rest.Keeps fun a => a.serviceId = id) →
      (upstreamEnd breaks rest).Keeps fun a => a.serviceId = id := by
    intro rest hrest
    cases breaks with
    | false => exact hrest
    | true => trivial
  unfold streamBody
  split
  · exact .relay hline _ (hend _ trivial)
  · refine .consume hline _ (hend _ ?_)
    split
    · trivial
    · exact .emit _ trivial

/-- A span with tokens carries the service that the request was sent to. -/
theorem tracedStreamGen_serviceId (engine : Engine) (req : RequestContext) (ctx : Context)
    (sent : Prepared) (lines : List Line) (breaks : Bool) (stop : Option Nat)
    (htokens : (tracedStreamGen engine req ctx sent lines breaks stop).span.tokens ≠ 0) :
    (tracedStreamGen engine req ctx sent lines breaks stop).span.serviceId =
      some sent.serviceId := by
  have hstate := (streamBody_keeps engine ctx sent.payload lines breaks
    (some sent.serviceId)).state stop
    (show (streamAttrs req sent.serviceId).serviceId = some sent.serviceId from rfl)
  unfold tracedStreamGen tracedSpan at htokens ⊢
  dsimp only at htokens ⊢
  split at htokens
  · exact hstate
  · exact absurd rfl htokens
  · exact absurd rfl htokens

/-- A line with text for the client. -/
def hasContent : Line → Bool
  | .chunk c => c.choices.any fun choice => choice.content.any (· ≠ [])
  | _ => false

/-- Text of the upstream's answer reached the client. -/
def Streamed.contentDelivered (r : Streamed) : Bool :=
  r.answer.any hasContent && r.delivered.any hasContent

/-- A stream with text for the client that runs to its end leaves the identity of the request
and the service on the span, and a positive number of tokens exactly when the upstream did not
break off and the client did not set `include_usage` to another value than true. -/
theorem stream_billed {env : Env} {req : RequestContext} {payload : Payload}
    {answers : Nat → StreamAnswer} {breaks : Bool} {r : Streamed}
    (h : tracedStream env req payload answers breaks none = some r)
    (hreports : breaks = false → ReportsUsage r.sent.payload.includeUsage r.answer)
    (hcontent : r.contentDelivered = true) :
    Identified req r.sent.serviceId r.span ∧
      (0 < r.span.tokens ↔ breaks = false ∧ payload.includeUsage ≠ some false) := by
  have hflag := sent_includeUsage h
  obtain ⟨prepared, ctx, payload', lines, sent, -, -, -, -, rfl⟩ := tracedStream_cases h
  have hdelivered : ((streamBody env.engine ctx sent.payload lines breaks).run none
      (streamAttrs req sent.serviceId)).yielded ≠ [] := by
    intro hnil
    unfold Streamed.contentDelivered at hcontent
    have hany := (Bool.and_eq_true_iff.mp hcontent).2
    rw [show (tracedStreamGen env.engine req ctx sent lines breaks none).delivered = [] from hnil]
      at hany
    cases hany
  have hstate := streamBody_state env.engine ctx sent.payload lines breaks
    (streamAttrs req sent.serviceId)
  have hexit := streamBody_exit env.engine ctx sent.payload lines breaks
    (streamAttrs req sent.serviceId) hdelivered
  have hidentified : Identified req sent.serviceId
      (recordAll lines (streamAttrs req sent.serviceId)) :=
    recordAll_identified (identified_streamAttrs req sent.serviceId) lines
  show Identified req sent.serviceId (tracedSpan zeroTokens _) ∧
    (0 < (tracedSpan zeroTokens _).tokens ↔ _)
  unfold tracedSpan
  rw [hexit, hstate]
  cases breaks with
  | true =>
    refine ⟨hidentified.withTokens 0 0 0, iff_of_false ?_ (by simp)⟩
    exact Nat.lt_irrefl 0
  | false =>
    refine ⟨hidentified, ?_⟩
    have htokens : 0 < (recordAll lines (streamAttrs req sent.serviceId)).tokens ↔
        sent.payload.includeUsage = some true :=
      (hreports rfl).tokens_recordAll req sent.serviceId
    have hsent : sent.payload.includeUsage = some (payload.includeUsage.getD true) := hflag
    show 0 < (recordAll lines (streamAttrs req sent.serviceId)).tokens ↔ _
    rw [htokens, hsent]
    cases payload.includeUsage with
    | none => simp
    | some b => cases b <;> simp

/-! ## Samples -/

/-- A service without policies that answers with one word; it reports usage when `usage`. -/
def sampleStream (usage : Bool) (_ : Nat) : StreamAnswer :=
  .stream ([.chunk ⟨[⟨some 0, some "ok".toList⟩], none⟩] ++
    (if usage then [.chunk ⟨[], some (5, 2, 0)⟩] else []) ++ [.done])

def sampleRequest : RequestContext := ⟨some "corr-1", some "acme", some "key-7"⟩

def streamOf (includeUsage : Option Bool) : Payload := ⟨"chat", [], includeUsage⟩

theorem stream_billed_seven_tokens : ∃ r,
    tracedStream (sampleEnv (fun _ => none) []) sampleRequest (streamOf none) (sampleStream true)
      false none = some r ∧
    r.span.tokens = 7 ∧ Identified sampleRequest r.sent.serviceId r.span ∧
      (0 < r.span.tokens ↔ false = false ∧ (streamOf none).includeUsage ≠ some false) := by
  refine ⟨_, rfl, rfl, @stream_billed (sampleEnv (fun _ => none) []) sampleRequest (streamOf none)
    (sampleStream true) false _ rfl (fun _ => ⟨by decide, ?_⟩) (by decide +kernel)⟩
  rintro u hu
  obtain rfl := Option.some.inj hu
  decide

/-- Two ways to text without a bill: the client sets `include_usage` to false and reads to the
end, or it stops after the first line. -/
theorem stream_not_billed :
    (∃ r, tracedStream (sampleEnv (fun _ => none) []) sampleRequest (streamOf (some false))
        (sampleStream false) false none = some r ∧
      ReportsUsage r.sent.payload.includeUsage r.answer ∧ r.contentDelivered = true ∧
      r.span.tokens = 0) ∧
    ∃ r, tracedStream (sampleEnv (fun _ => none) []) sampleRequest (streamOf none)
        (sampleStream true) false (some 0) = some r ∧
      ReportsUsage r.sent.payload.includeUsage r.answer ∧ r.contentDelivered = true ∧
      r.span = {} := by
  refine ⟨⟨_, rfl, ⟨by decide, nofun⟩, by decide +kernel, rfl⟩, ⟨_, rfl, ⟨by decide, ?_⟩,
    by decide +kernel, rfl⟩⟩
  rintro u hu
  obtain rfl := Option.some.inj hu
  decide

end Ai4iCore.Inference
