import Ai4iCore.Inference.StreamBilling
import Ai4iCore.Task.Failover

/-!
# The services that a chat request calls

The chat proxy is a chain of calls like a task request, by status codes where that one has
exceptions: the requested service, and its fallbacks while the one before failed with a 5xx
status or could not be reached. A buffered request leaves an ai-inference span for each call, a
streamed one for the stream that it got; tokens are left by the last call only.
-/

namespace Ai4iCore.Inference

open Guardrail

/-! ## The calls -/

/-- A fallback, unless it is skipped. -/
def fallbackCandidate (env : Env) (payload : Payload) (fallbackId : String) : Option Prepared :=
  (prepareRequest env { payload with model := fallbackId }).toOption

/-- The services that a request may call. -/
def candidates (env : Env) (prepared : Prepared) (payload : Payload) : List (Option Prepared) :=
  some { prepared with payload } :: env.fallbacks.map (fallbackCandidate env payload)

/-- The calls with their numbers. -/
def calls {β : Type} (env : Env) (prepared : Prepared) (payload : Payload) (call : Nat → β)
    (failed : β → Bool) : List (Prepared × Nat) :=
  Chain.attempts (fun _ n => n) (fun n => failed (call n)) (candidates env prepared payload) 0

theorem prepareRequest_spec {env : Env} {payload : Payload} {prepared : Prepared}
    (h : prepareRequest env payload = .ok prepared) :
    prepared.serviceId = payload.model ∧
      ∃ info, resolveUpstream env payload.model = .ok info ∧ passesTierGate env info = true := by
  unfold prepareRequest at h
  cases hinfo : resolveUpstream env payload.model with
  | error status =>
    rw [hinfo] at h
    cases h
  | ok info =>
    rw [hinfo] at h
    dsimp only at h
    cases hgate : passesTierGate env info with
    | false =>
      rw [hgate] at h
      cases h
    | true =>
      rw [hgate] at h
      cases h
      exact ⟨rfl, info, rfl, hgate⟩

theorem fallbackCandidate_ok {env : Env} {payload : Payload} {id : String} {prepared : Prepared}
    (h : prepareRequest env { payload with model := id } = .ok prepared) :
    fallbackCandidate env payload id = some prepared := by
  rw [fallbackCandidate, h]
  rfl

theorem fallbackCandidate_error {env : Env} {payload : Payload} {id : String} {status : Nat}
    (h : prepareRequest env { payload with model := id } = .error status) :
    fallbackCandidate env payload id = none := by
  rw [fallbackCandidate, h]
  rfl

section Chains

variable {β : Type} {env : Env} {prepared : Prepared} {payload : Payload} {call : Nat → β}
  {failed : β → Bool}

/-- The result of the last call. -/
def lastResult (call : Nat → β) (cs : List (Prepared × Nat)) (before : β) : β :=
  match cs.getLast? with
  | none => before
  | some c => call c.2

theorem lastResult_cons (c : Prepared × Nat) (cs : List (Prepared × Nat)) (before : β) :
    lastResult call (c :: cs) before = lastResult call cs (call c.2) := by
  unfold lastResult
  cases cs with
  | nil => rfl
  | cons d ds =>
    rw [List.getLast?_cons_cons]
    cases hlast : (d :: ds).getLast? with
    | none => exact absurd (List.getLast?_eq_none_iff.mp hlast) (List.cons_ne_nil d ds)
    | some e => rfl

theorem tryFallbacks_eq (ids : List String) (n : Nat) (last : β) :
    tryFallbacks env payload call failed ids n last =
      let cs := Chain.attempts (fun _ n => n) (fun n => failed (call n))
        (ids.map (fallbackCandidate env payload)) n
      (cs.map Prod.fst, lastResult call cs last) := by
  induction ids generalizing n last with
  | nil => rfl
  | cons id ids ih =>
    rw [List.map_cons]
    unfold tryFallbacks
    cases hprepared : prepareRequest env { payload with model := id } with
    | error status =>
      rw [fallbackCandidate_error hprepared]
      exact ih n last
    | ok fallback =>
      rw [fallbackCandidate_ok hprepared]
      dsimp only [Chain.attempts]
      rw [lastResult_cons]
      split
      · rw [ih]
        rfl
      · rfl

theorem callWithFallbacks_eq :
    callWithFallbacks env prepared payload call failed =
      ((calls env prepared payload call failed).map Prod.fst,
        lastResult call (calls env prepared payload call failed) (call 0)) := by
  unfold callWithFallbacks calls candidates
  dsimp only [Chain.attempts]
  rw [lastResult_cons]
  split
  · rw [tryFallbacks_eq]
    rfl
  · rfl

theorem calls_ne_nil : calls env prepared payload call failed ≠ [] := by
  intro h
  exact List.cons_ne_nil _ _ h

theorem calls_getElem {k : Nat} {c : Prepared × Nat}
    (h : (calls env prepared payload call failed)[k]? = some c) : c.2 = k := by
  rw [Chain.getElem?_attempts h, Nat.zero_add]

/-- Every call but the last one failed. -/
theorem calls_failed {k : Nat} (h : k + 1 < (calls env prepared payload call failed).length) :
    failed (call k) = true := by
  have hk : k < (calls env prepared payload call failed).length := by omega
  have hget : (calls env prepared payload call failed)[k]? =
      some (calls env prepared payload call failed)[k] := List.getElem?_eq_getElem hk
  have hmem : (calls env prepared payload call failed)[k] ∈
      (calls env prepared payload call failed).dropLast := by
    refine List.mem_of_getElem? (i := k) ?_
    rw [List.getElem?_dropLast, if_pos (by omega), hget]
  have hagain := Chain.again_of_mem_dropLast hmem
  rw [calls_getElem hget] at hagain
  exact hagain

theorem calls_gated {p : Payload} (hprepared : prepareRequest env p = .ok prepared)
    {c : Prepared × Nat} (h : c ∈ calls env prepared payload call failed) :
    ∃ info, resolveUpstream env c.1.serviceId = .ok info ∧ passesTierGate env info = true := by
  rcases List.mem_cons.mp (Chain.mem_candidates h) with hc | hc
  · rw [Option.some.inj hc]
    obtain ⟨hid, hgate⟩ := prepareRequest_spec hprepared
    rw [← hid] at hgate
    exact hgate
  · obtain ⟨id, -, hid⟩ := List.mem_map.mp hc
    obtain ⟨hsame, hgate⟩ := prepareRequest_spec (Checked.toOption_ok hid)
    rw [← hsame] at hgate
    exact hgate

end Chains

/-! ## What a request leaves on its way -/

/-- The ai-inference spans of a request, and `request.state.service_id`. -/
structure Trail where
  spans : List SpanAttrs
  state : String

/-- The loop of `_run_fallback_chain_llm`, and that of `_proxy_stream_with_fallbacks`, which
opens no span: `span` is what a call leaves. -/
def followFallbacks {β : Type} (env : Env) (payload : Payload) (call : Nat → β)
    (failed : β → Bool) (span : Prepared → Nat → List SpanAttrs) :
    List String → Nat → Trail → Trail
  | [], _, trail => trail
  | fallbackId :: rest, n, trail =>
    match prepareRequest env { payload with model := fallbackId } with
    | .error _ => followFallbacks env payload call failed span rest n trail
    | .ok prepared =>
      let spans := trail.spans ++ span prepared n
      if failed (call n) then
        followFallbacks env payload call failed span rest (n + 1) { trail with spans }
      else ⟨spans, fallbackId⟩

/-- The requested service, which is on `request.state` already, and its fallbacks. -/
def follow {β : Type} (env : Env) (prepared : Prepared) (payload : Payload) (call : Nat → β)
    (failed : β → Bool) (span : Prepared → Nat → List SpanAttrs) : Trail :=
  let trail : Trail := ⟨span { prepared with payload } 0, prepared.serviceId⟩
  if failed (call 0) then followFallbacks env payload call failed span env.fallbacks 1 trail
  else trail

section Trails

variable {β : Type} {env : Env} {prepared : Prepared} {payload : Payload} {call : Nat → β}
  {failed : β → Bool} {span : Prepared → Nat → List SpanAttrs}

/-- The service on `request.state` after some calls. -/
def lastState (call : Nat → β) (failed : β → Bool) (cs : List (Prepared × Nat))
    (before : String) : String :=
  match cs.getLast? with
  | none => before
  | some c => if failed (call c.2) then before else c.1.serviceId

theorem lastState_cons {c : Prepared × Nat} {cs : List (Prepared × Nat)} {before : String}
    (h : failed (call c.2) = true) :
    lastState call failed (c :: cs) before = lastState call failed cs before := by
  unfold lastState
  cases cs with
  | nil =>
    show (if failed (call c.2) = true then before else c.1.serviceId) = before
    rw [if_pos h]
  | cons d ds => rw [List.getLast?_cons_cons]

theorem followFallbacks_eq (ids : List String) (n : Nat) (trail : Trail) :
    followFallbacks env payload call failed span ids n trail =
      let cs := Chain.attempts (fun _ n => n) (fun n => failed (call n))
        (ids.map (fallbackCandidate env payload)) n
      ⟨trail.spans ++ cs.flatMap fun c => span c.1 c.2, lastState call failed cs trail.state⟩ := by
  induction ids generalizing n trail with
  | nil =>
    show trail = ⟨trail.spans ++ [], trail.state⟩
    rw [List.append_nil]
  | cons id ids ih =>
    rw [List.map_cons]
    unfold followFallbacks
    cases hprepared : prepareRequest env { payload with model := id } with
    | error status =>
      rw [fallbackCandidate_error hprepared]
      exact ih n trail
    | ok fallback =>
      rw [fallbackCandidate_ok hprepared]
      dsimp only [Chain.attempts]
      split
      · rename_i hfailed
        rw [ih]
        dsimp only
        rw [List.flatMap_cons, List.append_assoc, lastState_cons hfailed]
      · rename_i hfailed
        rw [List.flatMap_singleton]
        have hid : fallback.serviceId = id := (prepareRequest_spec hprepared).1
        unfold lastState
        rw [List.getLast?_singleton]
        dsimp only
        rw [if_neg hfailed, hid]

theorem follow_eq :
    follow env prepared payload call failed span =
      ⟨(calls env prepared payload call failed).flatMap fun c => span c.1 c.2,
        lastState call failed (calls env prepared payload call failed) prepared.serviceId⟩ := by
  unfold follow calls candidates
  dsimp only [Chain.attempts]
  split
  · rename_i hfailed
    rw [followFallbacks_eq, List.flatMap_cons, lastState_cons hfailed]
  · rename_i hfailed
    rw [List.flatMap_singleton]
    unfold lastState
    rw [List.getLast?_singleton]
    dsimp only
    rw [if_neg hfailed]

end Trails

/-! ## Buffered requests -/

/-- The ai-inference span of `_forward_traced`; `usage` is what `get_llm_usage` and
`get_llm_cached_tokens` read from the body of the answer. -/
def forwardSpan (req : RequestContext) (serviceId : String) (answer : Answer)
    (usage : Nat × Nat × Nat) : SpanAttrs :=
  match answer with
  | .transport => streamAttrs req serviceId
  | .response status _ =>
    -- the body of an error is replaced before its usage is read
    if 400 ≤ status then (streamAttrs req serviceId).withTokens 0 0 0
    else (streamAttrs req serviceId).withTokens usage.1 usage.2.1 usage.2.2

/-- What `proxy_traced` leaves; `usage n` is reported by the `n`-th answer. -/
def proxyTrail (env : Env) (req : RequestContext) (payload : Payload) (answers : Nat → Answer)
    (usage : Nat → Nat × Nat × Nat) : Trail :=
  match prepareRequest env payload with
  | .error _ => ⟨[], payload.model⟩
  | .ok prepared =>
    match applyGuardrailInput env prepared.payload with
    | .proceed _ payload =>
      follow env prepared payload (fun n => forwardTraced (answers n)) (fun r => 500 ≤ r.1)
        fun called n => [forwardSpan req called.serviceId (answers n) (usage n)]
    | _ => ⟨[], payload.model⟩

/-- The `service_id` of the "request" span of a buffered request. -/
def requestSpanId (payload : Payload) (trail : Trail) : String :=
  if trail.state = "" then payload.model else trail.state

/-! ## Streamed requests -/

/-- What `proxy_traced_stream` leaves, and the stream that it returns. -/
def streamTrail (env : Env) (req : RequestContext) (payload : Payload)
    (answers : Nat → StreamAnswer) (breaks : Bool) (stop : Option Nat) : Trail :=
  match prepareRequest env payload with
  | .error _ => ⟨[], payload.model⟩
  | .ok prepared =>
    match applyGuardrailInput env prepared.payload with
    | .proceed _ payload' =>
      let trail := follow env prepared (withIncludeUsage payload') answers StreamAnswer.failed
        fun _ _ => []
      { trail with
        spans := ((tracedStream env req payload answers breaks stop).map Streamed.span).toList }
    | _ => ⟨[], payload.model⟩

/-! ## Failover -/

/-- `get_fallbacks`: the stored fallbacks of a service. -/
def getFallbacks (stored : List String) (serviceId : String) : List String :=
  if serviceId = "" then [] else stored.filter fun f => f ≠ "" ∧ f ≠ serviceId

/-- The surroundings of a request whose application has these fallbacks stored. -/
def withStored (env : Env) (stored : List String) (payload : Payload) : Env :=
  { env with fallbacks := getFallbacks stored payload.model }

/-- The failover of a chat request that called some services, with the results of these calls:
all of them were open to the caller, and only a failure was followed by another call. -/
structure Follows {β : Type} (env : Env) (called : List Prepared) (failed : β → Bool)
    (call : Nat → β) : Prop where
  gated : ∀ c ∈ called,
    ∃ info, resolveUpstream env c.serviceId = .ok info ∧ passesTierGate env info = true
  followed : ∀ n, n + 1 < called.length → failed (call n) = true

/-- A chat request names the service that it called last. -/
structure Names (payload : Payload) (called : List Prepared) (trail : Trail) : Prop where
  state : ∃ c, called.getLast? = some c ∧ trail.state = c.serviceId
  requestSpan : requestSpanId payload trail = trail.state

section Chains

variable {β : Type} {env : Env} {prepared : Prepared} {payload payload' : Payload}
  {call : Nat → β} {failed : β → Bool} {span : Prepared → Nat → List SpanAttrs}

theorem calls_follows (h : prepareRequest env payload = .ok prepared) :
    Follows env ((calls env prepared payload' call failed).map Prod.fst) failed call where
  gated c hc := by
    obtain ⟨c', hc', rfl⟩ := List.mem_map.mp hc
    exact calls_gated h hc'
  followed n hn := by
    rw [List.length_map] at hn
    exact calls_failed hn

theorem follows_nil : Follows env [] failed call where
  gated c hc := by cases hc
  followed n hn := absurd hn (Nat.not_lt_zero _)

theorem exists_lastCall :
    ∃ c, (calls env prepared payload call failed).getLast? = some c ∧
      c.2 + 1 = (calls env prepared payload call failed).length ∧
      lastResult call (calls env prepared payload call failed) (call 0) = call c.2 := by
  cases hlast : (calls env prepared payload call failed).getLast? with
  | none => exact absurd (List.getLast?_eq_none_iff.mp hlast) calls_ne_nil
  | some c =>
    have hpos := List.length_pos_of_ne_nil
      (@calls_ne_nil β env prepared payload call failed)
    have hindex : c.2 = (calls env prepared payload call failed).length - 1 := by
      refine @calls_getElem β env prepared payload call failed _ c ?_
      rw [← List.getLast?_eq_getElem?, hlast]
    refine ⟨c, rfl, by omega, ?_⟩
    unfold lastResult
    rw [hlast]

theorem getFallbacks_ne_empty {stored : List String} {id : String} :
    "" ∉ getFallbacks stored id := by
  unfold getFallbacks
  split
  · exact List.not_mem_nil
  · intro h
    have hkept := of_decide_eq_true (List.mem_filter.mp h).2
    exact hkept.1 rfl

/-- A service that was called has an id, unless the client sent none. -/
theorem calls_serviceId (hfallbacks : "" ∉ env.fallbacks) {c : Prepared × Nat}
    (h : c ∈ calls env prepared payload call failed) :
    c.1.serviceId = prepared.serviceId ∨ c.1.serviceId ≠ "" := by
  rcases List.mem_cons.mp (Chain.mem_candidates h) with hc | hc
  · rw [Option.some.inj hc]
    exact .inl rfl
  · obtain ⟨id, hid, hcandidate⟩ := List.mem_map.mp hc
    rw [(prepareRequest_spec (Checked.toOption_ok hcandidate)).1]
    exact .inr fun hempty => hfallbacks (hempty ▸ hid)

/-- Once the last call has not failed, the request names its service. -/
theorem follow_names (hfallbacks : "" ∉ env.fallbacks)
    (hprepared : prepareRequest env payload = .ok prepared)
    (h : failed (lastResult call (calls env prepared payload' call failed) (call 0)) ≠ true) :
    (∃ c, ((calls env prepared payload' call failed).map Prod.fst).getLast? = some c ∧
      (follow env prepared payload' call failed span).state = c.serviceId) ∧
    ((follow env prepared payload' call failed span).state = "" → payload.model = "") := by
  obtain ⟨c, hlast, -, hresult⟩ := @exists_lastCall β env prepared payload' call failed
  have hstate : (follow env prepared payload' call failed span).state = c.1.serviceId := by
    rw [follow_eq]
    dsimp only
    unfold lastState
    rw [hlast]
    dsimp only
    rw [if_neg (hresult ▸ h)]
  refine ⟨⟨c.1, ?_, hstate⟩, ?_⟩
  · rw [List.getLast?_map, hlast]
    rfl
  · intro hempty
    rw [hstate] at hempty
    rcases calls_serviceId hfallbacks (List.mem_of_getLast? hlast) with hid | hid
    · rw [← (prepareRequest_spec hprepared).1, ← hid, hempty]
    · exact absurd hempty hid

end Chains

theorem requestSpanId_eq {payload : Payload} {trail : Trail}
    (h : trail.state = "" → payload.model = "") : requestSpanId payload trail = trail.state := by
  unfold requestSpanId
  split
  · rename_i hempty
    rw [hempty, h hempty]
  · rfl

section Buffered

variable {env : Env} {req : RequestContext} {payload : Payload} {answers : Nat → Answer}
  {usage : Nat → Nat × Nat × Nat}

theorem streamAttrs_tokens (req : RequestContext) (serviceId : String) :
    (streamAttrs req serviceId).tokens = 0 := rfl

/-- A failed call is not charged. -/
theorem forwardSpan_tokens {serviceId : String} {answer : Answer} {u : Nat × Nat × Nat}
    (h : 500 ≤ (forwardTraced answer).1) : (forwardSpan req serviceId answer u).tokens = 0 := by
  cases answer with
  | transport => exact streamAttrs_tokens req serviceId
  | response status body =>
    have hstatus : 400 ≤ status := Nat.le_trans (by decide) h
    unfold forwardSpan
    dsimp only
    rw [if_pos hstatus]
    rfl

/-- The guardrail passes the status on, or blocks the answer. -/
theorem applyGuardrailOutput_status (engine : Engine) (ctx : Context) (status : Nat) (body : Body)
    (payload : Payload) :
    (applyGuardrailOutput engine ctx status body payload).2.1 = status ∨
      (applyGuardrailOutput engine ctx status body payload).2.1 = 500 := by
  unfold applyGuardrailOutput
  split
  · exact .inl rfl
  · split
    · split
      · exact .inr rfl
      · exact .inl rfl
    · exact .inl rfl

theorem prepareRequest_status {status : Nat} (h : prepareRequest env payload = .error status) :
    400 ≤ status := by
  unfold prepareRequest resolveUpstream at h
  cases env.resolve payload.model with
  | found info => grind
  | _ => grind

/-- A buffered request is refused before its first call, or is a chain of calls whose last
result goes to the client. -/
theorem proxyTraced_cases (env : Env) (req : RequestContext) (payload : Payload)
    (answers : Nat → Answer) (usage : Nat → Nat × Nat × Nat) :
    ((proxyTraced env payload answers).called = [] ∧
      (proxyTrail env req payload answers usage).spans = [] ∧
      ∀ r, (proxyTraced env payload answers).result = some r → 400 ≤ r.1) ∨
    ∃ prepared ctx payload', prepareRequest env payload = .ok prepared ∧
      (proxyTraced env payload answers).called = (calls env prepared payload'
        (fun n => forwardTraced (answers n)) fun r => 500 ≤ r.1).map Prod.fst ∧
      proxyTrail env req payload answers usage = follow env prepared payload'
        (fun n => forwardTraced (answers n)) (fun r => 500 ≤ r.1)
        (fun called n => [forwardSpan req called.serviceId (answers n) (usage n)]) ∧
      (proxyTraced env payload answers).result = some (applyGuardrailOutput env.engine ctx
        (forwardWithFallbacks env prepared payload' answers).2.1
        (forwardWithFallbacks env prepared payload' answers).2.2 payload').2 := by
  unfold proxyTraced proxyTrail
  cases hprepared : prepareRequest env payload with
  | error status =>
    refine .inl ⟨rfl, rfl, ?_⟩
    rintro r hr
    obtain rfl := Option.some.inj hr
    exact prepareRequest_status hprepared
  | ok prepared =>
    dsimp only
    cases hinput : applyGuardrailInput env prepared.payload with
    | raised => exact .inl ⟨rfl, rfl, fun r hr => by cases hr⟩
    | blocked audit =>
      refine .inl ⟨rfl, rfl, ?_⟩
      rintro r hr
      obtain rfl := Option.some.inj hr
      exact (by decide : 400 ≤ 503)
    | proceed ctx payload' =>
      refine .inr ⟨prepared, ctx, payload', rfl, ?_, rfl, rfl⟩
      dsimp only
      rw [forwardWithFallbacks_called, callWithFallbacks_eq]

/-- The result of a chain of buffered calls is that of the last one, unless all failed. -/
theorem forwardWithFallbacks_result {prepared : Prepared} {payload' : Payload}
    (h : (forwardWithFallbacks env prepared payload' answers).2.1 < 500) :
    (forwardWithFallbacks env prepared payload' answers).2 =
      lastResult (fun n => forwardTraced (answers n)) (calls env prepared payload'
        (fun n => forwardTraced (answers n)) fun r => 500 ≤ r.1) (forwardTraced (answers 0)) := by
  unfold forwardWithFallbacks at h ⊢
  rw [callWithFallbacks_eq] at h ⊢
  dsimp only at h ⊢
  split at h
  · exact absurd h (show ¬ 503 < 500 by decide)
  · rename_i hnot
    rw [if_neg hnot]

/-- The span number `n` is that of the `n`-th call. -/
theorem proxyTrail_span {n : Nat} {s : SpanAttrs}
    (h : (proxyTrail env req payload answers usage).spans[n]? = some s) :
    ∃ c, (proxyTraced env payload answers).called[n]? = some c ∧
      s = forwardSpan req c.serviceId (answers n) (usage n) := by
  rcases proxyTraced_cases env req payload answers usage with
    ⟨-, hspans, -⟩ | ⟨prepared, ctx, payload', -, hcalled, htrail, -⟩
  · rw [hspans] at h
    cases h
  · rw [htrail, follow_eq] at h
    dsimp only at h
    rw [← List.map_eq_flatMap, List.getElem?_map] at h
    obtain ⟨c, hc, rfl⟩ := Option.map_eq_some_iff.mp h
    refine ⟨c.1, ?_, ?_⟩
    · rw [hcalled, List.getElem?_map, hc]
      rfl
    · rw [calls_getElem hc]

theorem proxyTraced_follows : Follows env (proxyTraced env payload answers).called
    (fun r => 500 ≤ r.1) fun n => forwardTraced (answers n) := by
  rcases proxyTraced_cases env ⟨none, none, none⟩ payload answers fun _ => (0, 0, 0) with
    ⟨hcalled, -⟩ | ⟨prepared, ctx, payload', hprepared, hcalled, -⟩
  · rw [hcalled]
    exact follows_nil
  · rw [hcalled]
    exact calls_follows hprepared

/-- Only the last call is charged. -/
theorem proxyTrail_charged {n : Nat} {s : SpanAttrs}
    (h : (proxyTrail env req payload answers usage).spans[n]? = some s) (htokens : s.tokens ≠ 0) :
    n + 1 = (proxyTraced env payload answers).called.length := by
  obtain ⟨c, hc, rfl⟩ := proxyTrail_span h
  have hn := (List.getElem?_eq_some_iff.mp hc).1
  by_contra hearlier
  have hfailed := (@proxyTraced_follows env payload answers).followed n (by omega)
  exact htokens (forwardSpan_tokens (of_decide_eq_true hfailed))

/-- A successful answer is that of the service that the request names. -/
theorem proxyTrail_names {status : Nat} {body : Body} (hfallbacks : "" ∉ env.fallbacks)
    (h : (proxyTraced env payload answers).result = some (status, body)) (hok : status < 400) :
    Names payload (proxyTraced env payload answers).called
        (proxyTrail env req payload answers usage) ∧
      ∃ n ctx sent body', n + 1 = (proxyTraced env payload answers).called.length ∧
        forwardTraced (answers n) = (status, body') ∧
        (status, body) = (applyGuardrailOutput env.engine ctx status body' sent).2 := by
  rcases proxyTraced_cases env req payload answers usage with
    ⟨-, -, herror⟩ | ⟨prepared, ctx, payload', hprepared, hcalled, htrail, hresult⟩
  · exact absurd hok (Nat.not_lt.mpr (herror _ h))
  · have hanswer := Option.some.inj (h.symm.trans hresult)
    have hstatus : (forwardWithFallbacks env prepared payload' answers).2.1 = status := by
      rcases applyGuardrailOutput_status env.engine ctx
        (forwardWithFallbacks env prepared payload' answers).2.1
        (forwardWithFallbacks env prepared payload' answers).2.2 payload' with hsame | hblocked
      · rw [← hsame, ← hanswer]
      · rw [← hanswer] at hblocked
        exact absurd hok (by rw [show status = 500 from hblocked]; decide)
    have hlast := forwardWithFallbacks_result (by omega :
      (forwardWithFallbacks env prepared payload' answers).2.1 < 500)
    obtain ⟨c, -, hnumber, hcall⟩ := @exists_lastCall _ env prepared payload'
      (fun n => forwardTraced (answers n)) fun r => 500 ≤ r.1
    rw [hcall] at hlast
    have hfirst : (forwardTraced (answers c.2)).1 = status := by rw [← hlast, hstatus]
    obtain ⟨hstate, hempty⟩ := @follow_names _ env prepared payload payload'
      (fun n => forwardTraced (answers n)) (fun r => 500 ≤ r.1)
      (fun called n => [forwardSpan req called.serviceId (answers n) (usage n)]) hfallbacks
      hprepared (by
        rw [hcall]
        intro hfailed
        have := of_decide_eq_true hfailed
        omega)
    rw [hcalled, htrail]
    refine ⟨⟨hstate, requestSpanId_eq hempty⟩, c.2, ctx, payload',
      (forwardTraced (answers c.2)).2, ?_, ?_, ?_⟩
    · rw [List.length_map, hnumber]
    · rw [← hfirst]
    · rw [hanswer, hlast, hfirst]

end Buffered

section Streamed

variable {env : Env} {req : RequestContext} {payload : Payload} {answers : Nat → StreamAnswer}
  {breaks : Bool} {stop : Option Nat}

/-- A streamed request is refused before its first call, or is a chain of calls; its stream is
that of the last one. -/
theorem proxyTracedStream_cases (env : Env) (req : RequestContext) (payload : Payload)
    (answers : Nat → StreamAnswer) (breaks : Bool) (stop : Option Nat) :
    ((proxyTracedStream env payload answers).called = [] ∧
      tracedStream env req payload answers breaks stop = none ∧
      ∀ lines, (proxyTracedStream env payload answers).result ≠ .stream lines) ∨
    ∃ prepared payload', prepareRequest env payload = .ok prepared ∧
      (proxyTracedStream env payload answers).called =
        (calls env prepared payload' answers StreamAnswer.failed).map Prod.fst ∧
      (streamTrail env req payload answers breaks stop).state =
        (follow env prepared payload' answers StreamAnswer.failed fun _ _ => []).state ∧
      (∀ lines, (proxyTracedStream env payload answers).result = .stream lines →
        ∃ lines, (streamWithFallbacks env prepared payload' answers).2 = .stream lines) ∧
      ∀ r, tracedStream env req payload answers breaks stop = some r →
        (streamWithFallbacks env prepared payload' answers).2 = .stream r.answer ∧
        (proxyTracedStream env payload answers).called.getLast? = some r.sent := by
  cases hprepared : prepareRequest env payload with
  | error status =>
    unfold proxyTracedStream tracedStream
    rw [hprepared]
    exact .inl ⟨rfl, rfl, fun lines h => by cases h⟩
  | ok prepared =>
    cases hinput : applyGuardrailInput env prepared.payload with
    | raised =>
      unfold proxyTracedStream tracedStream
      rw [hprepared]
      dsimp only
      rw [hinput]
      exact .inl ⟨rfl, rfl, fun lines h => by cases h⟩
    | blocked audit =>
      unfold proxyTracedStream tracedStream
      rw [hprepared]
      dsimp only
      rw [hinput]
      exact .inl ⟨rfl, rfl, fun lines h => by cases h⟩
    | proceed ctx payload' =>
      have hcalled : (proxyTracedStream env payload answers).called =
          (streamWithFallbacks env prepared (withIncludeUsage payload') answers).1 := by
        unfold proxyTracedStream
        rw [hprepared]
        dsimp only
        rw [hinput]
        dsimp only
        split
        · rfl
        · split
          · rfl
          · rfl
      have hmap : (proxyTracedStream env payload answers).called =
          (calls env prepared (withIncludeUsage payload') answers StreamAnswer.failed).map
            Prod.fst := by
        rw [hcalled, streamWithFallbacks_called, callWithFallbacks_eq]
      refine .inr ⟨prepared, withIncludeUsage payload', rfl, hmap, ?_, ?_, ?_⟩
      · unfold streamTrail
        rw [hprepared]
        dsimp only
        rw [hinput]
      · intro lines hresult
        unfold proxyTracedStream at hresult
        rw [hprepared] at hresult
        dsimp only at hresult
        rw [hinput] at hresult
        dsimp only at hresult
        cases hanswer : (streamWithFallbacks env prepared (withIncludeUsage payload') answers).2 with
        | stream lines => exact ⟨lines, rfl⟩
        | error status body =>
          rw [hanswer] at hresult
          cases hresult
      · intro r hr
        obtain ⟨prepared', ctx', payload'', lines, sent, hprepared', hinput', hanswer, hsent, rfl⟩ :=
          tracedStream_cases hr
        obtain rfl := Except.ok.inj (hprepared.symm.trans hprepared')
        cases hinput.symm.trans hinput'
        rw [hcalled]
        exact ⟨hanswer, hsent⟩

theorem proxyTracedStream_follows : Follows env (proxyTracedStream env payload answers).called
    StreamAnswer.failed answers := by
  rcases proxyTracedStream_cases env ⟨none, none, none⟩ payload answers false none with
    ⟨hcalled, -⟩ | ⟨prepared, payload', hprepared, hcalled, -⟩
  · rw [hcalled]
    exact follows_nil
  · rw [hcalled]
    exact calls_follows hprepared

/-- A stream that the client gets is that of the last call. -/
theorem streamWithFallbacks_stream {prepared : Prepared} {lines : List Line}
    (h : (streamWithFallbacks env prepared payload answers).2 = .stream lines) :
    lastResult answers (calls env prepared payload answers StreamAnswer.failed) (answers 0) =
      .stream lines := by
  unfold streamWithFallbacks at h
  rw [callWithFallbacks_eq] at h
  dsimp only at h
  split at h
  · cases h
  · exact h

theorem streamTrail_names {lines : Option (List Line)} (hfallbacks : "" ∉ env.fallbacks)
    (h : (proxyTracedStream env payload answers).result = .stream lines) :
    Names payload (proxyTracedStream env payload answers).called
        (streamTrail env req payload answers breaks stop) ∧
      ∃ n sent, n + 1 = (proxyTracedStream env payload answers).called.length ∧
        answers n = .stream sent := by
  rcases proxyTracedStream_cases env req payload answers breaks stop with
    ⟨-, -, hnone⟩ | ⟨prepared, payload', hprepared, hcalled, hstate, hstream, -⟩
  · exact absurd h (hnone lines)
  · obtain ⟨sent, hsent⟩ := hstream lines h
    have hlast := streamWithFallbacks_stream hsent
    obtain ⟨c, -, hnumber, hcall⟩ := @exists_lastCall _ env prepared payload' answers
      StreamAnswer.failed
    obtain ⟨hnamed, hempty⟩ := @follow_names _ env prepared payload payload' answers
      StreamAnswer.failed (fun _ _ => []) hfallbacks hprepared (by
        rw [hlast]
        exact Bool.false_ne_true)
    rw [← hstate] at hnamed hempty
    rw [hcalled]
    refine ⟨⟨hnamed, requestSpanId_eq hempty⟩, c.2, sent, ?_, ?_⟩
    · rw [List.length_map, hnumber]
    · rw [← hcall, hlast]

end Streamed

/-- The failover of a buffered request: its spans are those of its calls, only the last of which
is charged, and a successful answer is that of the service that it names. -/
structure BufferedFailsOver (env : Env) (req : RequestContext) (payload : Payload)
    (answers : Nat → Answer) (usage : Nat → Nat × Nat × Nat) : Prop where
  follows : Follows env (proxyTraced env payload answers).called
    (fun r => 500 ≤ r.1) fun n => forwardTraced (answers n)
  spans : ∀ n s, (proxyTrail env req payload answers usage).spans[n]? = some s →
    ∃ c, (proxyTraced env payload answers).called[n]? = some c ∧
      s = forwardSpan req c.serviceId (answers n) (usage n)
  charged : ∀ n s, (proxyTrail env req payload answers usage).spans[n]? = some s →
    s.tokens ≠ 0 → n + 1 = (proxyTraced env payload answers).called.length
  named : ∀ status body, (proxyTraced env payload answers).result = some (status, body) →
    status < 400 →
    Names payload (proxyTraced env payload answers).called
        (proxyTrail env req payload answers usage) ∧
      ∃ n ctx sent body', n + 1 = (proxyTraced env payload answers).called.length ∧
        forwardTraced (answers n) = (status, body') ∧
        (status, body) = (applyGuardrailOutput env.engine ctx status body' sent).2

/-- The failover of a streamed request: it leaves the span of the stream that it got, if any,
which is that of the service that it names. -/
structure StreamFailsOver (env : Env) (req : RequestContext) (payload : Payload)
    (answers : Nat → StreamAnswer) (breaks : Bool) (stop : Option Nat) : Prop where
  follows : Follows env (proxyTracedStream env payload answers).called
    StreamAnswer.failed answers
  spans : ∀ s ∈ (streamTrail env req payload answers breaks stop).spans, ∃ r,
    tracedStream env req payload answers breaks stop = some r ∧ s = r.span ∧
      (proxyTracedStream env payload answers).called.getLast? = some r.sent
  charged : (streamTrail env req payload answers breaks stop).spans.length ≤ 1
  named : ∀ lines, (proxyTracedStream env payload answers).result = .stream lines →
    Names payload (proxyTracedStream env payload answers).called
        (streamTrail env req payload answers breaks stop) ∧
      ∃ n sent, n + 1 = (proxyTracedStream env payload answers).called.length ∧
        answers n = .stream sent

theorem streamTrail_spans {env : Env} {req : RequestContext} {payload : Payload}
    {answers : Nat → StreamAnswer} {breaks : Bool} {stop : Option Nat} :
    (streamTrail env req payload answers breaks stop).spans = [] ∨
      (streamTrail env req payload answers breaks stop).spans =
        ((tracedStream env req payload answers breaks stop).map Streamed.span).toList := by
  unfold streamTrail
  split
  · exact .inl rfl
  · split
    · exact .inr rfl
    · exact .inl rfl

/-- Failover in the task pipeline and in the chat proxy, buffered and streamed. -/
theorem failover_charges_once :
    (∀ (env : Task.Env) (default : Option Task.Text) (body : Task.Body)
      (outcome : Nat → Task.Outcome),
      Task.FailsOver env (body.unwrap.withDefault default) outcome) ∧
    (∀ (env : Env) (stored : List String) (req : RequestContext) (payload : Payload)
      (answers : Nat → Answer) (usage : Nat → Nat × Nat × Nat),
      BufferedFailsOver (withStored env stored payload) req payload answers usage) ∧
    ∀ (env : Env) (stored : List String) (req : RequestContext) (payload : Payload)
      (answers : Nat → StreamAnswer) (breaks : Bool) (stop : Option Nat),
      StreamFailsOver (withStored env stored payload) req payload answers breaks stop := by
  refine ⟨fun env default body outcome => Task.routeInference_failsOver env _ outcome, ?_, ?_⟩
  · intro env stored req payload answers usage
    exact
      { follows := proxyTraced_follows
        spans := fun n s hs => proxyTrail_span hs
        charged := fun n s hs htokens => proxyTrail_charged hs htokens
        named := fun status body h hok => proxyTrail_names getFallbacks_ne_empty h hok }
  · intro env stored req payload answers breaks stop
    refine
      { follows := proxyTracedStream_follows
        spans := ?_
        charged := ?_
        named := fun lines h => streamTrail_names getFallbacks_ne_empty h }
    · intro s hs
      rcases @streamTrail_spans (withStored env stored payload) req payload answers breaks stop with
        hnone | hspans
      · rw [hnone] at hs
        cases hs
      · rw [hspans, Option.mem_toList, Option.map_eq_some_iff] at hs
        obtain ⟨r, hr, rfl⟩ := hs
        refine ⟨r, hr, rfl, ?_⟩
        rcases proxyTracedStream_cases (withStored env stored payload) req payload answers breaks
          stop with ⟨-, hno, -⟩ | ⟨prepared, payload', -, -, -, -, hstreamed⟩
        · rw [hno] at hr
          cases hr
        · exact (hstreamed r hr).2
    · rcases @streamTrail_spans (withStored env stored payload) req payload answers breaks stop with
        hnone | hspans
      · rw [hnone]
        exact Nat.zero_le 1
      · rw [hspans]
        cases tracedStream (withStored env stored payload) req payload answers breaks stop with
        | none => exact Nat.zero_le 1
        | some r => exact Nat.le_refl 1

end Ai4iCore.Inference
