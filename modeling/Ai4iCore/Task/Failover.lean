import Ai4iCore.Base.Chain
import Ai4iCore.Task.Bill

/-!
# The services that a request runs

A task request is a chain of attempts: the requested service, and its fallbacks while the one
before was unavailable and answered no group. All that a request exports are the spans of its
attempts, and its answer is that of the last one. So tokens are left by the last attempt only,
and there by the groups that were answered, one span for each.
-/

namespace Ai4iCore.Task

open Checked

/-- A service that a request may run, with the payload made out for it. -/
structure Candidate where
  info : ServiceInfo
  payload : Payload

/-- A service that was run. -/
abbrev Attempt := Candidate × Ran (List Item)

/-- `_get_task_service` and `process`. -/
def serve (env : Env) (outcome : Nat → Outcome) (c : Candidate) (n : Nat) : Ran (List Item) :=
  match getTaskService c.info with
  | .error e => ⟨[], 0, .error e⟩
  | .ok cls => process env.engine env.catalogue cls c.info c.payload (outcome n)

/-- The service was unavailable, and answered no group. -/
def movesOn (ran : Ran (List Item)) : Bool :=
  match ran.ending with
  | .error .unavailable => ran.completedGroups = 0
  | _ => false

/-- A fallback, unless it is skipped. -/
def fallbackCandidate (env : Env) (p : Payload) (fallbackId : Value) : Option Candidate :=
  let payload := { p with config := p.config.withServiceId fallbackId }
  (resolveOpen env payload).toOption.map fun info => ⟨info, payload⟩

def candidates (env : Env) (p : Payload) (first : ServiceInfo) : List (Option Candidate) :=
  some ⟨first, p⟩ :: (env.fallbacks first.serviceId).map (fallbackCandidate env p)

/-- The services that a payload runs. -/
def attempts (env : Env) (p : Payload) (outcome : Nat → Outcome) : List Attempt :=
  match openedService env p with
  | .error _ => []
  | .ok first => Chain.attempts (serve env outcome) movesOn (candidates env p first) 0

/-! ## Spans and answer of a chain -/

/-- The answer of an attempt. -/
def Attempt.answer (a : Attempt) : Except Failure (ServiceInfo × List Item) :=
  a.2.ending.map fun items => (a.1.info, items)

def lastAnswer (as : List Attempt) : Except Failure (ServiceInfo × List Item) :=
  match as.getLast? with
  | none => .error .unavailable
  | some a => a.answer

/-- What a chain of attempts leaves. -/
def served (as : List Attempt) : Served := ⟨as.flatMap fun a => a.2.spans, lastAnswer as⟩

theorem movesOn_spec {ran : Ran (List Item)} (h : movesOn ran = true) :
    ran.ending = .error .unavailable ∧ ran.completedGroups = 0 := by
  unfold movesOn at h
  split at h
  · rename_i hending
    exact ⟨hending, of_decide_eq_true h⟩
  · cases h

theorem served_single (a : Attempt) : served [a] = ⟨a.2.spans, a.answer⟩ := by
  unfold served
  rw [List.flatMap_singleton]
  rfl

theorem served_cons {a : Attempt} (h : movesOn a.2 = true) (as : List Attempt) :
    served (a :: as) = { served as with spans := a.2.spans ++ (served as).spans } := by
  have hanswer : lastAnswer (a :: as) = lastAnswer as := by
    unfold lastAnswer
    cases as with
    | nil =>
      show a.2.ending.map _ = _
      rw [(movesOn_spec h).1]
      rfl
    | cons b bs => rw [List.getLast?_cons_cons]
  unfold served
  rw [hanswer, List.flatMap_cons]

section Chains

variable {env : Env} {p : Payload} {outcome : Nat → Outcome}

theorem getTaskService_error {info : ServiceInfo} {e : Failure}
    (h : getTaskService info = .error e) : e = .runtimeError := by
  unfold getTaskService orRaise at h
  cases hget : taskServiceRegistry.get? info.classInstance with
  | none =>
    rw [hget] at h
    exact (Except.error.inj h).symm
  | some cls =>
    rw [hget] at h
    cases h

/-- The spans and the answer of a service that runs, with whatever follows it. -/
theorem served_serve (c : Candidate) (n : Nat) (rest : List Attempt) :
    served ((c, serve env outcome c n) ::
        if movesOn (serve env outcome c n) then rest else []) =
      match getTaskService c.info with
      | .error e => ⟨[], .error e⟩
      | .ok cls =>
        let ran := process env.engine env.catalogue cls c.info c.payload (outcome n)
        match ran.ending with
        | .ok items => ⟨ran.spans, .ok (c.info, items)⟩
        | .error .unavailable =>
          if ran.completedGroups = 0 then
            { served rest with spans := ran.spans ++ (served rest).spans }
          else ⟨ran.spans, .error .unavailable⟩
        | .error e => ⟨ran.spans, .error e⟩ := by
  cases hcls : getTaskService c.info with
  | error e =>
    have hserve : serve env outcome c n = ⟨[], 0, .error e⟩ := by
      unfold serve
      rw [hcls]
    rw [hserve, getTaskService_error hcls]
    rfl
  | ok cls =>
    have hserve : serve env outcome c n =
        process env.engine env.catalogue cls c.info c.payload (outcome n) := by
      unfold serve
      rw [hcls]
    rw [hserve]
    dsimp only
    generalize process env.engine env.catalogue cls c.info c.payload (outcome n) = ran
    obtain ⟨spans, completed, ending⟩ := ran
    cases ending with
    | ok items => exact served_single (c, ⟨spans, completed, .ok items⟩)
    | error e =>
      cases e with
      | unavailable =>
        by_cases hzero : completed = 0
        · have hmoves : movesOn ⟨spans, completed, .error .unavailable⟩ = true :=
            decide_eq_true hzero
          rw [if_pos hmoves, if_pos hzero, served_cons hmoves]
        · have hstays : ¬ movesOn ⟨spans, completed, .error .unavailable⟩ = true :=
            fun h => hzero (of_decide_eq_true h)
          rw [if_neg hstays, if_neg hzero, served_single]
          rfl
      | _ => exact served_single (c, ⟨spans, completed, _⟩)

theorem tryFallbacks_eq (ids : List Value) (n : Nat) :
    tryFallbacks env p outcome ids n =
      served (Chain.attempts (serve env outcome) movesOn
        (ids.map (fallbackCandidate env p)) n) := by
  induction ids generalizing n with
  | nil => rfl
  | cons id ids ih =>
    rw [List.map_cons]
    unfold tryFallbacks fallbackCandidate
    dsimp only
    cases resolveOpen env { p with config := p.config.withServiceId id } with
    | error e => exact ih n
    | ok info =>
      rw [ih (n + 1)]
      exact (served_serve ⟨info, { p with config := p.config.withServiceId id }⟩ n _).symm

theorem runWithFallbacks_eq (first : ServiceInfo) :
    runWithFallbacks env p first outcome =
      served (Chain.attempts (serve env outcome) movesOn (candidates env p first) 0) := by
  show _ = served ((_, _) :: _)
  rw [served_serve, ← tryFallbacks_eq]
  unfold runWithFallbacks
  cases getTaskService first with
  | error e => rfl
  | ok cls =>
    dsimp only
    cases (process env.engine env.catalogue cls first p (outcome 0)).ending with
    | ok items => rfl
    | error e =>
      cases e with
      | unavailable =>
        -- without fallbacks nothing follows the requested service
        cases hids : env.fallbacks first.serviceId with
        | nil => simp [tryFallbacks]
        | cons id ids => simp
      | _ => rfl

/-- A request leaves the spans of its attempts, and the answer of the last one. -/
theorem routeInference_eq {first : ServiceInfo} (h : openedService env p = .ok first) :
    routeInference env p outcome = served (attempts env p outcome) := by
  unfold routeInference attempts
  rw [h]
  exact runWithFallbacks_eq first

theorem routeInference_spans (env : Env) (p : Payload) (outcome : Nat → Outcome) :
    (routeInference env p outcome).spans = (attempts env p outcome).flatMap fun a => a.2.spans := by
  cases hopened : openedService env p with
  | error e =>
    unfold routeInference attempts
    rw [hopened]
    rfl
  | ok first =>
    rw [routeInference_eq hopened]
    rfl

/-- The requested service is run whenever it is open. -/
theorem attempts_head {first : ServiceInfo} (h : openedService env p = .ok first) :
    ∃ rest, attempts env p outcome =
      (⟨first, p⟩, serve env outcome ⟨first, p⟩ 0) :: rest := by
  unfold attempts
  rw [h]
  exact ⟨_, rfl⟩

/-- The answer is that of the last attempt. -/
theorem routeInference_answer {first : ServiceInfo} (h : openedService env p = .ok first) :
    ∃ a, (attempts env p outcome).getLast? = some a ∧
      (routeInference env p outcome).answer = a.answer := by
  obtain ⟨rest, hattempts⟩ := @attempts_head env p outcome first h
  cases hlast : (attempts env p outcome).getLast? with
  | none =>
    rw [List.getLast?_eq_none_iff.mp hlast] at hattempts
    cases hattempts
  | some a =>
    refine ⟨a, rfl, ?_⟩
    rw [routeInference_eq h]
    show lastAnswer _ = _
    unfold lastAnswer
    rw [hlast]

/-- All attempts but the last one were unavailable and answered no group. -/
theorem attempts_dropLast {a : Attempt} (h : a ∈ (attempts env p outcome).dropLast) :
    a.2.ending = .error .unavailable ∧ a.2.completedGroups = 0 := by
  unfold attempts at h
  cases hopened : openedService env p with
  | error e =>
    rw [hopened] at h
    cases h
  | ok first =>
    rw [hopened] at h
    exact movesOn_spec (Chain.again_of_mem_dropLast h)

theorem attempts_getElem {k : Nat} {a : Attempt} (h : (attempts env p outcome)[k]? = some a) :
    a.2 = serve env outcome a.1 k := by
  unfold attempts at h
  cases hopened : openedService env p with
  | error e =>
    rw [hopened] at h
    cases h
  | ok first =>
    rw [hopened] at h
    rw [Chain.getElem?_attempts h, Nat.zero_add]

end Chains

/-! ## The spans of an attempt -/

def Span.isZero (s : Span) : Prop := s.inputTokens = 0 ∧ s.outputTokens = 0

/-- The span number `k` of a service that completed `completed` groups: that of the `k`-th group,
which was answered, or the zeroes of a call that failed after the completed ones. -/
inductive SpanOf (engine : Engine) (serviceId : Value) (unitType : String)
    (outcome : Nat → GroupOutcome) (completed : Nat) (g : List Item) (k : Nat) : Span → Prop
  | answered {outputTokens : ℚ} (before : k < completed) (h : outcome k = .answered outputTokens) :
      SpanOf engine serviceId unitType outcome completed g k
        ⟨serviceId, countInputTokens engine g unitType, outputTokens⟩
  | zeroed (after : k = completed) :
      SpanOf engine serviceId unitType outcome completed g k ⟨serviceId, 0, 0⟩

section Spans

variable {engine : Engine} {catalogue : Catalogue} {cls : TaskClass} {info : ServiceInfo}
  {p : Payload}

/-- The loop from the group number `n` on. -/
theorem runGroups_span {serviceId : Value} {unitType : String} {outcome : Nat → GroupOutcome}
    {n k : Nat} {gs : List (List Item)} {s : Span}
    (h : (runGroups engine serviceId unitType outcome n gs).spans[k]? = some s) :
    ∃ g, gs[k]? = some g ∧ SpanOf engine serviceId unitType outcome
      (n + (runGroups engine serviceId unitType outcome n gs).completedGroups) g (n + k) s := by
  induction gs generalizing n k with
  | nil => cases h
  | cons g gs ih =>
    unfold runGroups at h ⊢
    cases houtcome : outcome n with
    | notRendered =>
      rw [houtcome] at h
      cases h
    | answered outputTokens =>
      rw [houtcome] at h
      dsimp only at h ⊢
      cases k with
      | zero =>
        obtain rfl := Option.some.inj h
        exact ⟨g, rfl, .answered (by omega) houtcome⟩
      | succ k =>
        obtain ⟨g', hg', hspan⟩ := ih h
        refine ⟨g', hg', ?_⟩
        rw [Nat.add_right_comm, Nat.add_right_comm n 1 k] at hspan
        exact hspan
    | _ =>
      -- the only span is that of the call that failed
      rw [houtcome] at h
      cases k with
      | zero =>
        obtain rfl := Option.some.inj h
        exact ⟨g, rfl, .zeroed rfl⟩
      | succ k => cases h

theorem process_span {outcome : Outcome} {k : Nat} {s : Span}
    (h : (process engine catalogue cls info p outcome).spans[k]? = some s) :
    ∃ items g, preprocessInput engine outcome.download cls p = .ok items ∧
      (groups cls info items)[k]? = some g ∧
      SpanOf engine info.serviceId (unitTypeOf catalogue p) outcome.group
        (process engine catalogue cls info p outcome).completedGroups g k s := by
  rcases process_cases engine catalogue cls info p outcome with
    ⟨e, hleft⟩ | ⟨items, ending, hitems, hran, -⟩
  · rw [hleft] at h
    cases h
  · rw [hran] at h ⊢
    dsimp only at h ⊢
    refine ⟨items, ?_⟩
    unfold runInference at h ⊢
    split at h
    · cases h
    · rename_i hname
      split at h
      · cases h
      · rename_i hne
        rw [if_neg hname, if_neg hne]
        obtain ⟨g, hg, hspan⟩ := runGroups_span h
        rw [Nat.zero_add, Nat.zero_add] at hspan
        exact ⟨g, hitems, hg, hspan⟩

end Spans

/-- The span of an answered group: group number `k` of the items that the attempt number `n` made
of its payload. -/
structure Answered (env : Env) (outcome : Nat → Outcome) (a : Attempt) (n k : Nat) (s : Span) :
    Prop where
  before : k < a.2.completedGroups
  group : ∃ cls items g outputTokens, getTaskService a.1.info = .ok cls ∧
    preprocessInput env.engine (outcome n).download cls a.1.payload = .ok items ∧
    (groups cls a.1.info items)[k]? = some g ∧ (outcome n).group k = .answered outputTokens ∧
    s = ⟨a.1.info.serviceId,
      countInputTokens env.engine g (unitTypeOf env.catalogue a.1.payload), outputTokens⟩

section Requests

variable {env : Env} {p : Payload} {outcome : Nat → Outcome}

theorem serve_span {c : Candidate} {n k : Nat} {s : Span}
    (h : (serve env outcome c n).spans[k]? = some s) :
    Answered env outcome (c, serve env outcome c n) n k s ∨
      (s.isZero ∧ (serve env outcome c n).completedGroups = k) := by
  unfold serve at h
  cases hcls : getTaskService c.info with
  | error e =>
    rw [hcls] at h
    cases h
  | ok cls =>
    rw [hcls] at h
    have hserve : serve env outcome c n =
        process env.engine env.catalogue cls c.info c.payload (outcome n) := by
      unfold serve
      rw [hcls]
    obtain ⟨items, g, hitems, hg, hspan⟩ := process_span h
    rw [← hserve] at hspan
    cases hspan with
    | answered before houtcome =>
      exact .inl ⟨before, cls, items, g, _, hcls, hitems, hg, houtcome, rfl⟩
    | zeroed after => exact .inr ⟨⟨rfl, rfl⟩, after.symm⟩

/-- An attempt that is followed by another leaves zeroes. -/
theorem dropLast_zero {a : Attempt} (ha : a ∈ (attempts env p outcome).dropLast) :
    ∀ s ∈ a.2.spans, s.isZero := by
  intro s hs
  obtain ⟨n, hn⟩ := List.mem_iff_getElem?.mp (List.dropLast_subset _ ha)
  obtain ⟨k, hk⟩ := List.mem_iff_getElem?.mp hs
  have hran := attempts_getElem hn
  rw [hran] at hk
  rcases serve_span hk with hanswered | ⟨hzero, -⟩
  · have hbefore : k < a.2.completedGroups := by
      rw [hran]
      exact hanswered.before
    rw [(attempts_dropLast ha).2] at hbefore
    exact absurd hbefore (Nat.not_lt_zero k)
  · exact hzero

/-- Tokens are left by the last attempt, and there by the groups that were answered. -/
theorem charged_span {a : Attempt} {n k : Nat} {s : Span}
    (ha : (attempts env p outcome)[n]? = some a) (hs : a.2.spans[k]? = some s)
    (hne : ¬ s.isZero) :
    (attempts env p outcome).getLast? = some a ∧ n + 1 = (attempts env p outcome).length ∧
      Answered env outcome a n k s := by
  have hn := (List.getElem?_eq_some_iff.mp ha).1
  have hlast : n + 1 = (attempts env p outcome).length := by
    by_contra hearlier
    refine hne (@dropLast_zero env p outcome a ?_ s (List.mem_of_getElem? hs))
    refine List.mem_of_getElem? (i := n) ?_
    rw [List.getElem?_dropLast, if_pos (by omega), ha]
  refine ⟨?_, hlast, ?_⟩
  · rw [List.getLast?_eq_getElem?, ← hlast, Nat.add_sub_cancel, ha]
  · have hran := attempts_getElem ha
    rw [hran] at hs
    rcases serve_span hs with hanswered | ⟨hzero, -⟩
    · rw [← hran] at hanswered
      exact hanswered
    · exact absurd hzero hne

/-- When a request is not answered, tokens are left for the groups that the last service had
answered, and for nothing else. -/
theorem unanswered_charges {default : Option Text} {body : Body} {e : Failure} {s : Span}
    (h : (handle env default body outcome).answer = .error e)
    (hs : s ∈ (handle env default body outcome).spans) (hne : ¬ s.isZero) :
    ∃ a n k, (attempts env (body.unwrap.withDefault default) outcome).getLast? = some a ∧
      n + 1 = (attempts env (body.unwrap.withDefault default) outcome).length ∧
      a.2.ending = .error e ∧ a.2.spans[k]? = some s ∧ Answered env outcome a n k s := by
  have hspans := routeInference_spans env (body.unwrap.withDefault default) outcome
  obtain ⟨a, ha, hsa⟩ := List.mem_flatMap.mp (hspans ▸ hs)
  obtain ⟨n, hn⟩ := List.mem_iff_getElem?.mp ha
  obtain ⟨k, hk⟩ := List.mem_iff_getElem?.mp hsa
  obtain ⟨hlast, hlength, hanswered⟩ := charged_span hn hk hne
  refine ⟨a, n, k, hlast, hlength, ?_, hk, hanswered⟩
  cases hopened : openedService env (body.unwrap.withDefault default) with
  | error e' =>
    unfold attempts at ha
    rw [hopened] at ha
    cases ha
  | ok first =>
    obtain ⟨b, hb, hanswer⟩ := @routeInference_answer env _ outcome first hopened
    obtain rfl := Option.some.inj (hlast.symm.trans hb)
    have herror : a.answer = .error e := hanswer.symm.trans h
    unfold Attempt.answer at herror
    cases hending : a.2.ending with
    | error e' =>
      rw [hending] at herror
      cases herror
      rfl
    | ok items =>
      rw [hending] at herror
      cases herror

end Requests

/-! ## The name of the service -/

/-- Where a request names the service that answered it: in its "request" span, on
`request.state`, and in the metadata of the response. -/
structure Named where
  requestSpan : Value
  state : Value
  response : Value
  deriving DecidableEq, Repr

/-- `v or default`. -/
def orDefault (v default : Value) : Value := if v.truthy then v else default

/-- The id that the client sent. -/
def requestedId (p : Payload) : Value :=
  orDefault ((p.config.fields.get? "serviceId").getD .null) (orDefault (p.serviceId.getD .null) (.str []))

/-- What `route_inference` notes of the resolved service. -/
def noted (p : Payload) (info : ServiceInfo) : Named where
  requestSpan := orDefault info.serviceId (requestedId p)
  state := orDefault info.serviceId (.str [])
  response := .null

/-- `_apply_fallback_state`. -/
def Named.applyFallbackState (named : Named) (served : ServiceInfo) : Named :=
  { named with
    requestSpan := orDefault served.serviceId (.str [])
    state := orDefault served.serviceId (.str []) }

/-- The names after the run. `is not` tells objects apart, but two that are equal here have the
same id. -/
def namedBy (p : Payload) (info served : ServiceInfo) : Named :=
  { if served ≠ info then (noted p info).applyFallbackState served else noted p info with
    response := served.serviceId }

theorem resolveOpen_spec {env : Env} {p : Payload} {info : ServiceInfo}
    (h : resolveOpen env p = .ok info) :
    resolveServiceAndModel env p = .ok info ∧ enforceTierGate env info = .ok () := by
  obtain ⟨info', hresolved, hrest⟩ := bind_ok h
  obtain ⟨u, hgate, hinfo⟩ := bind_ok hrest
  obtain rfl := Except.ok.inj hinfo
  exact ⟨hresolved, hgate⟩

/-- A resolved service has the id that it was asked for by, which is not empty. -/
theorem resolved_truthy {env : Env} {p : Payload} {info : ServiceInfo}
    (h : resolveServiceAndModel env p = .ok info) : info.serviceId.truthy = true := by
  obtain ⟨id, hid, hrest⟩ := bind_ok h
  obtain ⟨info', -, hrest⟩ := bind_ok hrest
  obtain ⟨-, hinfo⟩ := require_bind hrest
  obtain rfl := Except.ok.inj hinfo
  show id.truthy = true
  have hid := orRaise_ok hid
  cases hconfig : p.config.serviceId with
  | none =>
    rw [hconfig] at hid
    exact (Option.filter_eq_some_iff.mp hid).2
  | some v =>
    rw [hconfig] at hid
    obtain rfl := Option.some.inj hid
    obtain ⟨name, -, hname⟩ := List.exists_of_findSome?_eq_some hconfig
    exact (Option.filter_eq_some_iff.mp hname).2

theorem namedBy_served {p : Payload} {info served : ServiceInfo}
    (hinfo : info.serviceId.truthy = true) (hserved : served.serviceId.truthy = true) :
    namedBy p info served = ⟨served.serviceId, served.serviceId, served.serviceId⟩ := by
  unfold namedBy
  by_cases hsame : served = info
  · subst hsame
    rw [if_neg (not_not_intro rfl)]
    unfold noted orDefault
    rw [if_pos hinfo, if_pos hinfo]
  · rw [if_pos hsame]
    unfold Named.applyFallbackState orDefault
    rw [if_pos hserved]

/-! ## Failover -/

/-- The failover of a task request: every service that runs is resolved and open to the caller;
only an unavailable one that answered no group is followed by another; tokens are left by the
last one, once for each group that it answered; and an answered request names the service that
answered it. -/
structure FailsOver (env : Env) (p : Payload) (outcome : Nat → Outcome) : Prop where
  spans : (routeInference env p outcome).spans =
    (attempts env p outcome).flatMap fun a => a.2.spans
  gated : ∀ a ∈ attempts env p outcome,
    resolveServiceAndModel env a.1.payload = .ok a.1.info ∧ enforceTierGate env a.1.info = .ok ()
  followed : ∀ a ∈ (attempts env p outcome).dropLast,
    a.2.ending = .error .unavailable ∧ a.2.completedGroups = 0
  charged : ∀ a n k s, (attempts env p outcome)[n]? = some a → a.2.spans[k]? = some s →
    ¬ s.isZero → n + 1 = (attempts env p outcome).length ∧ Answered env outcome a n k s
  named : ∀ served items, (routeInference env p outcome).answer = .ok (served, items) →
    ∃ info a, openedService env p = .ok info ∧ (attempts env p outcome).getLast? = some a ∧
      a.1.info = served ∧ a.2.ending = .ok items ∧
      namedBy p info served = ⟨served.serviceId, served.serviceId, served.serviceId⟩

section Requests

variable {env : Env} {p : Payload} {outcome : Nat → Outcome}

theorem openedService_spec {info : ServiceInfo} (h : openedService env p = .ok info) :
    resolveOpen env p = .ok info := by
  obtain ⟨t, -, hrest⟩ := bind_ok h
  exact (require_bind hrest).2

theorem candidates_open {first : ServiceInfo} {c : Candidate}
    (hfirst : openedService env p = .ok first) (h : some c ∈ candidates env p first) :
    resolveOpen env c.payload = .ok c.info := by
  rcases List.mem_cons.mp h with hc | hc
  · obtain rfl := Option.some.inj hc
    exact openedService_spec hfirst
  · obtain ⟨id, -, hid⟩ := List.mem_map.mp hc
    obtain ⟨info, hinfo, rfl⟩ := Option.map_eq_some_iff.mp hid
    exact toOption_ok hinfo

theorem attempts_open {a : Attempt} (h : a ∈ attempts env p outcome) :
    resolveOpen env a.1.payload = .ok a.1.info := by
  unfold attempts at h
  cases hopened : openedService env p with
  | error e =>
    rw [hopened] at h
    cases h
  | ok first =>
    rw [hopened] at h
    exact candidates_open hopened (Chain.mem_candidates h)

theorem answer_ok {a : Attempt} {served : ServiceInfo} {items : List Item}
    (h : a.answer = .ok (served, items)) : a.1.info = served ∧ a.2.ending = .ok items := by
  unfold Attempt.answer at h
  cases hending : a.2.ending with
  | error e =>
    rw [hending] at h
    cases h
  | ok items' =>
    rw [hending] at h
    cases h
    exact ⟨rfl, rfl⟩

theorem routeInference_failsOver (env : Env) (p : Payload) (outcome : Nat → Outcome) :
    FailsOver env p outcome where
  spans := routeInference_spans env p outcome
  gated _ ha := resolveOpen_spec (attempts_open ha)
  followed _ ha := attempts_dropLast ha
  charged a n k s ha hs hne := (charged_span ha hs hne).2
  named served items h := by
    cases hopened : openedService env p with
    | error e =>
      unfold routeInference at h
      rw [hopened] at h
      cases h
    | ok info =>
      obtain ⟨a, hlast, hanswer⟩ := @routeInference_answer env p outcome info hopened
      obtain ⟨rfl, hending⟩ := answer_ok (hanswer.symm.trans h)
      have hinfo := (resolveOpen_spec (openedService_spec hopened)).1
      have hserved := (resolveOpen_spec (attempts_open (List.mem_of_getLast? hlast))).1
      exact ⟨info, a, rfl, hlast, rfl, hending,
        namedBy_served (resolved_truthy hinfo) (resolved_truthy hserved)⟩

end Requests

/-! ## A request that is answered in part -/

/-- A translator that is called item by item. -/
def itemTranslator : ServiceInfo where
  serviceId := .str "t".toList
  taskType := "nmt".toList
  classInstance := "NMTTaskService"
  callMode := "per_item"
  name := "indictrans"
  endpoint := "triton:8000"
  isPublished := true
  tierIds := []

def translatorEnv : Env where
  resolve id := if id = .str "t".toList then some itemTranslator else none
  tierId := ""
  fallbacks _ := []
  catalogue := [("nmt".toList, "characters")]
  engine := ⟨fun x => x, fun _ => none, fun _ => none, fun _ => none⟩

def twoTexts : Body where
  payload :=
    { taskType := some (.str "NMT".toList)
      serviceId := none
      input := [[("source", .str "ab".toList)], [("source", .str "cde".toList)]]
      audio := []
      image := []
      config := ⟨[("serviceId", .str "t".toList)], none⟩ }
  hasServiceName := false
  inner := none

/-- The server answers the first call only. -/
def firstOnly : Outcome :=
  ⟨.ok, fun n => if n = 0 then .answered 0 else .failed, true⟩

theorem twoTexts_spans : (handle translatorEnv none twoTexts fun _ => firstOnly).spans =
    [⟨.str "t".toList, 2, 0⟩, ⟨.str "t".toList, 0, 0⟩] := by
  decide +kernel

/-- The client gets an error, and the first text is charged. -/
theorem charged_without_answer :
    (handle translatorEnv none twoTexts fun _ => firstOnly).answer = .error .runtimeError ∧
      ⟨.str "t".toList, 2, 0⟩ ∈ (handle translatorEnv none twoTexts fun _ => firstOnly).spans ∧
      ¬ Span.isZero ⟨.str "t".toList, 2, 0⟩ := by
  rw [twoTexts_spans]
  exact ⟨rfl, List.mem_cons_self, fun hzero => absurd hzero.1 (by decide)⟩

theorem unanswered_charges_first_text :
    ∃ a n k, (attempts translatorEnv twoTexts.payload fun _ => firstOnly).getLast? = some a ∧
      n + 1 = (attempts translatorEnv twoTexts.payload fun _ => firstOnly).length ∧
      a.2.ending = .error .runtimeError ∧
      a.2.spans[k]? = some ⟨.str "t".toList, 2, 0⟩ ∧
      Answered translatorEnv (fun _ => firstOnly) a n k ⟨.str "t".toList, 2, 0⟩ := by
  refine @unanswered_charges translatorEnv (fun _ => firstOnly) none twoTexts .runtimeError
    ⟨.str "t".toList, 2, 0⟩ rfl ?_ fun hzero => absurd hzero.1 (by decide)
  rw [twoTexts_spans]
  exact List.mem_cons_self

end Ai4iCore.Task
