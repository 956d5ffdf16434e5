import Ai4iCore.Task.Orchestrator
import Mathlib.Algebra.BigOperators.Group.List.Basic

/-!
# The bill of a request

The input tokens that a request leaves on its ai-inference spans. When a service answers, they
are the measure of the items that this service processed, in the unit of the task type of the
request: services that were tried before it left nothing but zeroes.
-/

namespace Ai4iCore.Task

open Checked

def totalTokens (spans : List Span) : ℚ := (spans.map Span.inputTokens).sum

theorem totalTokens_append (spans spans' : List Span) :
    totalTokens (spans ++ spans') = totalTokens spans + totalTokens spans' := by
  rw [totalTokens, List.map_append, List.sum_append]
  rfl

/-- The measure of the groups of a request. -/
def measure (engine : Engine) (unitType : String) (gs : List (List Item)) : ℚ :=
  (gs.map fun g => countInputTokens engine g unitType).sum

section Runs

variable {engine : Engine} {catalogue : Catalogue} {cls : TaskClass} {info : ServiceInfo}
  {p : Payload} {items : List Item}

theorem runGroups_total {serviceId : Value} {unitType : String} {outcome : Nat → GroupOutcome}
    {n : Nat} {gs : List (List Item)}
    (h : (runGroups engine serviceId unitType outcome n gs).ending = .ok ()) :
    totalTokens (runGroups engine serviceId unitType outcome n gs).spans =
      measure engine unitType gs := by
  induction gs generalizing n with
  | nil => rfl
  | cons g gs ih =>
    unfold runGroups at h ⊢
    cases houtcome : outcome n with
    | answered outputTokens =>
      rw [houtcome] at h
      have hrest := ih h
      unfold totalTokens measure at hrest ⊢
      dsimp only
      rw [List.map_cons, List.sum_cons, hrest, List.map_cons, List.sum_cons]
    | _ =>
      rw [houtcome] at h
      cases h

/-- Without a completed group there is nothing but zeroed spans. -/
theorem runGroups_zero {serviceId : Value} {unitType : String} {outcome : Nat → GroupOutcome}
    {n : Nat} {gs : List (List Item)}
    (h : (runGroups engine serviceId unitType outcome n gs).completedGroups = 0) :
    totalTokens (runGroups engine serviceId unitType outcome n gs).spans = 0 := by
  cases gs with
  | nil => rfl
  | cons g gs =>
    unfold runGroups at h ⊢
    cases houtcome : outcome n with
    | answered outputTokens =>
      rw [houtcome] at h
      exact absurd h (Nat.succ_ne_zero _)
    | _ => simp [totalTokens]

theorem runInference_total {outcome : Outcome}
    (h : (runInference engine catalogue cls info p items outcome).ending = .ok ()) :
    totalTokens (runInference engine catalogue cls info p items outcome).spans =
      measure engine (unitTypeOf catalogue p) (groups cls info items) := by
  unfold runInference at h ⊢
  split at h
  · cases h
  · rename_i hname
    split at h
    · cases h
    · rename_i hne
      rw [if_neg hname, if_neg hne]
      exact runGroups_total h

theorem runInference_zero {outcome : Outcome}
    (h : (runInference engine catalogue cls info p items outcome).completedGroups = 0) :
    totalTokens (runInference engine catalogue cls info p items outcome).spans = 0 := by
  unfold runInference at h ⊢
  split
  · rfl
  · rename_i hname
    split
    · rfl
    · rename_i hne
      rw [if_neg hname, if_neg hne] at h
      exact runGroups_zero h

/-- A service is left before its first call, or with the spans of its calls. -/
theorem process_cases (engine : Engine) (catalogue : Catalogue) (cls : TaskClass)
    (info : ServiceInfo) (p : Payload) (outcome : Outcome) :
    (∃ e, process engine catalogue cls info p outcome = ⟨[], 0, .error e⟩) ∨
    ∃ items ending, preprocessInput engine outcome.download cls p = .ok items ∧
      process engine catalogue cls info p outcome =
        ⟨(runInference engine catalogue cls info p items outcome).spans,
          (runInference engine catalogue cls info p items outcome).completedGroups, ending⟩ ∧
      ∀ items', ending = .ok items' → items' = items ∧
        (runInference engine catalogue cls info p items outcome).ending = .ok () := by
  unfold process
  cases validateRequest cls p with
  | error e => exact .inl ⟨e, rfl⟩
  | ok u =>
    cases preprocessInput engine outcome.download cls p with
    | error e => exact .inl ⟨e, rfl⟩
    | ok items =>
      dsimp only
      cases hending : (runInference engine catalogue cls info p items outcome).ending with
      | error e => exact .inr ⟨items, .error e, rfl, rfl, nofun⟩
      | ok u =>
        refine .inr ⟨items, _, rfl, rfl, fun items' hok => ⟨?_, hending⟩⟩
        split at hok
        · exact (Except.ok.inj hok).symm
        · cases hok

theorem process_zero {outcome : Outcome}
    (h : (process engine catalogue cls info p outcome).completedGroups = 0) :
    totalTokens (process engine catalogue cls info p outcome).spans = 0 := by
  rcases process_cases engine catalogue cls info p outcome with
    ⟨e, hleft⟩ | ⟨items, ending, -, hran, -⟩
  · rw [hleft]
    rfl
  · rw [hran] at h ⊢
    exact runInference_zero h

/-- A service that answers leaves the measure of the items it processed. -/
theorem process_total {outcome : Outcome}
    (h : (process engine catalogue cls info p outcome).ending = .ok items) :
    preprocessInput engine outcome.download cls p = .ok items ∧
      totalTokens (process engine catalogue cls info p outcome).spans =
        measure engine (unitTypeOf catalogue p) (groups cls info items) := by
  rcases process_cases engine catalogue cls info p outcome with
    ⟨e, hleft⟩ | ⟨items', ending, hitems, hran, hok⟩
  · rw [hleft] at h
    cases h
  · rw [hran] at h ⊢
    obtain ⟨rfl, hending⟩ := hok items h
    exact ⟨hitems, runInference_total hending⟩

end Runs

/-- What a request leaves with its answer: the measure of the items that the service processed,
in the unit of the request's task type. -/
structure Billed (env : Env) (p : Payload) (served : Served) (info : ServiceInfo)
    (items : List Item) (cls : TaskClass) : Prop where
  registered : getTaskService info = .ok cls
  processed : ∃ download p', preprocessInput env.engine download cls p' = .ok items
  total : totalTokens served.spans =
    measure env.engine (unitTypeOf env.catalogue p) (groups cls info items)

section Requests

variable {env : Env} {p : Payload} {outcome : Nat → Outcome} {info : ServiceInfo}
  {items : List Item}

theorem tryFallbacks_billed {ids : List Value} {n : Nat}
    (h : (tryFallbacks env p outcome ids n).answer = .ok (info, items)) :
    ∃ cls, Billed env p (tryFallbacks env p outcome ids n) info items cls := by
  induction ids generalizing n with
  | nil => cases h
  | cons id ids ih =>
    unfold tryFallbacks at h ⊢
    dsimp only at h ⊢
    split at h
    · exact ih h
    · split at h
      · cases h
      · rename_i cls hcls
        split at h
        · rename_i items' hending
          obtain ⟨rfl, rfl⟩ := Prod.mk.inj (Except.ok.inj h)
          obtain ⟨hitems, htotal⟩ := process_total hending
          exact ⟨cls, hcls, ⟨_, _, hitems⟩, htotal⟩
        · split at h
          · rename_i hzero
            obtain ⟨cls', hbilled⟩ := ih h
            refine ⟨cls', hbilled.registered, hbilled.processed, ?_⟩
            rw [if_pos hzero, totalTokens_append, process_zero hzero, zero_add]
            exact hbilled.total
          · cases h
        · cases h

theorem runWithFallbacks_billed {first : ServiceInfo}
    (h : (runWithFallbacks env p first outcome).answer = .ok (info, items)) :
    ∃ cls, Billed env p (runWithFallbacks env p first outcome) info items cls := by
  unfold runWithFallbacks at h ⊢
  split at h
  · cases h
  · rename_i cls hcls
    dsimp only at h ⊢
    split at h
    · rename_i items' hending
      obtain ⟨rfl, rfl⟩ := Prod.mk.inj (Except.ok.inj h)
      obtain ⟨hitems, htotal⟩ := process_total hending
      exact ⟨cls, hcls, ⟨_, _, hitems⟩, htotal⟩
    · split at h
      · rename_i hzero
        obtain ⟨cls', hbilled⟩ := tryFallbacks_billed h
        refine ⟨cls', hbilled.registered, hbilled.processed, ?_⟩
        have hnone := of_decide_eq_true (Bool.and_eq_true_iff.mp hzero).1
        rw [if_pos hzero, totalTokens_append, process_zero hnone, zero_add]
        exact hbilled.total
      · cases h
    · cases h

/-- The unit is that of the task type that the orchestrator reads. -/
theorem unitTypeOf_eq {catalogue : Catalogue} {t : Text} (h : taskTypeOf p = .ok t) :
    unitTypeOf catalogue p = getUnitType catalogue t := by
  unfold taskTypeOf at h
  unfold unitTypeOf
  cases htype : p.taskType with
  | none =>
    rw [htype] at h
    rw [← Except.ok.inj h]
  | some v =>
    rw [htype] at h
    cases v with
    | str s => rw [← Except.ok.inj h]
    | _ => cases h

/-- An answered request is billed in the unit of a task type that the orchestrator accepts. -/
theorem handle_billed {default : Option Text} {body : Body}
    (h : (handle env default body outcome).answer = .ok (info, items)) :
    ∃ cls t, taskTypeOf (body.unwrap.withDefault default) = .ok t ∧ accepted t = true ∧
      getTaskService info = .ok cls ∧
      (∃ download p', preprocessInput env.engine download cls p' = .ok items) ∧
      totalTokens (handle env default body outcome).spans =
        measure env.engine (getUnitType env.catalogue t) (groups cls info items) := by
  unfold handle routeInference at h ⊢
  split at h
  · cases h
  · rename_i first hfirst
    obtain ⟨cls, hbilled⟩ := runWithFallbacks_billed h
    obtain ⟨t, ht, hrest⟩ := bind_ok hfirst
    have haccepted := (require_bind hrest).1
    refine ⟨cls, t, ht, haccepted, hbilled.registered, hbilled.processed, ?_⟩
    rw [← unitTypeOf_eq ht]
    exact hbilled.total

end Requests

/-! ## A request that is answered -/

/-- The caller may use a service, which has a class, a name and an endpoint. -/
structure Open (env : Env) (info : ServiceInfo) (cls : TaskClass) : Prop where
  id_truthy : info.serviceId.truthy = true
  resolved : env.resolve info.serviceId = some info
  published : info.isPublished = true
  tier : enforceTierGate env info = .ok ()
  registered : getTaskService info = .ok cls
  named : info.name ≠ ""
  endpoint : info.endpoint ≠ ""

/-- The server answers every call. -/
def allAnswered : Outcome := ⟨.ok, fun _ => .answered 0, true⟩

theorem runGroups_answered (engine : Engine) (serviceId : Value) (unitType : String) (n : Nat)
    (gs : List (List Item)) :
    (runGroups engine serviceId unitType allAnswered.group n gs).ending = .ok () := by
  induction gs generalizing n with
  | nil => rfl
  | cons g gs ih => exact ih (n + 1)

section Answered

variable {env : Env} {p : Payload} {info : ServiceInfo} {cls : TaskClass} {items : List Item}
  {t : Text}

theorem process_answered (hopen : Open env info cls) (hvalid : validateRequest cls p = .ok ())
    (hitems : preprocessInput env.engine .ok cls p = .ok items) (hne : items ≠ []) :
    (process env.engine env.catalogue cls info p allAnswered).ending = .ok items := by
  have hran : (runInference env.engine env.catalogue cls info p items allAnswered).ending =
      .ok () := by
    unfold runInference
    rw [if_neg (not_or.mpr ⟨hopen.named, hopen.endpoint⟩), if_neg hne]
    exact runGroups_answered ..
  unfold process
  rw [hvalid]
  dsimp only
  rw [show preprocessInput env.engine allAnswered.download cls p = .ok items from hitems]
  dsimp only
  rw [hran]
  rfl

theorem openedService_open (hopen : Open env info cls) (ht : p.taskType = some (.str t))
    (haccepted : accepted t = true) (hid : p.config.serviceId = some info.serviceId) :
    openedService env p = .ok info := by
  have hresolve : resolveServiceAndModel env p = .ok info := by
    unfold resolveServiceAndModel
    rw [hid]
    show (orRaise (env.resolve info.serviceId) Failure.runtimeError >>= _) = _
    rw [hopen.resolved]
    show (require info.isPublished Failure.lookupError >>= _) = _
    rw [require, if_pos hopen.published]
    rfl
  unfold openedService taskTypeOf
  rw [ht]
  show (require (accepted t) Failure.valueError >>= _) = _
  rw [haccepted]
  show (resolveServiceAndModel env p >>= _) = _
  rw [hresolve]
  show (enforceTierGate env info >>= _) = _
  rw [hopen.tier]
  rfl

/-- A service that is open answers a request that it can process. -/
theorem handle_answered (hopen : Open env info cls) (ht : p.taskType = some (.str t))
    (haccepted : accepted t = true) (hid : p.config.serviceId = some info.serviceId)
    (hvalid : validateRequest cls p = .ok ())
    (hitems : preprocessInput env.engine .ok cls p = .ok items) (hne : items ≠ []) :
    (handle env none ⟨p, false, none⟩ fun _ => allAnswered).answer = .ok (info, items) := by
  show (routeInference env p fun _ => allAnswered).answer = .ok (info, items)
  unfold routeInference
  rw [openedService_open hopen ht haccepted hid]
  show (runWithFallbacks env p info fun _ => allAnswered).answer = .ok (info, items)
  unfold runWithFallbacks
  rw [hopen.registered]
  dsimp only
  rw [process_answered hopen hvalid hitems hne]

end Answered

end Ai4iCore.Task
