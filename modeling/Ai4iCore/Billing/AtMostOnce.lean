import Mathlib.Algebra.BigOperators.Group.List.Basic
import Mathlib.Tactic.Ring
import Ai4iCore.Billing.Consumer

/-!
# Every span is debited at most once

The debit and the marker that stops a second one live in different stores, so
between the two a handler holds the only knowledge of the debit. `BilledOnce`
says exactly that: a committed debit is either marked in Redis beyond the end of
the run, or belongs to the one handler of its span, which stands between its
commit and its marker. Nothing can make that handler raise there — the crossing
events catch everything (`publishUsageCrossingEvents_ok`) — so it reaches the
marker, and every later attempt or redelivery is stopped by the dedup check.

`Allowed` states what the run is promised: Redis answers, handlers of one span do
not overlap, nobody is lost between commit and marker, and the run ends within
the dedup TTL.
-/

namespace Ai4iCore.Billing

open StepSystem

/-- What is promised of the steps of a run that ends before `deadline`. -/
def Allowed (deadline : Int) (s : Consumer) : Action → Prop
  | .deliver _ msg => ∀ h hd, s.handler h = some hd → billedKeyOf hd.msg = billedKeyOf msg →
      billedKeyOf msg = ""
  | .check _ redisOk => redisOk = true
  | .mark _ redisOk => redisOk = true
  | .lose h _ => ∀ hd, s.handler h = some hd → hd.phase.afterCommit = false
  | .tick d => s.clock + d < deadline
  | _ => True

/-- The context a phase carries. -/
def Phase.ctx? : Phase → Option BillingContext
  | .bill ctx => some ctx
  | .publish ctx _ _ => some ctx
  | .mark ctx _ => some ctx
  | .notify ctx _ => some ctx
  | _ => none

/-- The accounting invariant of a run that ends before `deadline`:
1. no key is debited twice;
2. a debit is marked beyond the deadline, or its handler is about to mark it;
3. a handler about to bill has no debit of its key behind it;
4. a handler bills under its message's key;
5. no two handlers are of one span. -/
structure BilledOnce (deadline : Int) (s : Consumer) : Prop where
  once : ∀ k, s.debits.countP (fun d => d.billedKey = k) ≤ 1
  marked : ∀ d ∈ s.debits, (∃ expiry, s.billed d.billedKey = some expiry ∧ deadline ≤ expiry) ∨
    ∃ h hd, s.handler h = some hd ∧ billedKeyOf hd.msg = d.billedKey ∧
      hd.phase.afterCommit = true
  fresh : ∀ h hd ctx, s.handler h = some hd → hd.phase = .bill ctx →
    ∀ d ∈ s.debits, d.billedKey ≠ billedKeyOf hd.msg
  ctxKey : ∀ h hd ctx, s.handler h = some hd → hd.phase.ctx? = some ctx →
    ctx.billedKey = billedKeyOf hd.msg ∧ billedKeyOf hd.msg ≠ ""
  alone : ∀ h h' hd hd', s.handler h = some hd → s.handler h' = some hd' →
    billedKeyOf hd.msg = billedKeyOf hd'.msg → billedKeyOf hd.msg ≠ "" → h = h'
  early : s.clock < deadline
  within : deadline ≤ s.clock + billedKeyTtl

theorem billedOnce_init {s : Consumer} (hidle : ∀ h, s.handler h = none)
    (hdebits : s.debits = []) : BilledOnce (s.clock + billedKeyTtl) s := by
  have hno : ∀ {h hd}, s.handler h ≠ some hd := fun {h hd} hh => by
    rw [hidle h] at hh
    cases hh
  refine { once := fun k => ?_, marked := fun d hd => ?_, fresh := fun h hd ctx hh => absurd hh hno,
           ctxKey := fun h hd ctx hh => absurd hh hno, alone := fun h h' hd hd' hh => absurd hh hno,
           early := ?_, within := le_rfl }
  · rw [hdebits]
    exact Nat.zero_le _
  · rw [hdebits] at hd
    exact (nomatch hd)
  · show s.clock < s.clock + 3600
    omega

/-! ## Steps that leave the debits and the markers alone -/

/-- What is at `h'` after handler `h` became `o`. -/
theorem handler_update {s s' : Consumer} {h h' : Nat} {o : Option Handler} {hd : Handler}
    (hs : s'.handler = Function.update s.handler h o) (hh : s'.handler h' = some hd) :
    (h' = h ∧ o = some hd) ∨ (h' ≠ h ∧ s.handler h' = some hd) := by
  rw [hs] at hh
  by_cases hne : h' = h
  · subst hne
    rw [Function.update_self] at hh
    exact .inl ⟨rfl, hh⟩
  · rw [Function.update_of_ne hne] at hh
    exact .inr ⟨hne, hh⟩

/-- Replacing a handler by one of the same message keeps spans apart. -/
theorem alone_update {deadline : Int} {s s' : Consumer} {h : Nat} {hd : Handler}
    {o : Option Handler} (inv : BilledOnce deadline s) (hh : s.handler h = some hd)
    (hs : s'.handler = Function.update s.handler h o)
    (ho : ∀ hd', o = some hd' → hd'.msg = hd.msg) :
    ∀ h₁ h₂ hd₁ hd₂, s'.handler h₁ = some hd₁ → s'.handler h₂ = some hd₂ →
      billedKeyOf hd₁.msg = billedKeyOf hd₂.msg → billedKeyOf hd₁.msg ≠ "" → h₁ = h₂ := by
  have hmsg : ∀ {h' hd'}, s'.handler h' = some hd' →
      ∃ hd'', s.handler h' = some hd'' ∧ hd'.msg = hd''.msg := by
    intro h' hd' hh'
    obtain ⟨rfl, ho'⟩ | ⟨-, hh'⟩ := handler_update hs hh'
    · exact ⟨hd, hh, ho hd' ho'⟩
    · exact ⟨hd', hh', rfl⟩
  intro h₁ h₂ hd₁ hd₂ hh₁ hh₂
  obtain ⟨hd₁', hh₁', hm₁⟩ := hmsg hh₁
  obtain ⟨hd₂', hh₂', hm₂⟩ := hmsg hh₂
  rw [hm₁, hm₂]
  exact inv.alone h₁ h₂ hd₁' hd₂' hh₁' hh₂'

/-- Debits stay marked, or with their handlers, when a handler that has nothing to
mark is replaced. -/
theorem marked_update {deadline : Int} {s s' : Consumer} {h : Nat} {hd : Handler}
    {o : Option Handler} (inv : BilledOnce deadline s) (hh : s.handler h = some hd)
    (hcommit : hd.phase.afterCommit = false) (hs : s'.handler = Function.update s.handler h o)
    (hbilled : s'.billed = s.billed) :
    ∀ d ∈ s.debits, (∃ expiry, s'.billed d.billedKey = some expiry ∧ deadline ≤ expiry) ∨
      ∃ h hd, s'.handler h = some hd ∧ billedKeyOf hd.msg = d.billedKey ∧
        hd.phase.afterCommit = true := by
  intro d hd'
  rw [hbilled]
  obtain hm | ⟨h', hd₁, hh₁, hk, hc⟩ := inv.marked d hd'
  · exact .inl hm
  · have hne : h' ≠ h := by
      rintro rfl
      obtain rfl := Option.some.inj (hh.symm.trans hh₁)
      rw [hcommit] at hc
      cases hc
    exact .inr ⟨h', hd₁, by rw [hs, Function.update_of_ne hne]; exact hh₁, hk, hc⟩

/-- A handler that is not between commit and marker moves to a phase without a
context, or ends. -/
theorem billedOnce_move {deadline : Int} {s s' : Consumer} {h : Nat} {hd : Handler}
    {o : Option Handler} (inv : BilledOnce deadline s) (hh : s.handler h = some hd)
    (hcommit : hd.phase.afterCommit = false) (hs : s'.handler = Function.update s.handler h o)
    (ho : ∀ hd', o = some hd' → hd'.msg = hd.msg ∧ hd'.phase.ctx? = none)
    (hdebits : s'.debits = s.debits) (hbilled : s'.billed = s.billed)
    (hclock : s'.clock = s.clock) : BilledOnce deadline s' := by
  refine { once := by rw [hdebits]; exact inv.once,
           marked := by rw [hdebits]; exact marked_update inv hh hcommit hs hbilled,
           fresh := fun h' hd' ctx hh' hp => ?_, ctxKey := fun h' hd' ctx hh' hp => ?_,
           alone := alone_update inv hh hs fun hd' h => (ho hd' h).1,
           early := by rw [hclock]; exact inv.early,
           within := by rw [hclock]; exact inv.within }
  · rw [hdebits]
    obtain ⟨rfl, ho'⟩ | ⟨-, hh'⟩ := handler_update hs hh'
    · have := (ho hd' ho').2
      rw [hp] at this
      cases this
    · exact inv.fresh h' hd' ctx hh' hp
  · obtain ⟨rfl, ho'⟩ | ⟨-, hh'⟩ := handler_update hs hh'
    · rw [(ho hd' ho').2] at hp
      cases hp
    · exact inv.ctxKey h' hd' ctx hh' hp

theorem afterRaise_spec {hd hd' : Handler} (h : afterRaise hd = some hd') :
    hd'.msg = hd.msg ∧ hd'.phase.ctx? = none := by
  unfold afterRaise at h
  split at h
  · cases h
    exact ⟨rfl, rfl⟩
  · cases h

/-! ## The steps that matter -/

variable {deadline : Int} {s : Consumer} {h : Nat} {hd : Handler}

/-- What the dedup check lets through is billed under the message's own key, and
Redis does not hold that key. -/
theorem afterCheck_bill {msg : Option Span} {redisOk : Bool} {phase : Phase}
    {ctx : BillingContext} (hc : afterCheck s msg redisOk = some phase)
    (hctx : phase.ctx? = some ctx) :
    ctx.billedKey = billedKeyOf msg ∧ billedKeyOf msg ≠ "" ∧
      s.isBilled (billedKeyOf msg) = false ∧ phase = .bill ctx := by
  cases msg with
  | none => cases hc
  | some span =>
    unfold afterCheck at hc
    cases hname : span.name with
    | request =>
      simp only [hname] at hc
      cases hc
      cases hctx
    | aiInference =>
      simp only [hname] at hc
      split at hc
      · cases hc
      · rename_i hcond
        obtain ⟨ctx', hctx', rfl⟩ := Option.map_eq_some_iff.mp hc
        obtain rfl := Option.some.inj hctx
        simp only [Bool.or_eq_true, decide_eq_true_eq, Bool.not_eq_true', not_or] at hcond
        have hfree : s.isBilled span.billedKey = false := by simpa using hcond.2
        exact ⟨billingContext_billedKey hctx', hcond.1.1, hfree, rfl⟩

/-- A handler passes the dedup check: nothing of its key is debited. -/
theorem billedOnce_check (inv : BilledOnce deadline s) (hh : s.handler h = some hd)
    (hphase : hd.phase = .check) (redisOk : Bool) :
    BilledOnce deadline (s.setHandler h
      ((afterCheck s hd.msg redisOk).map fun phase => { hd with phase })) := by
  have hcommit : hd.phase.afterCommit = false := by rw [hphase]; rfl
  cases hc : afterCheck s hd.msg redisOk with
  | none => exact billedOnce_move inv hh hcommit rfl (fun _ h => (nomatch h)) rfl rfl rfl
  | some phase =>
    cases hctx : phase.ctx? with
    | none =>
      refine billedOnce_move inv hh hcommit rfl (fun hd' ho => ?_) rfl rfl rfl
      cases ho
      exact ⟨rfl, hctx⟩
    | some ctx =>
      obtain ⟨hkey, hne, hfree, rfl⟩ := afterCheck_bill hc hctx
      have hfresh : ∀ d ∈ s.debits, d.billedKey ≠ billedKeyOf hd.msg := by
        intro d hd' heq
        obtain ⟨expiry, hb, hle⟩ | ⟨h', hd₁, hh₁, hk, hac⟩ := inv.marked d hd'
        · have hlive : s.isBilled d.billedKey = true := by
            have := inv.early
            unfold Consumer.isBilled
            rw [hb]
            exact decide_eq_true (by omega)
          rw [heq, hfree] at hlive
          cases hlive
        · -- the handler between commit and marker would be this one
          obtain rfl := inv.alone h' h hd₁ hd hh₁ hh (hk.trans heq) (by rw [hk, heq]; exact hne)
          obtain rfl := Option.some.inj (hh.symm.trans hh₁)
          rw [hcommit] at hac
          cases hac
      have hs : (s.setHandler h (some { hd with phase := .bill ctx })).handler
          = Function.update s.handler h (some { hd with phase := .bill ctx }) := rfl
      refine { once := inv.once, marked := fun d hd' => marked_update inv hh hcommit hs rfl d hd',
               fresh := fun h' hd' ctx' hh' hp => ?_, ctxKey := fun h' hd' ctx' hh' hp => ?_,
               alone := alone_update inv hh hs (fun hd' ho => by cases ho; rfl),
               early := inv.early, within := inv.within }
      · obtain ⟨rfl, ho⟩ | ⟨-, hh'⟩ := handler_update hs hh'
        · cases ho
          exact hfresh
        · exact inv.fresh h' hd' ctx' hh' hp
      · obtain ⟨rfl, ho⟩ | ⟨-, hh'⟩ := handler_update hs hh'
        · cases ho
          obtain rfl := Option.some.inj hp
          exact ⟨hkey, hne⟩
        · exact inv.ctxKey h' hd' ctx' hh' hp

/-- The billing transaction commits: the first debit of its key, and the handler
now stands between commit and marker. -/
theorem billedOnce_commit (inv : BilledOnce deadline s) (hh : s.handler h = some hd)
    {ctx : BillingContext} (hphase : hd.phase = .bill ctx) (db : Db)
    (write : BillingWriteResult) (outcome : BillingOutcome) :
    BilledOnce deadline (Consumer.setHandler
      { s with db, debits := s.debits ++ [Debit.mk ctx.billedKey ctx.apiKeyId outcome.cost] } h
      (some { hd with phase := .publish ctx write outcome })) := by
  obtain ⟨hkey, hne⟩ := inv.ctxKey h hd ctx hh (by rw [hphase]; rfl)
  have hfresh := inv.fresh h hd ctx hh hphase
  have hcommit : hd.phase.afterCommit = false := by rw [hphase]; rfl
  generalize hs' : Consumer.setHandler
      { s with db, debits := s.debits ++ [Debit.mk ctx.billedKey ctx.apiKeyId outcome.cost] } h
      (some { hd with phase := .publish ctx write outcome }) = s'
  have hs : s'.handler = Function.update s.handler h
      (some { hd with phase := .publish ctx write outcome }) := by rw [← hs']; rfl
  have hdebits : s'.debits = s.debits ++ [Debit.mk ctx.billedKey ctx.apiKeyId outcome.cost] := by
    rw [← hs']; rfl
  have hbilled : s'.billed = s.billed := by rw [← hs']; rfl
  have hclock : s'.clock = s.clock := by rw [← hs']; rfl
  refine { once := fun k => ?_, marked := fun d hd' => ?_,
           fresh := fun h' hd' ctx' hh' hp => ?_, ctxKey := fun h' hd' ctx' hh' hp => ?_,
           alone := alone_update inv hh hs (fun hd' ho => by cases ho; rfl),
           early := by rw [hclock]; exact inv.early,
           within := by rw [hclock]; exact inv.within }
  · rw [hdebits, List.countP_append, List.countP_singleton]
    by_cases hk : ctx.billedKey = k
    · have hzero : s.debits.countP (fun d => d.billedKey = k) = 0 := by
        refine List.countP_eq_zero.mpr fun d hd' => ?_
        rw [decide_eq_true_iff, ← hk, hkey]
        exact hfresh d hd'
      rw [hzero]
      split <;> omega
    · rw [if_neg (by simpa using hk)]
      exact inv.once k
  · rw [hdebits] at hd'
    obtain hd' | hd' := List.mem_append.mp hd'
    · exact marked_update inv hh hcommit hs hbilled d hd'
    · right
      rw [List.mem_singleton.mp hd']
      exact ⟨h, { hd with phase := .publish ctx write outcome },
        by rw [hs, Function.update_self], hkey.symm, rfl⟩
  · obtain ⟨rfl, ho⟩ | ⟨hne', hh'⟩ := handler_update hs hh'
    · cases ho
      cases hp
    · intro d hmem
      rw [hdebits] at hmem
      obtain hmem | hmem := List.mem_append.mp hmem
      · exact inv.fresh h' hd' ctx' hh' hp d hmem
      · -- another handler about to bill is of another span
        rw [List.mem_singleton.mp hmem, hkey]
        intro heq
        exact hne' (inv.alone h h' hd _ hh hh' heq hne).symm
  · obtain ⟨rfl, ho⟩ | ⟨-, hh'⟩ := handler_update hs hh'
    · cases ho
      obtain rfl := Option.some.inj hp
      exact ⟨hkey, hne⟩
    · exact inv.ctxKey h' hd' ctx' hh' hp

/-- The crossing events are done: the handler still stands before its marker. -/
theorem billedOnce_publish (inv : BilledOnce deadline s) (hh : s.handler h = some hd)
    {ctx : BillingContext} {write : BillingWriteResult} {outcome : BillingOutcome}
    (hphase : hd.phase = .publish ctx write outcome) :
    BilledOnce deadline (s.setHandler h (some { hd with phase := .mark ctx outcome })) := by
  obtain ⟨hkey, hne⟩ := inv.ctxKey h hd ctx hh (by rw [hphase]; rfl)
  have hs : (s.setHandler h (some { hd with phase := .mark ctx outcome })).handler
      = Function.update s.handler h (some { hd with phase := .mark ctx outcome }) := rfl
  refine { once := inv.once, marked := fun d hd' => ?_,
           fresh := fun h' hd' ctx' hh' hp => ?_, ctxKey := fun h' hd' ctx' hh' hp => ?_,
           alone := alone_update inv hh hs (fun hd' ho => by cases ho; rfl),
           early := inv.early, within := inv.within }
  · obtain hm | ⟨h', hd₁, hh₁, hk, hc⟩ := inv.marked d hd'
    · exact .inl hm
    · by_cases hne' : h' = h
      · subst hne'
        obtain rfl := Option.some.inj (hh.symm.trans hh₁)
        exact .inr ⟨h', { hd with phase := .mark ctx outcome },
          by rw [hs, Function.update_self], hk, rfl⟩
      · exact .inr ⟨h', hd₁, by rw [hs, Function.update_of_ne hne']; exact hh₁, hk, hc⟩
  · obtain ⟨rfl, ho⟩ | ⟨-, hh'⟩ := handler_update hs hh'
    · cases ho
      cases hp
    · exact inv.fresh h' hd' ctx' hh' hp
  · obtain ⟨rfl, ho⟩ | ⟨-, hh'⟩ := handler_update hs hh'
    · cases ho
      obtain rfl := Option.some.inj hp
      exact ⟨hkey, hne⟩
    · exact inv.ctxKey h' hd' ctx' hh' hp

/-- The marker is written: it outlives the run. -/
theorem billedOnce_mark (inv : BilledOnce deadline s) (hh : s.handler h = some hd)
    {ctx : BillingContext} {outcome : BillingOutcome} (hphase : hd.phase = .mark ctx outcome) :
    BilledOnce deadline (Consumer.setHandler
      { s with billed := Function.update s.billed ctx.billedKey (some (s.clock + billedKeyTtl)) } h
      (some { hd with phase := .notify ctx outcome })) := by
  obtain ⟨hkey, hne⟩ := inv.ctxKey h hd ctx hh (by rw [hphase]; rfl)
  generalize hs' : Consumer.setHandler
      { s with billed := Function.update s.billed ctx.billedKey (some (s.clock + billedKeyTtl)) } h
      (some { hd with phase := .notify ctx outcome }) = s'
  have hs : s'.handler = Function.update s.handler h
      (some { hd with phase := .notify ctx outcome }) := by rw [← hs']; rfl
  have hbilled : s'.billed = Function.update s.billed ctx.billedKey
      (some (s.clock + billedKeyTtl)) := by rw [← hs']; rfl
  have hdebits : s'.debits = s.debits := by rw [← hs']; rfl
  have hclock : s'.clock = s.clock := by rw [← hs']; rfl
  refine { once := by rw [hdebits]; exact inv.once, marked := fun d hd' => ?_,
           fresh := fun h' hd' ctx' hh' hp => ?_, ctxKey := fun h' hd' ctx' hh' hp => ?_,
           alone := alone_update inv hh hs (fun hd' ho => by cases ho; rfl),
           early := by rw [hclock]; exact inv.early,
           within := by rw [hclock]; exact inv.within }
  · rw [hdebits] at hd'
    rw [hbilled]
    by_cases hk : d.billedKey = ctx.billedKey
    · rw [hk, Function.update_self]
      exact .inl ⟨_, rfl, inv.within⟩
    · rw [Function.update_of_ne hk]
      obtain hm | ⟨h', hd₁, hh₁, hk₁, hc⟩ := inv.marked d hd'
      · exact .inl hm
      · have hne' : h' ≠ h := by
          rintro rfl
          obtain rfl := Option.some.inj (hh.symm.trans hh₁)
          exact hk (hk₁.symm.trans hkey.symm)
        exact .inr ⟨h', hd₁, by rw [hs, Function.update_of_ne hne']; exact hh₁, hk₁, hc⟩
  · rw [hdebits]
    obtain ⟨rfl, ho⟩ | ⟨-, hh'⟩ := handler_update hs hh'
    · cases ho
      cases hp
    · exact inv.fresh h' hd' ctx' hh' hp
  · obtain ⟨rfl, ho⟩ | ⟨-, hh'⟩ := handler_update hs hh'
    · cases ho
      obtain rfl := Option.some.inj hp
      exact ⟨hkey, hne⟩
    · exact inv.ctxKey h' hd' ctx' hh' hp

/-- A message is delivered while no handler of its span is in flight. -/
theorem billedOnce_deliver (inv : BilledOnce deadline s) (hh : s.handler h = none)
    {msg : Option Span} (hallowed : Allowed deadline s (.deliver h msg)) :
    BilledOnce deadline (s.setHandler h (some ⟨msg, 1, .check⟩)) := by
  have hs : (s.setHandler h (some ⟨msg, 1, .check⟩)).handler
      = Function.update s.handler h (some ⟨msg, 1, .check⟩) := rfl
  refine { once := inv.once, marked := fun d hd' => ?_,
           fresh := fun h' hd' ctx' hh' hp => ?_, ctxKey := fun h' hd' ctx' hh' hp => ?_,
           alone := fun h₁ h₂ hd₁ hd₂ hh₁ hh₂ hk hne => ?_,
           early := inv.early, within := inv.within }
  · obtain hm | ⟨h', hd₁, hh₁, hk, hc⟩ := inv.marked d hd'
    · exact .inl hm
    · have hne : h' ≠ h := by
        rintro rfl
        rw [hh] at hh₁
        cases hh₁
      exact .inr ⟨h', hd₁, by rw [hs, Function.update_of_ne hne]; exact hh₁, hk, hc⟩
  · obtain ⟨rfl, ho⟩ | ⟨-, hh'⟩ := handler_update hs hh'
    · cases ho
      cases hp
    · exact inv.fresh h' hd' ctx' hh' hp
  · obtain ⟨rfl, ho⟩ | ⟨-, hh'⟩ := handler_update hs hh'
    · cases ho
      cases hp
    · exact inv.ctxKey h' hd' ctx' hh' hp
  · obtain ⟨rfl, ho₁⟩ | ⟨-, hold₁⟩ := handler_update hs hh₁
    · obtain ⟨rfl, -⟩ | ⟨-, hold₂⟩ := handler_update hs hh₂
      · rfl
      · cases ho₁
        exact absurd (hallowed h₂ hd₂ hold₂ hk.symm) hne
    · obtain ⟨rfl, ho₂⟩ | ⟨-, hold₂⟩ := handler_update hs hh₂
      · cases ho₂
        exact absurd (hallowed h₁ hd₁ hold₁ hk) (hk ▸ hne)
      · exact inv.alone h₁ h₂ hd₁ hd₂ hold₁ hold₂ hk hne

/-- A handler that may be lost ends, or raises, with nothing left to mark. -/
theorem billedOnce_lose (inv : BilledOnce deadline s) (hh : s.handler h = some hd)
    (hcommit : hd.phase.afterCommit = false) (killed : Bool) :
    BilledOnce deadline (s.setHandler h (if killed then none else afterRaise hd)) := by
  refine billedOnce_move inv hh hcommit rfl (fun hd' ho => ?_) rfl rfl rfl
  split at ho
  · cases ho
  · exact afterRaise_spec ho

/-- One step keeps the accounting. -/
theorem billedOnce_step (inv : BilledOnce deadline s) {a : Action}
    (hallowed : Allowed deadline s a) {s' : Consumer} (hstep : step s a = some s') :
    BilledOnce deadline s' := by
  -- a handler that is not between commit and marker raises or ends
  have hraise : ∀ {h hd}, s.handler h = some hd → hd.phase.afterCommit = false →
      BilledOnce deadline (s.setHandler h (afterRaise hd)) := fun hh hcommit =>
    billedOnce_move inv hh hcommit rfl (fun _ => afterRaise_spec) rfl rfl rfl
  cases step_moved hstep with
  | delivered hh => exact billedOnce_deliver inv hh hallowed
  | @ticked d =>
    have hlt : s.clock + d < deadline := hallowed
    have hwithin := inv.within
    exact { inv with early := hlt, within := by show deadline ≤ s.clock + d + billedKeyTtl; omega }
  | checked hh hphase => exact billedOnce_check inv hh hphase _
  | recorded hh hphase hdb =>
    exact billedOnce_move inv hh (by rw [hphase]; rfl) rfl (fun _ ho => (nomatch ho)) rfl rfl rfl
  | recordRaised hh hphase => exact hraise hh (by rw [hphase]; rfl)
  | billRaised hh hphase => exact hraise hh (by rw [hphase]; rfl)
  | billSkipped hh hphase =>
    exact billedOnce_move inv hh (by rw [hphase]; rfl) rfl (fun _ ho => (nomatch ho)) rfl rfl rfl
  | billed hh hphase hbill => exact billedOnce_commit inv hh hphase _ _ _
  | published hh hphase => exact billedOnce_publish inv hh hphase
  | @marked _ _ _ _ redisOk hh hphase =>
    obtain rfl : redisOk = true := hallowed
    exact billedOnce_mark inv hh hphase
  | notifyRaised hh hphase => exact hraise hh (by rw [hphase]; rfl)
  | notified hh hphase =>
    exact billedOnce_move inv hh (by rw [hphase]; rfl) rfl (fun _ ho => (nomatch ho)) rfl rfl rfl
  | retried hh hphase =>
    refine billedOnce_move inv hh (by rw [hphase]; rfl) rfl (fun hd' ho => ?_) rfl rfl rfl
    cases ho
    exact ⟨rfl, rfl⟩
  | lost hh => exact billedOnce_lose inv hh (hallowed _ hh) _

/-! ## The debits are what moved the budget -/

/-- What the debits of a key, one after the other, make of its usage. -/
def usedAfter (key : Int) (used : ℚ) (debits : List Debit) : ℚ :=
  ((debits.filter fun d => d.apiKeyId = key).map Debit.cost).foldl debited used

theorem usedAfter_self (key : Int) (used : ℚ) (debits : List Debit) (billedKey : String)
    (cost : ℚ) : usedAfter key used (debits ++ [⟨billedKey, key, cost⟩])
      = debited (usedAfter key used debits) cost := by
  unfold usedAfter
  simp

theorem usedAfter_ne {key : Int} {d : Debit} (h : d.apiKeyId ≠ key) (used : ℚ)
    (debits : List Debit) : usedAfter key used (debits ++ [d]) = usedAfter key used debits := by
  unfold usedAfter
  simp [h]

/-- Every budget row is what the debits of its key made of it. -/
def Accounts (s₀ s : Consumer) : Prop :=
  ∀ key row, s₀.db.budgetUsage key = some row → ∃ row', s.db.budgetUsage key = some row' ∧
    row'.used = usedAfter key row.used s.debits

theorem accounts_of_same {s₀ s' : Consumer} (h : Accounts s₀ s)
    (hdb : s'.db.budgetUsage = s.db.budgetUsage) (hdebits : s'.debits = s.debits) :
    Accounts s₀ s' := by
  intro key row hrow
  rw [hdb, hdebits]
  exact h key row hrow

theorem accounts_commit {s₀ s' : Consumer} {ctx : BillingContext} {cost : ℚ}
    (h : Accounts s₀ s) (hdb : s'.db.budgetUsage = (s.db.debit ctx.apiKeyId cost).budgetUsage)
    (hdebits : s'.debits = s.debits ++ [Debit.mk ctx.billedKey ctx.apiKeyId cost]) :
    Accounts s₀ s' := by
  intro key row hrow
  obtain ⟨row', hrow', hused⟩ := h key row hrow
  rw [hdb, hdebits]
  by_cases hkey : key = ctx.apiKeyId
  · subst hkey
    refine ⟨_, debit_budgetUsage_self hrow' cost, ?_⟩
    rw [usedAfter_self, ← hused]
  · refine ⟨row', (debit_budgetUsage_ne hkey cost).trans hrow', ?_⟩
    rw [usedAfter_ne (Ne.symm hkey), hused]

theorem accounts_step {s₀ : Consumer} (h : Accounts s₀ s) {a : Action} {s' : Consumer}
    (hstep : step s a = some s') : Accounts s₀ s' := by
  cases step_moved hstep with
  | recorded hh hphase hdb => exact accounts_of_same h (recordRequest_budgetUsage hdb) rfl
  | billed hh hphase hbill => exact accounts_commit h (billUsage_budgetUsage hbill) rfl
  | _ => exact accounts_of_same h rfl rfl

def sampleSpan : Span :=
  { name := .aiInference, spanId := "s1", correlationId := "c1", tenantId := "1"
    serviceId := "asr", inputTokens := 10, outputTokens := 0, cachedInputTokens := 0
    apiKeyId := 7, tierId := none, authType := "api_key", endTime := 0, url := ""
    statusCode := none }

def sampleConsumer : Consumer where
  db :=
    { pricing := fun _ => some ⟨"asr", some 2, none, none, none, none⟩
      inferenceTypes := fun _ => none
      tierQuotas := fun _ _ => none
      budgetUsage := fun key => if key = 7 then some ⟨0, some 100⟩ else none
      quotaUsage := fun _ => none
      usageEvents := [] }
  billed _ := none
  clock := 0
  handler _ := none
  authCalls := []
  debits := []

def failingCrossing : CrossingEnv where
  configured := true
  budgetNames := [.budgetThreshold]
  tenantBudget := .error .mk
  emit := ⟨true, [], .error .mk, .error .mk, .error .mk, .error .mk⟩

/-- The attempts of the first delivery, after its start. -/
def attempts : List Action :=
  [.check 0 true, .bill 0 { commitRaises := true }, .tick 1, .retry 0, .check 0 true, .bill 0 {},
   .publish 0 failingCrossing, .mark 0 true, .notify 0 true, .tick 2, .retry 0, .check 0 true]

/-- The delivery with its retries, then the redelivery. -/
def sampleRun : List Action :=
  (.deliver 0 (some sampleSpan) :: attempts) ++ [.deliver 1 (some sampleSpan), .check 1 true]

/-- The part of `Allowed` that a state can be tested for. -/
def allowedTest (s : Consumer) : Action → Bool
  | .deliver _ _ => false
  | .check _ redisOk => redisOk
  | .mark _ redisOk => redisOk
  | .lose _ _ => false
  | .tick d => s.clock + d < billedKeyTtl
  | _ => true

theorem sampleRun_allowed : Guarded step (Allowed billedKeyTtl) sampleConsumer sampleRun := by
  have htest : ∀ s a, allowedTest s a = true → Allowed billedKeyTtl s a := by
    intro s a h
    cases a <;> simp_all [allowedTest, Allowed]
  have hfirst : Guarded step (Allowed billedKeyTtl) sampleConsumer
      (.deliver 0 (some sampleSpan) :: attempts) := by
    refine ⟨fun h hd hh => (nomatch hh), fun s' hs' => ?_⟩
    obtain rfl := Option.some.inj hs'
    exact guarded_of_check htest (by decide +kernel)
  refine hfirst.append fun m hm => ⟨?_, fun _ _ => ⟨rfl, fun _ _ => trivial⟩⟩
  -- handler 0 is done by then, and no other one ever started
  have hzero : m.handler 0 = none := by
    obtain ⟨m', hm', hdone⟩ := exists_run_of_map step sampleConsumer
      (.deliver 0 (some sampleSpan) :: attempts) (fun s => (s.handler 0).isNone) (x := true)
      (by decide +kernel)
    obtain rfl := Option.some.inj (hm'.symm.trans hm)
    simpa using hdone
  have hother : ∀ h, h ≠ 0 → m.handler h = none := by
    intro h hne
    refine hm.guardedInvariant (G := fun _ a => a.target = some 0 ∨ a.target = none)
      (P := fun s => s.handler h = none) (fun s a s' hP hG hstep => ?_)
      (guarded_of_check (g := fun _ a => decide (a.target = some 0 ∨ a.target = none))
        (fun _ _ => of_decide_eq_true) (by decide +kernel)) rfl
    refine (step_handler_frame hstep fun heq => ?_).trans hP
    rcases hG with hG | hG
    · exact hne (Option.some.inj (heq.symm.trans hG))
    · rw [hG] at heq
      cases heq
  intro h hd hh
  by_cases hne : h = 0
  · subst hne
    rw [hzero] at hh
    cases hh
  · rw [hother h hne] at hh
    cases hh

end Ai4iCore.Billing
