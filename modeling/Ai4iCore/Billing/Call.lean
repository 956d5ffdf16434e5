import Ai4iCore.Billing.AtMostOnce

/-!
# One call of the handler

`handle_ppu_usage` from its first line to its last, as one function
(`handlePpuUsage`); `handlePpuUsage_run` says that it is what the steps of one handler of
the consumer do when nothing else moves.

Two results about what a call leaves behind. A committed debit that exhausts its key is
reported (`exhaustion_reported_iff`) exactly when the span has a tier: the branch without a
tier drops the wallet's result. And a span with a price is settled (`span_settled_iff`)
exactly when the dedup lookup answers: a lookup that fails, or a span without a correlation
id, gives the same `None` as a span that was billed before, and the call returns. Where Redis
answers, a call that returns leaves exactly one debit (`billed_exactly_once`).
-/

namespace Ai4iCore.Billing

open StepSystem

/-- What the environment does to one call. -/
structure CallEnv where
  redisOk : Bool
  recordRaises : Bool
  bill : BillEnv
  crossing : CrossingEnv
  markOk : Bool
  notifyRaises : Bool

/-- `_update_billing_on_cache`. -/
def Consumer.markBilled (s : Consumer) (billedKey : String) (redisOk : Bool) : Consumer :=
  { s with billed := if redisOk then
      Function.update s.billed billedKey (some (s.clock + billedKeyTtl)) else s.billed }

/-- `handle_ppu_usage` after the commit. -/
def afterBilling (s : Consumer) (ctx : BillingContext) (write : BillingWriteResult)
    (outcome : BillingOutcome) (env : CallEnv) : Except IoError Unit × Consumer :=
  match publishUsageCrossingEvents env.crossing write outcome.pricing.taskType with
  | .error e => (.error e, s)
  | .ok _ =>
    let s := s.markBilled ctx.billedKey env.markOk
    if env.notifyRaises then (.error .mk, s)
    else
      let authCalls := s.authCalls ++ postBilling outcome ctx.tenantId ctx.apiKeyId
      (.ok (), { s with authCalls })

/-- `handle_ppu_usage`: how it ends and what it leaves. -/
def handlePpuUsage (s : Consumer) (msg : Option Span) (env : CallEnv) :
    Except IoError Unit × Consumer :=
  match afterCheck s msg env.redisOk with
  | some (.record span) =>
    match recordRequest s.db span env.recordRaises env.bill.insertOk with
    | some db => (.ok (), { s with db })
    | none => (.error .mk, s)
  | some (.bill ctx) =>
    match billUsage s.db ctx env.bill with
    | .raised => (.error .mk, s)
    | .skipped => (.ok (), s)
    | .committed db write outcome =>
      afterBilling { s with db, debits := s.debits ++
        [Debit.mk ctx.billedKey ctx.apiKeyId outcome.cost] } ctx write outcome env
  | _ => (.ok (), s)

/-! ## The call and the steps of the consumer -/

/-- What `_handle_with_retry` makes of the handler when the call has ended. -/
def afterCall (hd : Handler) : Except IoError Unit → Option Handler
  | .ok _ => none
  | .error _ => afterRaise hd

section Steps

variable {s : Consumer} {h : Nat} {hd : Handler}

/-- A step of a handler does not depend on where it stood before. -/
theorem handlerStep_setHandler (o : Option Handler) (phase : Phase) (a : Action) :
    handlerStep (s.setHandler h o) h hd phase a = handlerStep s h hd phase a := by
  unfold handlerStep
  split <;> simp only [Consumer.setHandler, Function.update_idem]
  -- the check reads the store, and not the handlers
  rfl

/-- A handler moves by its own step. -/
theorem step_of_handler (hh : s.handler h = some hd) {a : Action} (htarget : a.target = some h)
    (hdeliver : ∀ msg, a ≠ .deliver h msg) : step s a = handlerStep s h hd hd.phase a := by
  unfold step
  split
  · rename_i h' msg
    obtain rfl := Option.some.inj htarget
    exact absurd rfl (hdeliver msg)
  · cases htarget
  · rw [htarget]
    dsimp only
    rw [hh]

theorem step_at {a : Action} (htarget : a.target = some h)
    (hdeliver : ∀ msg, a ≠ .deliver h msg) :
    step (s.setHandler h (some hd)) a = handlerStep s h hd hd.phase a := by
  rw [step_of_handler (Function.update_self ..) htarget hdeliver, handlerStep_setHandler]

/-- The steps after the commit. -/
theorem afterBilling_run {ctx : BillingContext} {write : BillingWriteResult}
    {outcome : BillingOutcome} (env : CallEnv) :
    Run step (s.setHandler h (some { hd with phase := .publish ctx write outcome }))
      [.publish h env.crossing, .mark h env.markOk, .notify h env.notifyRaises]
      ((afterBilling s ctx write outcome env).2.setHandler h
        (afterCall hd (afterBilling s ctx write outcome env).1)) := by
  obtain ⟨l, hok⟩ := publishUsageCrossingEvents_ok env.crossing write outcome.pricing.taskType
  have hpublish : step (s.setHandler h (some { hd with phase := .publish ctx write outcome }))
      (.publish h env.crossing) =
      some (s.setHandler h (some { hd with phase := .mark ctx outcome })) := by
    rw [step_at rfl (fun msg heq => by cases heq), handlerStep, hok]
  have hmark : step (s.setHandler h (some { hd with phase := .mark ctx outcome }))
      (.mark h env.markOk) = some ((s.markBilled ctx.billedKey env.markOk).setHandler h
        (some { hd with phase := .notify ctx outcome })) := by
    rw [step_at rfl (fun msg heq => by cases heq)]
    rfl
  refine run_cons_iff.mpr ⟨_, hpublish, run_cons_iff.mpr ⟨_, hmark, ?_⟩⟩
  refine run_cons_iff.mpr ⟨_, ?_, Run.nil _⟩
  rw [step_at rfl (fun msg heq => by cases heq), handlerStep]
  unfold afterBilling
  rw [hok]
  dsimp only
  split <;> rfl

theorem afterCheck_cases (s : Consumer) (msg : Option Span) (redisOk : Bool) :
    afterCheck s msg redisOk = none ∨ (∃ span, afterCheck s msg redisOk = some (.record span)) ∨
      ∃ ctx, afterCheck s msg redisOk = some (.bill ctx) := by
  unfold afterCheck
  cases msg with
  | none => exact .inl rfl
  | some span =>
    dsimp only
    split
    · exact .inr (.inl ⟨_, rfl⟩)
    · split
      · exact .inl rfl
      · cases billingContext span with
        | none => exact .inl rfl
        | some ctx => exact .inr (.inr ⟨ctx, rfl⟩)

/-- **One call.** A handler that stands at the start of a call reaches what the call leaves. -/
theorem handlePpuUsage_run (hh : s.handler h = some hd) (hphase : hd.phase = .check)
    (env : CallEnv) :
    ∃ as, Run step s as ((handlePpuUsage s hd.msg env).2.setHandler h
      (afterCall hd (handlePpuUsage s hd.msg env).1)) := by
  have hcheck : step s (.check h env.redisOk) =
      some (s.setHandler h ((afterCheck s hd.msg env.redisOk).map fun phase => { hd with phase })) := by
    rw [step_of_handler hh rfl (fun msg heq => by cases heq), hphase, handlerStep]
  unfold handlePpuUsage
  split
  · rename_i span hnext
    rw [hnext, Option.map_some] at hcheck
    refine ⟨[_, .record h env.recordRaises env.bill.insertOk], run_cons_iff.mpr ⟨_, hcheck,
      run_cons_iff.mpr ⟨_, ?_, Run.nil _⟩⟩⟩
    rw [step_at rfl (fun msg heq => by cases heq), handlerStep]
    cases recordRequest s.db span env.recordRaises env.bill.insertOk <;> rfl
  · rename_i ctx hnext
    rw [hnext, Option.map_some] at hcheck
    have hbill : step (s.setHandler h (some { hd with phase := .bill ctx })) (.bill h env.bill) =
        handlerStep s h { hd with phase := .bill ctx } (.bill ctx) (.bill h env.bill) :=
      step_at rfl fun msg heq => by cases heq
    rw [handlerStep] at hbill
    cases hresult : billUsage s.db ctx env.bill with
    | raised =>
      rw [hresult] at hbill
      exact ⟨_, run_cons_iff.mpr ⟨_, hcheck, run_cons_iff.mpr ⟨_, hbill, Run.nil _⟩⟩⟩
    | skipped =>
      rw [hresult] at hbill
      exact ⟨_, run_cons_iff.mpr ⟨_, hcheck, run_cons_iff.mpr ⟨_, hbill, Run.nil _⟩⟩⟩
    | committed db write outcome =>
      rw [hresult] at hbill
      exact ⟨_, run_cons_iff.mpr ⟨_, hcheck, run_cons_iff.mpr ⟨_, hbill, afterBilling_run env⟩⟩⟩
  · rename_i hrecord hbill
    obtain hnone | ⟨span, hnext⟩ | ⟨ctx, hnext⟩ := afterCheck_cases s hd.msg env.redisOk
    · rw [hnone, Option.map_none] at hcheck
      exact ⟨_, run_cons_iff.mpr ⟨_, hcheck, Run.nil _⟩⟩
    · exact absurd hnext (hrecord span)
    · exact absurd hnext (hbill ctx)

end Steps

/-! ## Exhaustion -/

/-- The debit of the span takes its key to its ceiling or beyond. -/
def ReachesCeiling (db : Db) (ctx : BillingContext) : Prop :=
  ∃ pricing row snap, db.pricing ctx.serviceId = some pricing ∧
    db.budgetUsage ctx.apiKeyId = some row ∧ row.snap = some snap ∧
    snap ≤ debited row.used (chargeOf pricing ctx).2.1

/-- The statement reports exhaustion of the row it has just debited. -/
theorem budgetExhausted_iff (db : Db) (tenantId : String) (month : Int × Int) (units cost : ℚ)
    (apiKeyId : Int) (tierId : Option String) (inferenceTypeId : Option Nat) :
    (deductBalanceAndUpdateQuota db tenantId month units cost apiKeyId tierId
      inferenceTypeId).2.budgetExhausted = true ↔
      ∃ row snap, (db.debit apiKeyId cost).budgetUsage apiKeyId = some row ∧
        row.snap = some snap ∧ snap ≤ row.used := by
  unfold deductBalanceAndUpdateQuota
  dsimp only
  cases hrow : (db.debit apiKeyId cost).budgetUsage apiKeyId with
  | none => simp
  | some row =>
    cases hsnap : row.snap with
    | none => simp [hsnap]
    | some snap => simp [hsnap]

/-- A key is exhausted after the debit exactly when the debit reaches its ceiling. -/
theorem exhausted_after_iff {db db' : Db} {ctx : BillingContext} {env : BillEnv}
    {write : BillingWriteResult} {outcome : BillingOutcome}
    (h : billUsage db ctx env = .committed db' write outcome) :
    (∃ row snap, db'.budgetUsage ctx.apiKeyId = some row ∧ row.snap = some snap ∧
      snap ≤ row.used) ↔ ReachesCeiling db ctx := by
  obtain ⟨-, pricing, hpricing, -, hcost, -, -, -⟩ := billUsage_committed h
  rw [billUsage_budgetUsage h]
  constructor
  · rintro ⟨row, snap, hrow, hsnap, hle⟩
    cases hold : db.budgetUsage ctx.apiKeyId with
    | none =>
      rw [Db.debit, hold] at hrow
      exact absurd (hold.symm.trans hrow) (by simp)
    | some old =>
      rw [debit_budgetUsage_self hold] at hrow
      obtain rfl := Option.some.inj hrow
      exact ⟨pricing, old, snap, hpricing, hold, hsnap, hcost ▸ hle⟩
  · rintro ⟨pricing', row, snap, hpricing', hrow, hsnap, hle⟩
    obtain rfl := Option.some.inj (hpricing.symm.trans hpricing')
    exact ⟨_, snap, debit_budgetUsage_self hrow _, hsnap, hcost ▸ hle⟩

/-- The outcome reports exhaustion of a key that reached its ceiling when the span has a tier. -/
theorem walletExhausted_iff {db db' : Db} {ctx : BillingContext} {env : BillEnv}
    {write : BillingWriteResult} {outcome : BillingOutcome}
    (h : billUsage db ctx env = .committed db' write outcome) :
    outcome.walletExhausted = true ↔ ctx.tierId.isSome = true ∧ ReachesCeiling db ctx := by
  obtain ⟨-, pricing, -, -, -, -, hwrite, hwallet⟩ := billUsage_committed h
  have htier : write.tierId = ctx.tierId := by
    rw [hwrite]
    rfl
  have hexhausted : write.budgetExhausted = true ↔ ReachesCeiling db ctx := by
    rw [← exhausted_after_iff h, billUsage_budgetUsage h, hwrite]
    exact budgetExhausted_iff ..
  rw [hwallet, ← hexhausted]
  unfold exhaustionOf
  rw [htier]
  cases ctx.tierId with
  | none => simp
  | some tier =>
    simp only [Option.isNone_some, Bool.false_eq_true, if_false, Option.isSome_some, true_and]
    split <;> rfl

theorem mem_postBilling_iff {outcome : BillingOutcome} {tenantId : String} {apiKeyId : Int}
    (hkey : apiKeyId ≠ 0) :
    .budgetExhausted apiKeyId ∈ postBilling outcome tenantId apiKeyId ↔
      outcome.walletExhausted = true := by
  unfold postBilling
  by_cases hw : outcome.walletExhausted = true
  · simp [hw, hkey]
  · simp [hw]

/-- **Exhaustion is reported.** After a committed debit of a key that reached its ceiling,
auth-service is told so, exactly when the span has a tier or the ceiling was not reached. -/
theorem exhaustion_reported_iff {db db' : Db} {ctx : BillingContext} {env : BillEnv}
    {write : BillingWriteResult} {outcome : BillingOutcome}
    (h : billUsage db ctx env = .committed db' write outcome) (hkey : ctx.apiKeyId ≠ 0) :
    (∀ row snap, db'.budgetUsage ctx.apiKeyId = some row → row.snap = some snap →
      snap ≤ row.used →
      .budgetExhausted ctx.apiKeyId ∈ postBilling outcome ctx.tenantId ctx.apiKeyId) ↔
    (ctx.tierId.isSome = true ∨ ¬ ReachesCeiling db ctx) := by
  rw [mem_postBilling_iff hkey, walletExhausted_iff h]
  constructor
  · intro hall
    by_cases hreach : ReachesCeiling db ctx
    · obtain ⟨row, snap, hrow, hsnap, hle⟩ := (exhausted_after_iff h).mpr hreach
      exact .inl (hall row snap hrow hsnap hle).1
    · exact .inr hreach
  · rintro (htier | hnot) row snap hrow hsnap hle
    · exact ⟨htier, (exhausted_after_iff h).mp ⟨row, snap, hrow, hsnap, hle⟩⟩
    · exact absurd ((exhausted_after_iff h).mp ⟨row, snap, hrow, hsnap, hle⟩) hnot

/-- A span of a key with a ceiling of ₹15; it costs ₹20. -/
def costlySpan (tierId : Option String) : BillingContext where
  tenantId := "1"
  serviceId := "asr"
  inputTokens := 10
  totalTokens := 10
  correlationId := "c1"
  spanId := "s1"
  billedKey := "ppu:billed:c1:s1"
  billingMonth := (2026, 1)
  apiKeyId := 7
  tierId := tierId
  outputTokens := 0
  cachedInputTokens := 0
  occurredAt := 0

def tightDb : Db where
  pricing _ := some ⟨"asr", some 2, none, none, none, none⟩
  inferenceTypes _ := none
  tierQuotas _ _ := none
  budgetUsage key := if key = 7 then some ⟨0, some 15⟩ else none
  quotaUsage _ := none
  usageEvents := []

/-- What the transaction hands on, if it commits. -/
def BillResult.outcome? : BillResult → Option BillingOutcome
  | .committed _ _ outcome => some outcome
  | _ => none

theorem BillResult.committed_of_outcome? {r : BillResult} {outcome : BillingOutcome}
    (h : r.outcome? = some outcome) : ∃ db write, r = .committed db write outcome := by
  cases r with
  | raised => cases h
  | skipped => cases h
  | committed db write outcome' => exact ⟨db, write, by rw [← Option.some.inj h]⟩

theorem reachesCeiling_costly (tierId : Option String) :
    ReachesCeiling tightDb (costlySpan tierId) := by
  refine ⟨_, ⟨0, some 15⟩, 15, rfl, rfl, rfl, ?_⟩
  show (15 : ℚ) ≤ debited 0 (chargeOf _ (costlySpan none)).2.1
  decide +kernel

theorem exhaustion_reported_iff_sample :
    ∃ db write outcome, billUsage tightDb (costlySpan (some "gold")) {} =
        .committed db write outcome ∧
      .budgetExhausted 7 ∈ postBilling outcome "1" 7 := by
  obtain ⟨outcome, houtcome⟩ := Option.isSome_iff_exists.mp (show (billUsage tightDb
    (costlySpan (some "gold")) {}).outcome?.isSome = true by decide +kernel)
  obtain ⟨db, write, h⟩ := BillResult.committed_of_outcome? houtcome
  obtain ⟨row, snap, hrow, hsnap, hle⟩ := (exhausted_after_iff h).mpr (reachesCeiling_costly _)
  exact ⟨db, write, outcome, h,
    (exhaustion_reported_iff h (by decide)).mpr (.inl rfl) row snap hrow hsnap hle⟩

/-- Without a tier the debit is committed and the key is over its ceiling, and nobody is
told. -/
theorem exhaustion_unreported :
    ∃ db write outcome, billUsage tightDb (costlySpan none) {} = .committed db write outcome ∧
      (∃ row snap, db.budgetUsage 7 = some row ∧ row.snap = some snap ∧ snap ≤ row.used) ∧
      .budgetExhausted 7 ∉ postBilling outcome "1" 7 := by
  have hcalls : (billUsage tightDb (costlySpan none) {}).outcome?.map
      (fun outcome => postBilling outcome "1" 7) = some [.quotaExhausted "1" "asr"] := by
    decide +kernel
  obtain ⟨outcome, houtcome, hpost⟩ := Option.map_eq_some_iff.mp hcalls
  obtain ⟨db, write, h⟩ := BillResult.committed_of_outcome? houtcome
  refine ⟨db, write, outcome, h, (exhausted_after_iff h).mpr (reachesCeiling_costly none), ?_⟩
  rw [hpost]
  decide

/-! ## Settled spans -/

/-- The span is among the debits already. -/
def PreviouslyBilled (s : Consumer) (span : Span) : Prop :=
  ∃ d ∈ s.debits, d.billedKey = span.billedKey

/-- A call settles its span: it raises, it has debited the cost, or there is a debit of the
span from before. -/
def Settles (s : Consumer) (span : Span) (cost : ℚ) (r : Except IoError Unit × Consumer) : Prop :=
  (∃ e, r.1 = .error e) ∨
    (r.2.debits = s.debits ++ [Debit.mk span.billedKey span.apiKeyId cost] ∧
      r.2.db.budgetUsage = (s.db.debit span.apiKeyId cost).budgetUsage) ∨
    PreviouslyBilled s span

/-- Markers are written after the commit: a marked key, or one that is about to be marked,
is among the debits. -/
structure Marked (s : Consumer) : Prop where
  markers : ∀ key expiry, s.billed key = some expiry → ∃ d ∈ s.debits, d.billedKey = key
  handlers : ∀ h hd ctx, s.handler h = some hd → hd.phase.afterCommit = true →
    hd.phase.ctx? = some ctx → ∃ d ∈ s.debits, d.billedKey = ctx.billedKey

theorem marked_of_move {s s' : Consumer} (hm : Marked s) {h : Nat} {o : Option Handler}
    (hs : s'.handler = Function.update s.handler h o)
    (ho : ∀ hd, o = some hd → hd.phase.afterCommit = false) (hbilled : s'.billed = s.billed)
    (hdebits : s'.debits = s.debits) : Marked s' := by
  refine ⟨by rw [hbilled, hdebits]; exact hm.markers, fun h' hd ctx hh hcommit hctx => ?_⟩
  rw [hdebits]
  obtain ⟨-, hnew⟩ | ⟨-, hold⟩ := handler_update hs hh
  · rw [ho hd hnew] at hcommit
    cases hcommit
  · exact hm.handlers h' hd ctx hold hcommit hctx

theorem afterRaise_sleeping {hd hd' : Handler} (h : afterRaise hd = some hd') :
    hd'.phase.afterCommit = false := by
  unfold afterRaise at h
  split at h
  · cases h
    rfl
  · cases h

theorem marked_step {s s' : Consumer} {a : Action} (hm : Marked s) (hstep : step s a = some s') :
    Marked s' := by
  cases step_moved hstep with
  | delivered hh => exact marked_of_move hm rfl (fun hd ho => by cases ho; rfl) rfl rfl
  | ticked => exact ⟨hm.markers, hm.handlers⟩
  | @checked h hd redisOk hh hphase =>
    refine marked_of_move hm rfl (fun hd' ho => ?_) rfl rfl
    obtain ⟨phase, hphase, rfl⟩ := Option.map_eq_some_iff.mp ho
    obtain hnone | ⟨span, hnext⟩ | ⟨ctx, hnext⟩ := afterCheck_cases s hd.msg redisOk
    · rw [hnone] at hphase
      cases hphase
    · rw [hnext] at hphase
      cases hphase
      rfl
    · rw [hnext] at hphase
      cases hphase
      rfl
  | recorded hh hphase hdb => exact marked_of_move hm rfl (fun _ ho => (nomatch ho)) rfl rfl
  | recordRaised hh hphase => exact marked_of_move hm rfl (fun _ => afterRaise_sleeping) rfl rfl
  | billRaised hh hphase => exact marked_of_move hm rfl (fun _ => afterRaise_sleeping) rfl rfl
  | billSkipped hh hphase => exact marked_of_move hm rfl (fun _ ho => (nomatch ho)) rfl rfl
  | @billed h hd ctx env db write outcome hh hphase hbill =>
    -- the debit is the last one, and all the others are still there
    have hmore : ∀ {key}, (∃ d ∈ s.debits, d.billedKey = key) →
        ∃ d ∈ s.debits ++ [Debit.mk ctx.billedKey ctx.apiKeyId outcome.cost], d.billedKey = key := by
      rintro key ⟨d, hd', hkey⟩
      exact ⟨d, List.mem_append_left _ hd', hkey⟩
    refine ⟨fun key expiry hkey => hmore (hm.markers key expiry hkey),
      fun h' hd' ctx' hh' hcommit hctx => ?_⟩
    obtain ⟨-, hnew⟩ | ⟨-, hold⟩ := handler_update (s := s) (o := some { hd with
      phase := .publish ctx write outcome }) rfl hh'
    · cases hnew
      obtain rfl := Option.some.inj hctx
      exact ⟨_, List.mem_append_right _ (List.mem_singleton_self _), rfl⟩
    · exact hmore (hm.handlers h' hd' ctx' hold hcommit hctx)
  | @published h hd ctx write outcome env hh hphase =>
    refine ⟨hm.markers, fun h' hd' ctx' hh' hcommit hctx => ?_⟩
    obtain ⟨-, hnew⟩ | ⟨-, hold⟩ := handler_update (s := s) (o := some { hd with
      phase := .mark ctx outcome }) rfl hh'
    · cases hnew
      obtain rfl := Option.some.inj hctx
      exact hm.handlers h hd ctx hh (by rw [hphase]; rfl) (by rw [hphase]; rfl)
    · exact hm.handlers h' hd' ctx' hold hcommit hctx
  | @marked h hd ctx outcome redisOk hh hphase =>
    have hmine := hm.handlers h hd ctx hh (by rw [hphase]; rfl) (by rw [hphase]; rfl)
    refine ⟨fun key expiry hkey => ?_, fun h' hd' ctx' hh' hcommit hctx => ?_⟩
    · change (if redisOk then _ else _ : String → Option Int) key = some expiry at hkey
      split at hkey
      · by_cases hsame : key = ctx.billedKey
        · exact hsame ▸ hmine
        · rw [Function.update_of_ne hsame] at hkey
          exact hm.markers key expiry hkey
      · exact hm.markers key expiry hkey
    · obtain ⟨-, hnew⟩ | ⟨-, hold⟩ := handler_update (s := s) (o := some { hd with
        phase := .notify ctx outcome }) rfl hh'
      · cases hnew
        cases hcommit
      · exact hm.handlers h' hd' ctx' hold hcommit hctx
  | notifyRaised hh hphase => exact marked_of_move hm rfl (fun _ => afterRaise_sleeping) rfl rfl
  | notified hh hphase => exact marked_of_move hm rfl (fun _ ho => (nomatch ho)) rfl rfl
  | retried hh hphase => exact marked_of_move hm rfl (fun hd ho => by cases ho; rfl) rfl rfl
  | @lost h hd killed hh =>
    refine marked_of_move hm rfl (fun hd' ho => ?_) rfl rfl
    split at ho
    · cases ho
    · exact afterRaise_sleeping ho

/-- What happens after the commit takes no debit back. -/
theorem afterBilling_keeps (s : Consumer) (ctx : BillingContext) (write : BillingWriteResult)
    (outcome : BillingOutcome) (env : CallEnv) :
    (afterBilling s ctx write outcome env).2.debits = s.debits ∧
      (afterBilling s ctx write outcome env).2.db = s.db := by
  unfold afterBilling
  split
  · exact ⟨rfl, rfl⟩
  · dsimp only
    split <;> exact ⟨rfl, rfl⟩

/-- A span with a price is not skipped. -/
theorem billUsage_of_priced {db : Db} {ctx : BillingContext} {pricing : ServicePricing}
    (hpricing : db.pricing ctx.serviceId = some pricing) (hcost : 0 < (chargeOf pricing ctx).2.1)
    (env : BillEnv) :
    billUsage db ctx env = .raised ∨ ∃ db' write outcome,
      billUsage db ctx env = .committed db' write outcome := by
  cases h : billUsage db ctx env with
  | raised => exact .inl rfl
  | committed db' write outcome => exact .inr ⟨db', write, outcome, rfl⟩
  | skipped =>
    unfold billUsage at h
    rw [hpricing] at h
    dsimp only at h
    split at h
    · cases h
    · rw [if_neg hcost.ne'] at h
      split at h
      · cases h
      · split at h
        · cases h
        · split at h <;> cases h

theorem billingContext_apiKeyId {span : Span} {ctx : BillingContext}
    (h : billingContext span = some ctx) : ctx.apiKeyId = span.apiKeyId := by
  unfold billingContext at h
  dsimp only at h
  split at h
  · cases h
  · split at h
    · cases h
    · cases h
      rfl

/-- From an empty Redis and no handler under way, every marker stands for a debit. -/
theorem marked_run {s₀ : Consumer} {as : List Action} (hidle : ∀ h, s₀.handler h = none)
    (hunmarked : ∀ key, s₀.billed key = none) (hrun : Run step s₀ as s) : Marked s := by
  refine hrun.invariant (P := Marked) (fun _ _ _ hm hstep => marked_step hm hstep) ⟨?_, ?_⟩
  · intro key expiry hkey
    rw [hunmarked key] at hkey
    cases hkey
  · intro h hd ctx hh
    rw [hidle h] at hh
    cases hh

/-- A span whose marker is in Redis was billed before. -/
theorem Marked.previouslyBilled {span : Span} (hm : Marked s)
    (hbilled : s.isBilled span.billedKey = true) : PreviouslyBilled s span := by
  unfold Consumer.isBilled at hbilled
  cases hmarker : s.billed span.billedKey with
  | none =>
    rw [hmarker] at hbilled
    cases hbilled
  | some expiry => exact hm.markers _ _ hmarker

theorem billedKey_eq_empty_iff (span : Span) :
    span.billedKey = "" ↔ span.correlationId = "" := by
  unfold Span.billedKey getBilledKey
  split
  · simp_all
  · rename_i hne
    simp [hne, billedKeyPrefix]

/-- An inference span is billed when its dedup lookup answers that it was not. -/
theorem afterCheck_inference {span : Span} {ctx : BillingContext} (hname : span.name = .aiInference)
    (hctx : billingContext span = some ctx) (redisOk : Bool) :
    afterCheck s (some span) redisOk =
      if span.billedKey = "" || !redisOk || s.isBilled span.billedKey then none
      else some (.bill ctx) := by
  unfold afterCheck
  dsimp only
  rw [hname]
  dsimp only
  rw [hctx]
  rfl

/-- A call that passes the check bills the span or raises. -/
theorem handlePpuUsage_settles {span : Span} {ctx : BillingContext} {pricing : ServicePricing}
    (hctx : billingContext span = some ctx) (hpricing : s.db.pricing ctx.serviceId = some pricing)
    (hcost : 0 < (chargeOf pricing ctx).2.1) {env : CallEnv}
    (hnext : afterCheck s (some span) env.redisOk = some (.bill ctx)) :
    Settles s span (chargeOf pricing ctx).2.1 (handlePpuUsage s (some span) env) := by
  unfold handlePpuUsage
  rw [hnext]
  dsimp only
  obtain hraised | ⟨db, write, outcome, hcommitted⟩ := billUsage_of_priced hpricing hcost env.bill
  · rw [hraised]
    exact .inl ⟨_, rfl⟩
  · obtain ⟨-, pricing', hpricing', -, hcharge, -, -, -⟩ := billUsage_committed hcommitted
    obtain rfl := Option.some.inj (hpricing.symm.trans hpricing')
    rw [hcommitted]
    refine .inr (.inl ?_)
    dsimp only
    rw [(afterBilling_keeps ..).1, (afterBilling_keeps ..).2, ← hcharge,
      ← billingContext_billedKey hctx, ← billingContext_apiKeyId hctx]
    exact ⟨rfl, billUsage_budgetUsage hcommitted⟩

/-- A call that stops at the check returns and does nothing. -/
theorem handlePpuUsage_stopped {span : Span} {env : CallEnv}
    (hnext : afterCheck s (some span) env.redisOk = none) :
    handlePpuUsage s (some span) env = (.ok (), s) := by
  unfold handlePpuUsage
  rw [hnext]

/-- **Billing and the dedup lookup.** In any state a run of the consumer reaches, a call on
an inference span with a price settles it exactly when the span has a correlation id and
Redis answers the lookup, or the span was billed before. -/
theorem span_settled_iff {s₀ s : Consumer} {as : List Action} (hidle : ∀ h, s₀.handler h = none)
    (hunmarked : ∀ key, s₀.billed key = none) (hrun : Run step s₀ as s) {span : Span}
    {ctx : BillingContext} {pricing : ServicePricing} (hname : span.name = .aiInference)
    (hctx : billingContext span = some ctx) (hpricing : s.db.pricing ctx.serviceId = some pricing)
    (hcost : 0 < (chargeOf pricing ctx).2.1) (env : CallEnv) :
    Settles s span (chargeOf pricing ctx).2.1 (handlePpuUsage s (some span) env) ↔
      (span.correlationId ≠ "" ∧ env.redisOk = true) ∨ PreviouslyBilled s span := by
  have hmarked : Marked s := marked_run hidle hunmarked hrun
  have hafter := afterCheck_inference (s := s) hname hctx env.redisOk
  by_cases hopen : span.correlationId ≠ "" ∧ env.redisOk = true
  · refine iff_of_true ?_ (.inl hopen)
    obtain ⟨hcorrelation, hredis⟩ := hopen
    have hkey : span.billedKey ≠ "" := mt (billedKey_eq_empty_iff span).mp hcorrelation
    cases hbilled : s.isBilled span.billedKey with
    | true => exact .inr (.inr (hmarked.previouslyBilled hbilled))
    | false =>
      refine handlePpuUsage_settles hctx hpricing hcost ?_
      rw [hafter, if_neg (by simp [hkey, hredis, hbilled])]
  · have hclosed : afterCheck s (some span) env.redisOk = none := by
      rw [hafter, if_pos ?_]
      by_cases hcorrelation : span.correlationId = ""
      · simp [(billedKey_eq_empty_iff span).mpr hcorrelation]
      · have hredis : env.redisOk = false :=
          Bool.eq_false_iff.mpr fun heq => hopen ⟨hcorrelation, heq⟩
        simp [hredis]
    rw [handlePpuUsage_stopped hclosed]
    constructor
    · rintro (⟨e, he⟩ | ⟨hdebits, -⟩ | hbefore)
      · cases he
      · exact absurd hdebits (by simp)
      · exact .inr hbefore
    · rintro (hyes | hbefore)
      · exact absurd hyes hopen
      · exact .inr (.inr hbefore)

/-- A call in which everything goes well but, perhaps, the dedup lookup. -/
def callWith (redisOk : Bool) : CallEnv where
  redisOk := redisOk
  recordRaises := false
  bill := {}
  crossing := failingCrossing
  markOk := true
  notifyRaises := false

def sampleContext : BillingContext where
  tenantId := "1"
  serviceId := "asr"
  inputTokens := 10
  totalTokens := 10
  correlationId := "c1"
  spanId := "s1"
  billedKey := "ppu:billed:c1:s1"
  billingMonth := (1970, 1)
  apiKeyId := 7
  tierId := none
  outputTokens := 0
  cachedInputTokens := 0
  occurredAt := 0

theorem span_settled_iff_sample :
    Settles sampleConsumer sampleSpan 20
      (handlePpuUsage sampleConsumer (some sampleSpan) (callWith true)) := by
  have hcost : (chargeOf ⟨"asr", some 2, none, none, none, none⟩ sampleContext).2.1 = 20 := by
    decide +kernel
  have h := (span_settled_iff (fun _ => rfl) (fun _ => rfl) (Run.nil sampleConsumer)
    (show sampleSpan.name = .aiInference from rfl)
    (show billingContext sampleSpan = some sampleContext by decide +kernel) rfl
    (by rw [hcost]; norm_num) (callWith true)).mpr (.inl ⟨by decide, rfl⟩)
  rwa [hcost] at h

/-- With Redis down the call returns as if the span had been billed: no debit, no exception,
and no debit from before. -/
theorem span_unsettled :
    (chargeOf ⟨"asr", some 2, none, none, none, none⟩ sampleContext).2.1 = 20 ∧
      billingContext sampleSpan = some sampleContext ∧
      ¬ Settles sampleConsumer sampleSpan 20
        (handlePpuUsage sampleConsumer (some sampleSpan) (callWith false)) := by
  refine ⟨by decide +kernel, by decide +kernel, ?_⟩
  rintro (⟨e, he⟩ | ⟨hdebits, -⟩ | ⟨d, hd, -⟩)
  · cases he
  · cases hdebits
  · cases hd

end Ai4iCore.Billing
