import Ai4iCore.Base.Run
import Ai4iCore.Billing.Usage
import Ai4iCore.Kafka.Ledger

/-!
# The pay-per-use consumer

`handle_ppu_usage` (handler.py) under `_handle_with_retry` (main.py), as a step
system of any number of handlers over one database and one Redis. A handler's
effects are separate steps: the dedup check, the billing transaction, the
crossing events, the billed marker, the auth notification. Each may fail, and a
failure raises into `_handle_with_retry`, which tries the same message again
`MAX_ATTEMPTS` times — unless the code catches it first, which is what
`publishUsageCrossingEvents` models operation by operation.

`debits` is the only ghost: the committed debits, oldest first.
-/

namespace Ai4iCore.Billing

open StepSystem
open Ai4iCore.Kafka (NotificationName)

/-! ## After the commit: crossing events -/

/-- An exception of an I/O operation. -/
inductive IoError where
  | mk
  deriving DecidableEq, Repr

/-- `TenantBudgetStatus`, what `_budget_items` reads of it. -/
structure TenantBudgetStatus where
  used : ℚ
  snap : Option ℚ
  deriving DecidableEq

/-- The operations of `emit_band_batch` that can raise. -/
structure EmitEnv where
  /-- `cache.read` hands its errors back: is there a settings snapshot? -/
  settings : Bool
  /-- per item, `claim_band` and its commit: raised, lost or won -/
  claims : List (Except IoError Bool)
  /-- opening and closing the ledger session -/
  session : Except IoError Unit
  writeLedger : Except IoError Unit
  /-- the recipients lookup, and whether it found anyone -/
  recipients : Except IoError Bool
  send : Except IoError Unit

/-- What the environment does to the crossing events of one span. -/
structure CrossingEnv where
  configured : Bool
  /-- what `names_that_can_fire` returns for the budget pair -/
  budgetNames : List NotificationName
  tenantBudget : Except IoError (Option TenantBudgetStatus)
  emit : EmitEnv

/-- `percent`. -/
def percent (used snap : Option ℚ) : Option ℚ :=
  match used, snap with
  | some u, some s => if s = 0 then none else some (u / s * 100)
  | _, _ => none

/-- `_budget_items`: a failing budget read is caught, "the span is already
committed, and a raise here would retry (and re-bill) it". -/
def budgetItems (env : CrossingEnv) : Except IoError (List NotificationName) :=
  if env.budgetNames.isEmpty then .ok []
  else
    tryCatch
      (do
        let budget ← env.tenantBudget
        match budget with
        | none => return []
        | some b => return if (percent (some b.used) b.snap).isSome then env.budgetNames else [])
      fun _ => return []

/-- `_quota_items`. -/
def quotaItems (write : BillingWriteResult) (inferenceName : String) :
    List NotificationName :=
  if write.quotaRecorded ∧ inferenceName ≠ "" ∧
      (percent write.quotaUsed write.quotaSnap).isSome then
    [.quotaThreshold, .quotaExhausted]
  else []

/-- The exceptions of `emit_band_batch`: every claim is in its own `try`, the
ledger session, the cache write, the recipients lookup and the send each in
one. Returns what it announced. -/
def emitBandBatch (env : EmitEnv) (items : List NotificationName) :
    Except IoError (List NotificationName) := do
  if items.isEmpty || !env.settings then return []
  let fired := (items.zip env.claims).filterMap fun
    | (name, .ok true) => some name
    | (_, .ok false) => none
    | (_, .error _) => none
  tryCatch env.session fun _ => return ()
  tryCatch env.writeLedger fun _ => return ()
  let someone ← tryCatch env.recipients fun _ => return false
  if !someone then return []
  let sent ← tryCatch (env.send.map fun _ => true) fun _ => return false
  return if sent then fired else []

/-- `_publish_usage_crossing_events`. -/
def publishUsageCrossingEvents (env : CrossingEnv) (write : BillingWriteResult)
    (inferenceName : String) : Except IoError (List NotificationName) := do
  if !env.configured then return []
  let budget ← budgetItems env
  let items := budget ++ quotaItems write inferenceName
  if items.isEmpty then return []
  emitBandBatch env.emit items

/-- Catching leaves no exception. -/
theorem tryCatch_ok {α : Type} (x : Except IoError α) (a : α) :
    ∃ b, (tryCatch x fun _ => .ok a : Except IoError α) = .ok b := by
  cases x with
  | ok b => exact ⟨b, rfl⟩
  | error e => exact ⟨a, rfl⟩

theorem budgetItems_ok (env : CrossingEnv) : ∃ l, budgetItems env = .ok l := by
  unfold budgetItems
  split
  · exact ⟨[], rfl⟩
  · exact tryCatch_ok _ _

theorem emitBandBatch_ok (env : EmitEnv) (items : List NotificationName) :
    ∃ l, emitBandBatch env items = .ok l := by
  obtain ⟨_, hsession⟩ := tryCatch_ok env.session ()
  obtain ⟨_, hwrite⟩ := tryCatch_ok env.writeLedger ()
  obtain ⟨someone, hsomeone⟩ := tryCatch_ok env.recipients false
  obtain ⟨sent, hsent⟩ := tryCatch_ok (env.send.map fun _ => true) false
  unfold emitBandBatch
  simp only [pure, Except.pure, bind, Except.bind] at *
  rw [hsession, hwrite, hsomeone, hsent]
  cases someone <;> (split <;> exact ⟨_, rfl⟩)

/-- The crossing events raise nothing into billing, whatever fails in them. -/
theorem publishUsageCrossingEvents_ok (env : CrossingEnv) (write : BillingWriteResult)
    (inferenceName : String) : ∃ l, publishUsageCrossingEvents env write inferenceName = .ok l := by
  obtain ⟨budget, hbudget⟩ := budgetItems_ok env
  unfold publishUsageCrossingEvents
  simp only [pure, Except.pure, bind, Except.bind]
  rw [hbudget]
  split
  · exact ⟨_, rfl⟩
  · dsimp only
    split
    · exact ⟨_, rfl⟩
    · exact emitBandBatch_ok _ _

/-! ## Requests and notifications -/

/-- `_COUNTED_PATH.fullmatch`. -/
def countedPath (path : String) : Bool :=
  path = "/api/v1/chat" || path = "/api/v1/chat/completions" ||
    (path.endsWith "/inference" && !path.any (· = '\n'))

/-- `_record_request`: the usage row of a request span. `none` when it raised. -/
def recordRequest (db : Db) (span : Span) (raises insertOk : Bool) : Option Db :=
  if span.authType ≠ "api_key" || !countedPath span.url then some db
  else if span.correlationId = "" || span.tenantId = "" || span.statusCode.isNone then some db
  else if raises then none
  else some (recordUsageEvent db
    { correlationId := span.correlationId, occurredAt := span.endTime
      apiKeyId := if 0 < span.apiKeyId then some span.apiKeyId else none
      statusCode := span.statusCode, totalUnits := 0, cachedInputUnits := 0, outputUnits := 0
      inputUnitsCost := 0, cachedInputUnitsCost := 0, outputUnitsCost := 0 } insertOk)

theorem recordRequest_budgetUsage {db db' : Db} {span : Span} {raises insertOk : Bool}
    (h : recordRequest db span raises insertOk = some db') :
    db'.budgetUsage = db.budgetUsage := by
  unfold recordRequest at h
  split at h
  · cases h
    rfl
  · split at h
    · cases h
      rfl
    · split at h
      · cases h
      · cases h
        exact recordUsageEvent_budgetUsage ..

/-- A call of `_notify_auth`. -/
inductive AuthCall where
  | budgetExhausted (apiKeyId : Int)
  | quotaExhausted (tenantId inferenceName : String)
  deriving DecidableEq, Repr

/-- `_post_billing`: whom it notifies. -/
def postBilling (outcome : BillingOutcome) (tenantId : String) (apiKeyId : Int) :
    List AuthCall :=
  (if outcome.walletExhausted ∧ apiKeyId ≠ 0 then [.budgetExhausted apiKeyId] else []) ++
    if outcome.quotaExhausted then [.quotaExhausted tenantId outcome.pricing.taskType] else []

/-! ## The system -/

/-- `MAX_ATTEMPTS`. -/
def maxAttempts : Nat := 3

/-- `BILLED_KEY_TTL`, in seconds. -/
def billedKeyTtl : Int := 3600

/-- Where a handler stands. -/
inductive Phase where
  /-- `handle_ppu_usage` is called; the dedup check is next -/
  | check
  /-- a request span: its usage row is next -/
  | record (span : Span)
  /-- the billing transaction is next -/
  | bill (ctx : BillingContext)
  /-- the debit is committed; the crossing events are next -/
  | publish (ctx : BillingContext) (write : BillingWriteResult) (outcome : BillingOutcome)
  /-- the billed marker is next -/
  | mark (ctx : BillingContext) (outcome : BillingOutcome)
  /-- the auth notification is next -/
  | notify (ctx : BillingContext) (outcome : BillingOutcome)
  /-- it raised, and waits for its next attempt -/
  | sleeping

/-- The debit is committed and the billed key not yet written. -/
def Phase.afterCommit : Phase → Bool
  | .publish _ _ _ => true
  | .mark _ _ => true
  | _ => false

/-- A run of `_handle_with_retry` on one message; `none` is a message with no span
to handle. -/
structure Handler where
  msg : Option Span
  attempt : Nat
  phase : Phase

/-- The billed key of a message. -/
def billedKeyOf (msg : Option Span) : String :=
  match msg with
  | some span => span.billedKey
  | none => ""

/-- A committed debit. -/
structure Debit where
  billedKey : String
  apiKeyId : Int
  cost : ℚ
  deriving DecidableEq

structure Consumer where
  db : Db
  /-- the dedup keys in Redis, with the instant each expires -/
  billed : String → Option Int
  /-- seconds -/
  clock : Int
  handler : Nat → Option Handler
  authCalls : List AuthCall
  debits : List Debit

inductive Action where
  | deliver (h : Nat) (msg : Option Span)
  | check (h : Nat) (redisOk : Bool)
  | record (h : Nat) (raises insertOk : Bool)
  | bill (h : Nat) (env : BillEnv)
  | publish (h : Nat) (env : CrossingEnv)
  | mark (h : Nat) (redisOk : Bool)
  | notify (h : Nat) (raises : Bool)
  | retry (h : Nat)
  /-- the process dies (`killed`), or it loses its database session and raises -/
  | lose (h : Nat) (killed : Bool)
  | tick (d : Nat)

def Consumer.setHandler (s : Consumer) (h : Nat) (o : Option Handler) : Consumer :=
  { s with handler := Function.update s.handler h o }

/-- `_handle_with_retry` on an exception: sleep, or give up and drop the message. -/
def afterRaise (hd : Handler) : Option Handler :=
  if hd.attempt < maxAttempts then some { hd with phase := .sleeping } else none

/-- `redis.exists(billed_key)`. -/
def Consumer.isBilled (s : Consumer) (key : String) : Bool :=
  match s.billed key with
  | some expiry => s.clock < expiry
  | none => false

/-- What follows the dedup check; `none` when the handler returns. -/
def afterCheck (s : Consumer) (msg : Option Span) (redisOk : Bool) : Option Phase :=
  match msg with
  | none => none
  | some span =>
    match span.name with
    | .request => some (.record span)
    | .aiInference =>
      -- without a key, or with Redis failing, the check gives `None` and nothing is billed
      if span.billedKey = "" || !redisOk || s.isBilled span.billedKey then none
      else (billingContext span).map .bill

/-- One step of handler `h`, which stands at `hd`. -/
def handlerStep (s : Consumer) (h : Nat) (hd : Handler) : Phase → Action → Option Consumer
  | .check, .check _ redisOk =>
    some (s.setHandler h ((afterCheck s hd.msg redisOk).map fun phase => { hd with phase }))
  | .record span, .record _ raises insertOk =>
    match recordRequest s.db span raises insertOk with
    | some db => some ({ s with db }.setHandler h none)
    | none => some (s.setHandler h (afterRaise hd))
  | .bill ctx, .bill _ env =>
    match billUsage s.db ctx env with
    | .raised => some (s.setHandler h (afterRaise hd))
    | .skipped => some (s.setHandler h none)
    | .committed db write outcome =>
      let debits := s.debits ++ [Debit.mk ctx.billedKey ctx.apiKeyId outcome.cost]
      some ({ s with db, debits }.setHandler h
        (some { hd with phase := .publish ctx write outcome }))
  | .publish ctx write outcome, .publish _ env =>
    match publishUsageCrossingEvents env write outcome.pricing.taskType with
    | .ok _ => some (s.setHandler h (some { hd with phase := .mark ctx outcome }))
    | .error _ => some (s.setHandler h (afterRaise hd))
  | .mark ctx outcome, .mark _ redisOk =>
    let billed := if redisOk then
        Function.update s.billed ctx.billedKey (some (s.clock + billedKeyTtl)) else s.billed
    some ({ s with billed }.setHandler h (some { hd with phase := .notify ctx outcome }))
  | .notify ctx outcome, .notify _ raises =>
    if raises then some (s.setHandler h (afterRaise hd))
    else some ({ s with
      authCalls := s.authCalls ++ postBilling outcome ctx.tenantId ctx.apiKeyId }.setHandler h none)
  | .sleeping, .retry _ =>
    some (s.setHandler h (some { hd with attempt := hd.attempt + 1, phase := .check }))
  | _, .lose _ killed => some (s.setHandler h (if killed then none else afterRaise hd))
  | _, _ => none

/-- The handler an action is about. -/
def Action.target : Action → Option Nat
  | .deliver h _ => some h
  | .check h _ => some h
  | .record h _ _ => some h
  | .bill h _ => some h
  | .publish h _ => some h
  | .mark h _ => some h
  | .notify h _ => some h
  | .retry h => some h
  | .lose h _ => some h
  | .tick _ => none

/-- One step of the system. -/
def step (s : Consumer) (a : Action) : Option Consumer :=
  match a with
  | .deliver h msg =>
    match s.handler h with
    | none => some (s.setHandler h (some ⟨msg, 1, .check⟩))
    | some _ => none
  | .tick d => some { s with clock := s.clock + d }
  | a =>
    match a.target with
    | some h =>
      match s.handler h with
      | some hd => handlerStep s h hd hd.phase a
      | none => none
    | none => none

/-! ## What a step can do -/

/-- One constructor for each way a step goes. The crossing events do not raise. -/
inductive Moved (s : Consumer) : Action → Consumer → Prop
  | delivered {h : Nat} {msg : Option Span} (hh : s.handler h = none) :
    Moved s (.deliver h msg) (s.setHandler h (some ⟨msg, 1, .check⟩))
  | ticked {d : Nat} : Moved s (.tick d) { s with clock := s.clock + d }
  | checked {h : Nat} {hd : Handler} {redisOk : Bool} (hh : s.handler h = some hd)
      (hphase : hd.phase = .check) :
    Moved s (.check h redisOk)
      (s.setHandler h ((afterCheck s hd.msg redisOk).map fun phase => { hd with phase }))
  | recorded {h : Nat} {hd : Handler} {span : Span} {raises insertOk : Bool} {db : Db}
      (hh : s.handler h = some hd) (hphase : hd.phase = .record span)
      (hdb : recordRequest s.db span raises insertOk = some db) :
    Moved s (.record h raises insertOk) ({ s with db }.setHandler h none)
  | recordRaised {h : Nat} {hd : Handler} {span : Span} {raises insertOk : Bool}
      (hh : s.handler h = some hd) (hphase : hd.phase = .record span) :
    Moved s (.record h raises insertOk) (s.setHandler h (afterRaise hd))
  | billRaised {h : Nat} {hd : Handler} {ctx : BillingContext} {env : BillEnv}
      (hh : s.handler h = some hd) (hphase : hd.phase = .bill ctx) :
    Moved s (.bill h env) (s.setHandler h (afterRaise hd))
  | billSkipped {h : Nat} {hd : Handler} {ctx : BillingContext} {env : BillEnv}
      (hh : s.handler h = some hd) (hphase : hd.phase = .bill ctx) :
    Moved s (.bill h env) (s.setHandler h none)
  | billed {h : Nat} {hd : Handler} {ctx : BillingContext} {env : BillEnv} {db : Db}
      {write : BillingWriteResult} {outcome : BillingOutcome} (hh : s.handler h = some hd)
      (hphase : hd.phase = .bill ctx) (hbill : billUsage s.db ctx env = .committed db write outcome) :
    Moved s (.bill h env)
      ({ s with db, debits := s.debits ++
          [Debit.mk ctx.billedKey ctx.apiKeyId outcome.cost] }.setHandler h
        (some { hd with phase := .publish ctx write outcome }))
  | published {h : Nat} {hd : Handler} {ctx : BillingContext} {write : BillingWriteResult}
      {outcome : BillingOutcome} {env : CrossingEnv} (hh : s.handler h = some hd)
      (hphase : hd.phase = .publish ctx write outcome) :
    Moved s (.publish h env) (s.setHandler h (some { hd with phase := .mark ctx outcome }))
  | marked {h : Nat} {hd : Handler} {ctx : BillingContext} {outcome : BillingOutcome}
      {redisOk : Bool} (hh : s.handler h = some hd) (hphase : hd.phase = .mark ctx outcome) :
    Moved s (.mark h redisOk)
      ({ s with billed := if redisOk then
          Function.update s.billed ctx.billedKey (some (s.clock + billedKeyTtl))
          else s.billed }.setHandler h (some { hd with phase := .notify ctx outcome }))
  | notifyRaised {h : Nat} {hd : Handler} {ctx : BillingContext} {outcome : BillingOutcome}
      {raises : Bool} (hh : s.handler h = some hd) (hphase : hd.phase = .notify ctx outcome) :
    Moved s (.notify h raises) (s.setHandler h (afterRaise hd))
  | notified {h : Nat} {hd : Handler} {ctx : BillingContext} {outcome : BillingOutcome}
      {raises : Bool} (hh : s.handler h = some hd) (hphase : hd.phase = .notify ctx outcome) :
    Moved s (.notify h raises)
      ({ s with authCalls := s.authCalls ++ postBilling outcome ctx.tenantId ctx.apiKeyId
          }.setHandler h none)
  | retried {h : Nat} {hd : Handler} (hh : s.handler h = some hd) (hphase : hd.phase = .sleeping) :
    Moved s (.retry h)
      (s.setHandler h (some { hd with attempt := hd.attempt + 1, phase := .check }))
  | lost {h : Nat} {hd : Handler} {killed : Bool} (hh : s.handler h = some hd) :
    Moved s (.lose h killed) (s.setHandler h (if killed then none else afterRaise hd))

theorem handlerStep_moved {s s' : Consumer} {h : Nat} {hd : Handler} {a : Action}
    (hh : s.handler h = some hd) (htarget : a.target = some h)
    (hstep : handlerStep s h hd hd.phase a = some s') : Moved s a s' := by
  unfold handlerStep at hstep
  split at hstep
  · rename_i hphase
    obtain rfl := Option.some.inj htarget
    cases hstep
    exact .checked hh hphase
  · rename_i hphase
    obtain rfl := Option.some.inj htarget
    split at hstep
    · rename_i hdb
      cases hstep
      exact .recorded hh hphase hdb
    · cases hstep
      exact .recordRaised hh hphase
  · rename_i hphase
    obtain rfl := Option.some.inj htarget
    split at hstep
    · cases hstep
      exact .billRaised hh hphase
    · cases hstep
      exact .billSkipped hh hphase
    · rename_i hbill
      cases hstep
      exact .billed hh hphase hbill
  · rename_i write outcome _ env hphase
    obtain rfl := Option.some.inj htarget
    obtain ⟨_, hok⟩ := publishUsageCrossingEvents_ok env write outcome.pricing.taskType
    rw [hok] at hstep
    cases hstep
    exact .published hh hphase
  · rename_i hphase
    obtain rfl := Option.some.inj htarget
    cases hstep
    exact .marked hh hphase
  · rename_i hphase
    obtain rfl := Option.some.inj htarget
    split at hstep
    · cases hstep
      exact .notifyRaised hh hphase
    · cases hstep
      exact .notified hh hphase
  · rename_i hphase
    obtain rfl := Option.some.inj htarget
    cases hstep
    exact .retried hh hphase
  · obtain rfl := Option.some.inj htarget
    cases hstep
    exact .lost hh
  · cases hstep

theorem step_moved {s s' : Consumer} {a : Action} (hstep : step s a = some s') : Moved s a s' := by
  unfold step at hstep
  split at hstep
  · split at hstep
    · rename_i hh
      cases hstep
      exact .delivered hh
    · cases hstep
  · cases hstep
    exact .ticked
  · split at hstep
    · rename_i h htarget
      split at hstep
      · rename_i hd hh
        exact handlerStep_moved hh htarget hstep
      · cases hstep
    · cases hstep

/-- A step leaves every handler but its own alone. -/
theorem step_handler_frame {s s' : Consumer} {a : Action} (hstep : step s a = some s') {h : Nat}
    (hne : a.target ≠ some h) : s'.handler h = s.handler h := by
  have hset : ∀ {s : Consumer} {h' : Nat} {o : Option Handler}, some h' ≠ some h →
      (s.setHandler h' o).handler h = s.handler h := by
    intro s h' o hne
    exact Function.update_of_ne (fun heq => hne (congrArg some heq.symm)) _ _
  cases step_moved hstep with
  | ticked => rfl
  | _ => exact hset hne

end Ai4iCore.Billing
