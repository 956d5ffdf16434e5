import Mathlib.Data.Rat.Defs
import Mathlib.Algebra.Order.Field.Rat
import Mathlib.Algebra.Order.Ring.Unbundled.Rat
import Mathlib.Logic.Function.Basic
import Ai4iCore.Base.Rounding

/-!
# Billing one span

The pure core of the pay-per-use consumer (`handler.py`, `_billing.py`): what a
span says (`Span`), what it costs (`calculateCost`, `calculateLlmCost`), the
fused budget and quota statement (`deductBalanceAndUpdateQuota`) and the billing
transaction `billUsage` that commits it together with the usage row.

Amounts are `Decimal`s and are rationals here, rounded where a column keeps fewer
places: `api_key_budget_used` two, the costs of `usage_events` six. The pricing and
inference-type lookups read Redis before the database and are one read of the catalogue.
Every statement of the transaction may raise, and the commit may fail
(`BillEnv`); a raise rolls the transaction back.
-/

namespace Ai4iCore.Billing

/-! ## Spans and pricing -/

/-- The span names `_get_billing_data` lets through. -/
inductive SpanName where
  | aiInference | request
  deriving DecidableEq, Repr

/-- A span as `_get_otel_attributes` and `_prepare_billing_context` read it: text
attributes stripped, numbers parsed with their fallback 0. -/
structure Span where
  name : SpanName
  spanId : String
  correlationId : String
  tenantId : String
  serviceId : String
  inputTokens : ℚ
  outputTokens : ℚ
  cachedInputTokens : ℚ
  apiKeyId : Int
  tierId : Option String
  authType : String
  /-- `end_time`, in microseconds -/
  endTime : Int
  url : String
  statusCode : Option Nat
  deriving DecidableEq

/-- `ServicePricing`. -/
structure ServicePricing where
  taskType : String
  unitRate : Option ℚ
  costPerUnit : Option ℚ
  unitSize : Option Nat
  cachedInputCostPerUnit : Option ℚ
  outputCostPerUnit : Option ℚ
  deriving DecidableEq

/-- `LlmCost`. -/
structure LlmCost where
  inputCost : ℚ
  cachedInputCost : ℚ
  outputCost : ℚ
  deriving DecidableEq

def LlmCost.total (c : LlmCost) : ℚ := c.inputCost + c.cachedInputCost + c.outputCost

/-- Python's `x or y` on an optional number: 0 is falsy. -/
def orElse (x : Option ℚ) (y : Option ℚ) : Option ℚ :=
  match x with
  | some v => if v = 0 then y else some v
  | none => y

/-- `_per_unit_rate`. -/
def perUnitRate (price : Option ℚ) (pricing : ServicePricing) : Option ℚ :=
  match price, pricing.unitSize with
  | some p, some n => if n = 0 then none else some (p / n)
  | _, _ => none

/-- `calculate_llm_cost`: each token in one category, a missing cached or output
price falling back to the input price. -/
def calculateLlmCost (inputTokens cachedInputTokens outputTokens : ℚ)
    (pricing : ServicePricing) : LlmCost :=
  let cached := min (max cachedInputTokens 0) inputTokens
  let uncached := inputTokens - cached
  let inputRate := (orElse (orElse pricing.unitRate (perUnitRate pricing.costPerUnit pricing))
    (some 0)).getD 0
  let cachedRate := perUnitRate pricing.cachedInputCostPerUnit pricing
  let outputRate := perUnitRate pricing.outputCostPerUnit pricing
  { inputCost := uncached * inputRate
    cachedInputCost := cached * cachedRate.getD inputRate
    outputCost := outputTokens * outputRate.getD inputRate }

/-- `calculate_cost`. -/
def calculateCost (totalUnits : ℚ) (pricing : ServicePricing) : ℚ :=
  match orElse pricing.unitRate none with
  | some rate => totalUnits * rate
  | none =>
    match orElse pricing.costPerUnit none, pricing.unitSize with
    | some cost, some n => if n = 0 then 0 else totalUnits / n * cost
    | _, _ => 0

/-! ## The billing context -/

/-- `BILLED_KEY_PREFIX`. -/
def billedKeyPrefix : String := "ppu:billed:"

/-- `_get_billed_key`. -/
def getBilledKey (correlationId spanId : String) : String :=
  if correlationId = "" then "" else billedKeyPrefix ++ correlationId ++ ":" ++ spanId

/-- The billed key of a span. -/
def Span.billedKey (span : Span) : String := getBilledKey span.correlationId span.spanId

/-- Year and month of a day count since 1970-01-01 (proleptic Gregorian). -/
def civilMonth (days : Int) : Int × Int :=
  let z := days + 719468
  let era := z / 146097
  let doe := z - era * 146097
  let yoe := (doe - doe / 1460 + doe / 36524 - doe / 146096) / 365
  let doy := doe - (365 * yoe + yoe / 4 - yoe / 100)
  let mp := (5 * doy + 2) / 153
  let month := if mp < 10 then mp + 3 else mp - 9
  (yoe + era * 400 + (if month ≤ 2 then 1 else 0), month)

/-- `occurred_at.strftime("%Y-%m")`. -/
def billingMonth (occurredAt : Int) : Int × Int := civilMonth (occurredAt / 86400000000)

/-- `BillingContext`. -/
structure BillingContext where
  tenantId : String
  serviceId : String
  inputTokens : ℚ
  totalTokens : ℚ
  correlationId : String
  spanId : String
  billedKey : String
  billingMonth : Int × Int
  apiKeyId : Int
  tierId : Option String
  outputTokens : ℚ
  cachedInputTokens : ℚ
  occurredAt : Int
  deriving DecidableEq

/-- `_prepare_billing_context` after its dedup check: the context, or `none` for a
span that is skipped for good. -/
def billingContext (span : Span) : Option BillingContext :=
  let totalTokens := span.inputTokens + span.outputTokens
  if span.authType ≠ "" ∧ span.authType ≠ "api_key" then none
  else if span.tenantId = "" ∨ span.serviceId = "" ∨ totalTokens = 0 then none
  else some
    { tenantId := span.tenantId, serviceId := span.serviceId
      inputTokens := span.inputTokens, totalTokens
      correlationId := span.correlationId, spanId := span.spanId
      billedKey := span.billedKey, billingMonth := billingMonth span.endTime
      apiKeyId := span.apiKeyId, tierId := span.tierId
      outputTokens := span.outputTokens, cachedInputTokens := span.cachedInputTokens
      occurredAt := span.endTime }

theorem billingContext_billedKey {span : Span} {ctx : BillingContext}
    (h : billingContext span = some ctx) : ctx.billedKey = span.billedKey := by
  unfold billingContext at h
  dsimp only at h
  split at h
  · cases h
  · split at h
    · cases h
    · cases h
      rfl

/-! ## The tables -/

/-- A row of `budget_usage`. -/
structure BudgetUsage where
  used : ℚ
  snap : Option ℚ
  deriving DecidableEq

/-- The key of a `quota_usage` row. -/
structure QuotaKey where
  tenantId : String
  inferenceTypeId : Nat
  billingMonth : Int × Int
  tierId : String
  deriving DecidableEq

/-- A row of `quota_usage`. -/
structure QuotaUsage where
  used : ℚ
  snap : ℚ
  deriving DecidableEq

/-- `UsageEvent`: what a row of `usage_events` is written from, by its key and what it
charges. -/
structure UsageEvent where
  correlationId : String
  occurredAt : Int
  apiKeyId : Option Int
  statusCode : Option Nat
  totalUnits : ℚ
  cachedInputUnits : ℚ
  outputUnits : ℚ
  inputUnitsCost : ℚ
  cachedInputUnitsCost : ℚ
  outputUnitsCost : ℚ
  deriving DecidableEq

/-- `MONEY`, `NUMERIC(18, 6)`. -/
def money (amount : ℚ) : ℚ := Rounding.toScale 6 amount

/-- A row of `usage_events`. -/
structure UsageRow extends UsageEvent where
  totalCost : ℚ
  deriving DecidableEq

/-- The row an event is stored as: each cost at the scale of its column, and `total_cost`
generated from what is stored. -/
def UsageEvent.stored (event : UsageEvent) : UsageRow where
  toUsageEvent := { event with
    inputUnitsCost := money event.inputUnitsCost
    cachedInputUnitsCost := money event.cachedInputUnitsCost
    outputUnitsCost := money event.outputUnitsCost }
  totalCost := money (money event.inputUnitsCost + money event.cachedInputUnitsCost +
    money event.outputUnitsCost)

/-- The consumer's database: the catalogue it reads and the tables it writes. -/
structure Db where
  pricing : String → Option ServicePricing
  inferenceTypes : String → Option Nat
  tierQuotas : String → Nat → Option ℚ
  budgetUsage : Int → Option BudgetUsage
  quotaUsage : QuotaKey → Option QuotaUsage
  usageEvents : List UsageRow

/-- `BillingWriteResult`. -/
structure BillingWriteResult where
  apiKeyBudgetUsed : ℚ
  apiKeyBudgetSnap : Option ℚ
  tierId : Option String
  budgetExhausted : Bool
  quotaRecorded : Bool
  quotaExhausted : Bool
  quotaUsed : Option ℚ
  quotaSnap : Option ℚ
  deriving DecidableEq

/-- `api_key_budget_used + :cost`, at the two decimal places of the column. -/
def debited (used cost : ℚ) : ℚ := Rounding.toScale 2 (used + cost)

/-- The `budget_update` part of the statement: add the cost to the key's row. -/
def Db.debit (db : Db) (apiKeyId : Int) (cost : ℚ) : Db :=
  match db.budgetUsage apiKeyId with
  | some row =>
    let row' := { row with used := debited row.used cost }
    { db with budgetUsage := Function.update db.budgetUsage apiKeyId (some row') }
  | none => db

/-- The `quota_upsert` part: insert or add, when the tier has a quota of the type. -/
def Db.upsertQuota (db : Db) (tenantId : String) (month : Int × Int) (units : ℚ)
    (tierId : Option String) (inferenceTypeId : Option Nat) : Db × Option QuotaUsage :=
  match tierId, inferenceTypeId with
  | some tier, some type =>
    match db.tierQuotas tier type with
    | some quota =>
      let key : QuotaKey := ⟨tenantId, type, month, tier⟩
      let row : QuotaUsage :=
        match db.quotaUsage key with
        | some row => { row with used := row.used + units }
        | none => ⟨units, quota⟩
      ({ db with quotaUsage := Function.update db.quotaUsage key (some row) }, some row)
    | none => (db, none)
  | _, _ => (db, none)

/-- `deduct_balance_and_update_quota`. -/
def deductBalanceAndUpdateQuota (db : Db) (tenantId : String) (month : Int × Int)
    (units cost : ℚ) (apiKeyId : Int) (tierId : Option String)
    (inferenceTypeId : Option Nat) : Db × BillingWriteResult :=
  let db₁ := db.debit apiKeyId cost
  let budget := db₁.budgetUsage apiKeyId
  let (db₂, quota) := db₁.upsertQuota tenantId month units tierId inferenceTypeId
  let used := (budget.map BudgetUsage.used).getD 0
  let snap := budget.bind BudgetUsage.snap
  let quotaExhausted : Bool := match quota with
    | some q => q.snap ≤ q.used
    | none => true
  (db₂,
    { apiKeyBudgetUsed := used, apiKeyBudgetSnap := snap, tierId
      budgetExhausted := match snap with
        | some s => s ≤ used
        | none => false
      quotaRecorded := quota.isSome, quotaExhausted
      quotaUsed := quota.map QuotaUsage.used, quotaSnap := quota.map QuotaUsage.snap })

/-- `_INSERT_USAGE_EVENT`: nothing on a conflict of (correlation_id, occurred_at). -/
def Db.insertUsageEvent (db : Db) (event : UsageEvent) : Db :=
  if db.usageEvents.any (fun e => e.correlationId = event.correlationId ∧
      e.occurredAt = event.occurredAt) then db
  else { db with usageEvents := db.usageEvents ++ [event.stored] }

/-- `record_usage_event`: inside a savepoint, and never raising. -/
def recordUsageEvent (db : Db) (event : UsageEvent) (insertOk : Bool) : Db :=
  if insertOk then db.insertUsageEvent event else db

/-! ## The billing transaction -/

/-- `BillingOutcome`. -/
structure BillingOutcome where
  pricing : ServicePricing
  billedUnits : ℚ
  cost : ℚ
  walletExhausted : Bool
  quotaExhausted : Bool
  deriving DecidableEq

/-- What the environment does to one billing transaction. -/
structure BillEnv where
  pricingRaises : Bool := false
  typeRaises : Bool := false
  deductRaises : Bool := false
  insertOk : Bool := true
  commitRaises : Bool := false
  deriving DecidableEq

/-- Something the transaction waits for raises. -/
def BillEnv.raises (env : BillEnv) : Bool :=
  env.pricingRaises || env.typeRaises || env.deductRaises || env.commitRaises

/-- `_usage_event`. -/
def usageEvent (ctx : BillingContext) (billedUnits cost : ℚ) (llmCost : Option LlmCost) :
    UsageEvent :=
  let apiKeyId := if ctx.apiKeyId = 0 then none else some ctx.apiKeyId
  match llmCost with
  | some c =>
    { correlationId := ctx.correlationId, occurredAt := ctx.occurredAt, apiKeyId
      statusCode := none, totalUnits := billedUnits
      cachedInputUnits := min (max ctx.cachedInputTokens 0) ctx.inputTokens
      outputUnits := ctx.outputTokens, inputUnitsCost := c.inputCost
      cachedInputUnitsCost := c.cachedInputCost, outputUnitsCost := c.outputCost }
  | none =>
    { correlationId := ctx.correlationId, occurredAt := ctx.occurredAt, apiKeyId
      statusCode := none, totalUnits := billedUnits, cachedInputUnits := 0
      outputUnits := 0, inputUnitsCost := cost, cachedInputUnitsCost := 0
      outputUnitsCost := 0 }

/-- What a span is charged: its units, its cost, and the LLM split. Only LLM bills
on output too. -/
def chargeOf (pricing : ServicePricing) (ctx : BillingContext) :
    ℚ × ℚ × Option LlmCost :=
  if pricing.taskType.toLower = "llm" then
    let c := calculateLlmCost ctx.inputTokens ctx.cachedInputTokens ctx.outputTokens pricing
    (ctx.totalTokens, c.total, some c)
  else (ctx.inputTokens, calculateCost ctx.inputTokens pricing, none)

/-- The event of a span that is charged. -/
def chargedEvent (pricing : ServicePricing) (ctx : BillingContext) : UsageEvent :=
  let (billedUnits, cost, llmCost) := chargeOf pricing ctx
  usageEvent ctx billedUnits cost llmCost

/-- The flags of `_bill_usage`'s outcome, from what the statement returned. -/
def exhaustionOf (pricing : ServicePricing) (inferenceTypeId : Option Nat)
    (write : BillingWriteResult) : Bool × Bool :=
  if write.tierId.isNone then (false, true)
  else if pricing.taskType = "" ∨ inferenceTypeId.isNone then (write.budgetExhausted, false)
  else (write.budgetExhausted, write.quotaExhausted)

/-- How `_bill_usage` ends, up to its commit. -/
inductive BillResult where
  /-- it raised, and the transaction was rolled back -/
  | raised
  /-- it returned `None`: no pricing, or a cost of zero -/
  | skipped
  /-- it committed -/
  | committed (db : Db) (write : BillingWriteResult) (outcome : BillingOutcome)

/-- `_bill_usage`, up to and including its commit. -/
def billUsage (db : Db) (ctx : BillingContext) (env : BillEnv) : BillResult :=
  if env.pricingRaises then .raised
  else
    match db.pricing ctx.serviceId with
    | none => .skipped
    | some pricing =>
      let (billedUnits, cost, llmCost) := chargeOf pricing ctx
      if cost = 0 then .skipped
      else if env.typeRaises then .raised
      else
        let inferenceTypeId := db.inferenceTypes pricing.taskType
        if env.deductRaises then .raised
        else
          let (db₁, write) := deductBalanceAndUpdateQuota db ctx.tenantId ctx.billingMonth
            billedUnits cost ctx.apiKeyId ctx.tierId inferenceTypeId
          let db₂ := recordUsageEvent db₁ (usageEvent ctx billedUnits cost llmCost) env.insertOk
          let (walletExhausted, quotaExhausted) := exhaustionOf pricing inferenceTypeId write
          if env.commitRaises then .raised
          else .committed db₂ write
            { pricing, billedUnits, cost, walletExhausted, quotaExhausted }

/-! ## What a committed transaction did to the budget -/

theorem upsertQuota_budgetUsage (db : Db) (tenantId : String) (month : Int × Int) (units : ℚ)
    (tierId : Option String) (inferenceTypeId : Option Nat) :
    (db.upsertQuota tenantId month units tierId inferenceTypeId).1.budgetUsage
      = db.budgetUsage := by
  unfold Db.upsertQuota
  split
  · split <;> rfl
  · rfl

theorem upsertQuota_usageEvents (db : Db) (tenantId : String) (month : Int × Int) (units : ℚ)
    (tierId : Option String) (inferenceTypeId : Option Nat) :
    (db.upsertQuota tenantId month units tierId inferenceTypeId).1.usageEvents
      = db.usageEvents := by
  unfold Db.upsertQuota
  split
  · split <;> rfl
  · rfl

theorem recordUsageEvent_budgetUsage (db : Db) (event : UsageEvent) (insertOk : Bool) :
    (recordUsageEvent db event insertOk).budgetUsage = db.budgetUsage := by
  unfold recordUsageEvent Db.insertUsageEvent
  split
  · split <;> rfl
  · rfl

/-- A committed transaction, taken apart. -/
theorem billUsage_committed {db db' : Db} {ctx : BillingContext} {env : BillEnv}
    {write : BillingWriteResult} {outcome : BillingOutcome}
    (h : billUsage db ctx env = .committed db' write outcome) :
    env.raises = false ∧ ∃ pricing, db.pricing ctx.serviceId = some pricing ∧
      outcome.pricing = pricing ∧ outcome.cost = (chargeOf pricing ctx).2.1 ∧
      db' = recordUsageEvent (deductBalanceAndUpdateQuota db ctx.tenantId
        ctx.billingMonth outcome.billedUnits outcome.cost ctx.apiKeyId ctx.tierId
        (db.inferenceTypes pricing.taskType)).1 (chargedEvent pricing ctx) env.insertOk ∧
      write = (deductBalanceAndUpdateQuota db ctx.tenantId ctx.billingMonth outcome.billedUnits
        outcome.cost ctx.apiKeyId ctx.tierId (db.inferenceTypes pricing.taskType)).2 ∧
      outcome.walletExhausted =
        (exhaustionOf pricing (db.inferenceTypes pricing.taskType) write).1 := by
  unfold billUsage at h
  split at h
  · cases h
  · rename_i hpricingRaises
    split at h
    · cases h
    · rename_i pricing hpricing
      dsimp only at h
      split at h
      · cases h
      · split at h
        · cases h
        · rename_i htype
          split at h
          · cases h
          · rename_i hdeduct
            split at h
            · cases h
            · rename_i hcommit
              cases h
              refine ⟨?_, pricing, hpricing, rfl, rfl, rfl, rfl, rfl⟩
              simp [BillEnv.raises, hpricingRaises, htype, hdeduct, hcommit]

/-- A committed transaction debits the outcome's cost. -/
theorem billUsage_budgetUsage {db db' : Db} {ctx : BillingContext} {env : BillEnv}
    {write : BillingWriteResult} {outcome : BillingOutcome}
    (h : billUsage db ctx env = .committed db' write outcome) :
    db'.budgetUsage = (db.debit ctx.apiKeyId outcome.cost).budgetUsage := by
  obtain ⟨-, pricing, -, -, -, rfl, -, -⟩ := billUsage_committed h
  rw [recordUsageEvent_budgetUsage]
  exact upsertQuota_budgetUsage ..

theorem debit_budgetUsage_self {db : Db} {apiKeyId : Int} {row : BudgetUsage}
    (h : db.budgetUsage apiKeyId = some row) (cost : ℚ) :
    (db.debit apiKeyId cost).budgetUsage apiKeyId
      = some { row with used := debited row.used cost } := by
  unfold Db.debit
  rw [h]
  exact Function.update_self ..

theorem debit_budgetUsage_ne {db : Db} {apiKeyId other : Int} (h : other ≠ apiKeyId)
    (cost : ℚ) : (db.debit apiKeyId cost).budgetUsage other = db.budgetUsage other := by
  unfold Db.debit
  split
  · exact Function.update_of_ne h _ _
  · rfl

end Ai4iCore.Billing
