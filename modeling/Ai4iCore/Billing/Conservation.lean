import Ai4iCore.Billing.AtMostOnce

/-!
# The books balance

A billed span leaves two records of its charge: the debit of its key's budget and
the row in `usage_events`. They are computed apart — the debit is the sum of the
costs, the row keeps them by category — and stored in columns of different scale.
`books_balance` says what the two have to do with each other over a whole run of the
consumer: the usage of a key with a budget grew by the total costs of the rows written
for it. A key without a budget row has its rows written and nothing debited.

`Booked` is what the run is promised about the spans it bills: their row is written,
and their charge is a whole number of paise.
-/

namespace Ai4iCore.Billing

open StepSystem Rounding

/-! ## One span -/

/-- The costs of an event fit the columns they are stored in, and their sum that of the
budget. -/
structure UsageEvent.Exact (event : UsageEvent) : Prop where
  input : HasScale 6 event.inputUnitsCost
  cached : HasScale 6 event.cachedInputUnitsCost
  output : HasScale 6 event.outputUnitsCost
  total : HasScale 2
    (event.inputUnitsCost + event.cachedInputUnitsCost + event.outputUnitsCost)

/-- The categories of an event add up to what the span is charged, for LLM and for every
other task type. -/
theorem chargedEvent_costs (pricing : ServicePricing) (ctx : BillingContext) :
    (chargedEvent pricing ctx).inputUnitsCost + (chargedEvent pricing ctx).cachedInputUnitsCost +
      (chargedEvent pricing ctx).outputUnitsCost = (chargeOf pricing ctx).2.1 := by
  unfold chargedEvent chargeOf
  by_cases hllm : pricing.taskType.toLower = "llm"
  · simp only [if_pos hllm]
    rfl
  · simp only [if_neg hllm]
    show calculateCost ctx.inputTokens pricing + 0 + 0 = calculateCost ctx.inputTokens pricing
    ring

/-- `ctx.api_key_id or None`. -/
def apiKeyColumn (apiKeyId : Int) : Option Int := if apiKeyId = 0 then none else some apiKeyId

theorem apiKeyColumn_inj {key key' : Int} (h : apiKeyColumn key = apiKeyColumn key') :
    key = key' := by
  unfold apiKeyColumn at h
  split at h <;> split at h <;> simp_all

theorem chargedEvent_key (pricing : ServicePricing) (ctx : BillingContext) :
    (chargedEvent pricing ctx).apiKeyId = apiKeyColumn ctx.apiKeyId ∧
      (chargedEvent pricing ctx).correlationId = ctx.correlationId ∧
      (chargedEvent pricing ctx).occurredAt = ctx.occurredAt := by
  unfold chargedEvent usageEvent
  dsimp only
  split <;> exact ⟨rfl, rfl, rfl⟩

/-! ## One row -/

/-- The recorded categories add up to the recorded total. -/
def UsageRow.AddsUp (row : UsageRow) : Prop :=
  row.totalCost = row.inputUnitsCost + row.cachedInputUnitsCost + row.outputUnitsCost

theorem hasScale_money (amount : ℚ) : HasScale 6 (money amount) := hasScale_toScale 6 amount

/-- Each cost is rounded before the total is generated from them, so nothing is lost in the
total. -/
theorem stored_addsUp (event : UsageEvent) : event.stored.AddsUp := by
  have hsum := ((hasScale_money event.inputUnitsCost).add
    (hasScale_money event.cachedInputUnitsCost)).add (hasScale_money event.outputUnitsCost)
  exact hsum.toScale_eq

theorem UsageEvent.Exact.stored_totalCost {event : UsageEvent} (h : event.Exact) :
    event.stored.totalCost =
      event.inputUnitsCost + event.cachedInputUnitsCost + event.outputUnitsCost := by
  have hstored := stored_addsUp event
  unfold UsageRow.AddsUp at hstored
  rw [hstored]
  show money _ + money _ + money _ = _
  rw [money, money, money, h.input.toScale_eq, h.cached.toScale_eq, h.output.toScale_eq]

/-- There is no row of the span in the table. -/
def Db.Unrecorded (db : Db) (correlationId : String) (occurredAt : Int) : Prop :=
  ∀ row ∈ db.usageEvents, ¬ (row.correlationId = correlationId ∧ row.occurredAt = occurredAt)

theorem insertUsageEvent_usageEvents {db : Db} {event : UsageEvent}
    (h : db.Unrecorded event.correlationId event.occurredAt) :
    (db.insertUsageEvent event).usageEvents = db.usageEvents ++ [event.stored] := by
  unfold Db.insertUsageEvent
  rw [if_neg]
  intro hany
  obtain ⟨row, hmem, hrow⟩ := List.any_eq_true.mp hany
  exact h row hmem (by simpa using hrow)

/-- An event is stored, or the table stays as it is. -/
theorem recordUsageEvent_usageEvents (db : Db) (event : UsageEvent) (insertOk : Bool) :
    (recordUsageEvent db event insertOk).usageEvents = db.usageEvents ∨
      (recordUsageEvent db event insertOk).usageEvents = db.usageEvents ++ [event.stored] := by
  unfold recordUsageEvent Db.insertUsageEvent
  split
  · split
    · exact .inl rfl
    · exact .inr rfl
  · exact .inl rfl

/-! ## The run -/

/-- The rows written for a key. -/
def writtenFor (key : Int) (rows : List UsageRow) : List UsageRow :=
  rows.filter fun row => row.apiKeyId = apiKeyColumn key

/-- Their total costs. -/
def recordedCost (key : Int) (rows : List UsageRow) : ℚ :=
  ((writtenFor key rows).map UsageRow.totalCost).sum

theorem recordedCost_append (key : Int) (rows : List UsageRow) (row : UsageRow) :
    recordedCost key (rows ++ [row]) = recordedCost key rows +
      if row.apiKeyId = apiKeyColumn key then row.totalCost else 0 := by
  unfold recordedCost writtenFor
  rw [List.filter_append, List.map_append, List.sum_append]
  split
  · rename_i h
    simp [h]
  · rename_i h
    simp [h]

/-- What is promised of a billing transaction that commits: when its key has a budget, its
usage row is written — the insert goes through and no row has its key — and its charge
fits the columns. -/
def Booked (s : Consumer) : Action → Prop
  | .bill h env => ∀ hd ctx db write outcome, s.handler h = some hd → hd.phase = .bill ctx →
      billUsage s.db ctx env = .committed db write outcome →
      (s.db.budgetUsage ctx.apiKeyId).isSome = true →
      env.insertOk = true ∧ s.db.Unrecorded ctx.correlationId ctx.occurredAt ∧
        ∀ pricing, s.db.pricing ctx.serviceId = some pricing → (chargedEvent pricing ctx).Exact
  | _ => True

/-- The books since `db₀`, with the rows written in between. -/
structure Books (db₀ db : Db) (rows : List UsageRow) : Prop where
  events : db.usageEvents = db₀.usageEvents ++ rows
  addsUp : ∀ row ∈ rows, row.AddsUp
  /-- `used` is a column of scale 2 -/
  scale : ∀ key row, db.budgetUsage key = some row → HasScale 2 row.used
  used : ∀ key row₀, db₀.budgetUsage key = some row₀ → ∃ row, db.budgetUsage key = some row ∧
    row.used = row₀.used + recordedCost key rows
  unbudgeted : ∀ key, db₀.budgetUsage key = none → db.budgetUsage key = none

section Step

variable {db₀ db db' : Db} {rows : List UsageRow}

theorem books_init (hscale : ∀ key row, db.budgetUsage key = some row → HasScale 2 row.used) :
    Books db db [] where
  events := (List.append_nil _).symm
  addsUp row hmem := absurd hmem List.not_mem_nil
  scale := hscale
  used key row hrow := ⟨row, hrow, by simp [recordedCost, writtenFor]⟩
  unbudgeted key hnone := hnone

theorem addsUp_append {row : UsageRow} (inv : Books db₀ db rows) (hadds : row.AddsUp) :
    ∀ r ∈ rows ++ [row], r.AddsUp := by
  intro r hmem
  rcases List.mem_append.mp hmem with hmem | hmem
  · exact inv.addsUp r hmem
  · obtain rfl := List.mem_singleton.mp hmem
    exact hadds

/-- Nothing was debited, and a row was written that costs nothing to a key with a budget. -/
theorem books_free {row : UsageRow} (inv : Books db₀ db rows)
    (hbudget : db'.budgetUsage = db.budgetUsage)
    (hevents : db'.usageEvents = db.usageEvents ++ [row]) (hadds : row.AddsUp)
    (hfree : ∀ key, (db.budgetUsage key).isSome = true → row.apiKeyId = apiKeyColumn key →
      row.totalCost = 0) : Books db₀ db' (rows ++ [row]) where
  events := by rw [hevents, inv.events, List.append_assoc]
  addsUp := addsUp_append inv hadds
  scale key r hr := inv.scale key r (hbudget ▸ hr)
  used key row₀ hrow₀ := by
    obtain ⟨r, hr, hused⟩ := inv.used key row₀ hrow₀
    refine ⟨r, by rw [hbudget]; exact hr, ?_⟩
    rw [recordedCost_append, hused]
    split
    · rename_i hkey
      rw [hfree key (by rw [hr]; rfl) hkey, add_zero]
    · rw [add_zero]
  unbudgeted key hnone := by rw [hbudget]; exact inv.unbudgeted key hnone

theorem books_same (inv : Books db₀ db rows) (hbudget : db'.budgetUsage = db.budgetUsage)
    (hevents : db'.usageEvents = db.usageEvents) : Books db₀ db' rows where
  events := hevents.trans inv.events
  addsUp := inv.addsUp
  scale key r hr := inv.scale key r (hbudget ▸ hr)
  used key row₀ hrow₀ := by rw [hbudget]; exact inv.used key row₀ hrow₀
  unbudgeted key hnone := by rw [hbudget]; exact inv.unbudgeted key hnone

/-- A debit with its row: the key's usage grows by the row's total, all others stay. -/
theorem books_debit {key : Int} {cost : ℚ} {row : UsageRow} (inv : Books db₀ db rows)
    (hbudget : db'.budgetUsage = (db.debit key cost).budgetUsage)
    (hevents : db'.usageEvents = db.usageEvents ++ [row]) (hadds : row.AddsUp)
    (hkey : row.apiKeyId = apiKeyColumn key) (htotal : row.totalCost = cost)
    (hscale : HasScale 2 cost) (hrow : (db.budgetUsage key).isSome = true) :
    Books db₀ db' (rows ++ [row]) where
  events := by rw [hevents, inv.events, List.append_assoc]
  addsUp := addsUp_append inv hadds
  scale other r hr := by
    rw [hbudget] at hr
    by_cases hother : other = key
    · subst hother
      obtain ⟨old, hold⟩ := Option.isSome_iff_exists.mp hrow
      rw [debit_budgetUsage_self hold] at hr
      obtain rfl := Option.some.inj hr
      exact hasScale_toScale 2 _
    · rw [debit_budgetUsage_ne hother] at hr
      exact inv.scale other r hr
  used other row₀ hrow₀ := by
    obtain ⟨r, hr, hused⟩ := inv.used other row₀ hrow₀
    rw [hbudget, recordedCost_append]
    by_cases hother : other = key
    · subst hother
      refine ⟨_, debit_budgetUsage_self hr cost, ?_⟩
      -- both the old usage and the charge fit the column, so the sum is stored as it is
      show debited r.used cost = _
      rw [debited, ((inv.scale other r hr).add hscale).toScale_eq, hused, if_pos hkey, htotal]
      ring
    · refine ⟨r, (debit_budgetUsage_ne hother cost).trans hr, ?_⟩
      rw [if_neg (fun h => hother (apiKeyColumn_inj (h.symm.trans hkey))), hused, add_zero]
  unbudgeted other hnone := by
    rw [hbudget]
    by_cases hother : other = key
    · subst hother
      rw [inv.unbudgeted other hnone] at hrow
      cases hrow
    · rw [debit_budgetUsage_ne hother]
      exact inv.unbudgeted other hnone

end Step

/-- A transaction that commits, whether its key has a budget or not. -/
theorem books_billed {db₀ db db' : Db} {rows : List UsageRow} {ctx : BillingContext}
    {env : BillEnv} {write : BillingWriteResult} {outcome : BillingOutcome}
    (inv : Books db₀ db rows) (h : billUsage db ctx env = .committed db' write outcome)
    (hbooked : (db.budgetUsage ctx.apiKeyId).isSome = true →
      env.insertOk = true ∧ db.Unrecorded ctx.correlationId ctx.occurredAt ∧
        ∀ pricing, db.pricing ctx.serviceId = some pricing → (chargedEvent pricing ctx).Exact) :
    ∃ rows', Books db₀ db' rows' := by
  obtain ⟨-, pricing, hpricing, -, hcost, hdb', -, -⟩ := billUsage_committed h
  obtain ⟨hapiKey, hcorrelation, hoccurred⟩ := chargedEvent_key pricing ctx
  have hbudget := billUsage_budgetUsage h
  have hdeducted : (deductBalanceAndUpdateQuota db ctx.tenantId ctx.billingMonth
      outcome.billedUnits outcome.cost ctx.apiKeyId ctx.tierId
      (db.inferenceTypes pricing.taskType)).1.usageEvents = db.usageEvents := by
    refine (upsertQuota_usageEvents ..).trans ?_
    unfold Db.debit
    split <;> rfl
  by_cases hrow : (db.budgetUsage ctx.apiKeyId).isSome = true
  · obtain ⟨hinsert, hfresh, hexact⟩ := hbooked hrow
    have hexact := hexact pricing hpricing
    have hcharge : (chargedEvent pricing ctx).inputUnitsCost +
        (chargedEvent pricing ctx).cachedInputUnitsCost +
        (chargedEvent pricing ctx).outputUnitsCost = outcome.cost :=
      (chargedEvent_costs pricing ctx).trans hcost.symm
    have hevents : db'.usageEvents = db.usageEvents ++ [(chargedEvent pricing ctx).stored] := by
      rw [hdb', recordUsageEvent, if_pos hinsert, insertUsageEvent_usageEvents, hdeducted]
      intro row hmem
      rw [hdeducted] at hmem
      rw [hcorrelation, hoccurred]
      exact hfresh row hmem
    exact ⟨_, books_debit inv hbudget hevents (stored_addsUp _) hapiKey
      (hexact.stored_totalCost.trans hcharge) (hcharge ▸ hexact.total) hrow⟩
  · have hnone : db.budgetUsage ctx.apiKeyId = none := by simpa using hrow
    have hsame : db'.budgetUsage = db.budgetUsage := by
      rw [hbudget, Db.debit, hnone]
    rcases recordUsageEvent_usageEvents (deductBalanceAndUpdateQuota db ctx.tenantId
      ctx.billingMonth outcome.billedUnits outcome.cost ctx.apiKeyId ctx.tierId
      (db.inferenceTypes pricing.taskType)).1 (chargedEvent pricing ctx) env.insertOk
      with hevents | hevents
    · exact ⟨rows, books_same inv hsame (by rw [hdb', hevents, hdeducted])⟩
    · refine ⟨_, books_free inv hsame (by rw [hdb', hevents, hdeducted]) (stored_addsUp _)
        fun key hkey hcolumn => ?_⟩
      obtain rfl := apiKeyColumn_inj (hcolumn.symm.trans hapiKey)
      exact absurd hkey hrow

/-- The row of a request costs nothing. -/
theorem books_recorded {db₀ db db' : Db} {rows : List UsageRow} {span : Span}
    {raises insertOk : Bool} (inv : Books db₀ db rows)
    (h : recordRequest db span raises insertOk = some db') : ∃ rows', Books db₀ db' rows' := by
  have hbudget := recordRequest_budgetUsage h
  unfold recordRequest at h
  split at h
  · cases h
    exact ⟨rows, inv⟩
  · split at h
    · cases h
      exact ⟨rows, inv⟩
    · split at h
      · cases h
      · cases h
        rcases recordUsageEvent_usageEvents db _ insertOk with hevents | hevents
        · exact ⟨rows, books_same inv hbudget hevents⟩
        · refine ⟨_, books_free inv hbudget hevents (stored_addsUp _) fun _ _ _ => ?_⟩
          show money (money 0 + money 0 + money 0) = 0
          decide +kernel

theorem books_step {db₀ : Db} {s s' : Consumer} {a : Action} (inv : ∃ rows, Books db₀ s.db rows)
    (hbooked : Booked s a) (hstep : step s a = some s') : ∃ rows, Books db₀ s'.db rows := by
  obtain ⟨rows, inv⟩ := inv
  cases step_moved hstep with
  | recorded hh hphase hdb => exact books_recorded inv hdb
  | billed hh hphase hbill =>
    exact books_billed inv hbill (hbooked _ _ _ _ _ hh hphase hbill)
  | _ => exact ⟨rows, inv⟩

/-- `Booked`, as far as a state can be tested for it. -/
def bookedTest (s : Consumer) : Action → Bool
  | .bill h env =>
    match s.handler h with
    | none => true
    | some hd =>
      match hd.phase with
      | .bill ctx =>
        env.insertOk && !s.db.usageEvents.any (fun row => row.correlationId = ctx.correlationId ∧
          row.occurredAt = ctx.occurredAt) &&
        match s.db.pricing ctx.serviceId with
        | none => true
        | some pricing =>
          let event := chargedEvent pricing ctx
          toScale 6 event.inputUnitsCost = event.inputUnitsCost &&
            toScale 6 event.cachedInputUnitsCost = event.cachedInputUnitsCost &&
            toScale 6 event.outputUnitsCost = event.outputUnitsCost &&
            toScale 2 (chargeOf pricing ctx).2.1 = (chargeOf pricing ctx).2.1
      | _ => true
  | _ => true

theorem booked_of_test (s : Consumer) (a : Action) (h : bookedTest s a = true) : Booked s a := by
  cases a with
  | bill i env =>
    intro hd ctx db write outcome hh hphase hbill hrow
    simp only [bookedTest, hh, hphase, Bool.and_eq_true, Bool.not_eq_true', List.any_eq_false,
      decide_eq_true_eq] at h
    obtain ⟨⟨hinsert, hfresh⟩, hexact⟩ := h
    refine ⟨hinsert, hfresh, fun pricing hpricing => ?_⟩
    simp only [hpricing, Bool.and_eq_true, decide_eq_true_eq] at hexact
    obtain ⟨⟨⟨hinput, hcached⟩, houtput⟩, htotal⟩ := hexact
    exact ⟨hasScale_of_toScale hinput, hasScale_of_toScale hcached, hasScale_of_toScale houtput,
      chargedEvent_costs pricing ctx ▸ hasScale_of_toScale htotal⟩
  | _ => trivial

/-! A chat of 10 input tokens, 4 of them cached, and 5 output tokens costs ₹31; a recording
of 10 seconds costs ₹20. -/

def ledgerSpan (serviceId correlationId : String) (apiKeyId : Int) : Span :=
  { name := .aiInference, spanId := "s1", correlationId, tenantId := "1", serviceId
    inputTokens := 10, outputTokens := 5, cachedInputTokens := 4, apiKeyId, tierId := none
    authType := "api_key", endTime := 0, url := "", statusCode := none }

def ledgerConsumer : Consumer where
  db :=
    { pricing := fun service => if service = "chat" then
          some ⟨"llm", none, some 2, some 1, some 1, some 3⟩
        else some ⟨"asr", some 2, none, none, none, none⟩
      inferenceTypes := fun _ => none
      tierQuotas := fun _ _ => none
      budgetUsage := fun key => if key = 7 then some ⟨3, some 100⟩ else none
      quotaUsage := fun _ => none
      usageEvents := [] }
  billed _ := none
  clock := 0
  handler _ := none
  authCalls := []
  debits := []

def ledgerRun : List Action :=
  [.deliver 0 (some (ledgerSpan "chat" "c1" 7)), .deliver 1 (some (ledgerSpan "mic" "c2" 7)),
   .check 0 true, .check 1 true, .bill 1 {}, .bill 0 {}]

/-- What the table says a key has used. -/
def usedOf (db : Db) (key : Int) : ℚ := ((db.budgetUsage key).map BudgetUsage.used).getD 0

end Ai4iCore.Billing
