import Ai4iCore.Gateway.Validation
import Ai4iCore.Inference.Failover
import Ai4iCore.Billing.Usage

/-!
# The type that is checked and the type that is billed

The gateway checks the quota of the type whose catalogue entry lists the path. The inference
service runs the service that the body names, or a fallback of it, on whatever path it comes.
The consumer counts the usage under the type that this service is registered with. Nothing ties
a path to the services of its type, so the two agree exactly where the service that answers is
registered under the type of the path (`quota_agrees_iff`).
-/

namespace Ai4iCore.Gateway

open ApiKey (Field tierIdField)
open Ai4iCore.Task (Text)
open Billing (BillEnv BillingContext BillingOutcome BillingWriteResult Db billUsage billingContext)

/-! ## The request behind the gateway -/

/-- A request as the inference service runs it: on a route of the task pipeline, with the task
type of the route, or in the chat proxy. Whatever path the gateway has checked is behind it. -/
inductive Call
  /-- `idText` is the text that billing reads where a span has some id -/
  | task (idText : Task.Value → String) (env : Task.Env) (default : Option Text)
    (body : Task.Body) (outcome : Nat → Task.Outcome)
  | chat (env : Guardrail.Env) (req : Inference.RequestContext) (payload : Guardrail.Payload)
    (answers : Nat → Guardrail.Answer) (usage : Nat → Nat × Nat × Nat)
  | stream (env : Guardrail.Env) (req : Inference.RequestContext) (payload : Guardrail.Payload)
    (answers : Nat → Guardrail.StreamAnswer) (breaks : Bool) (stop : Option Nat)

/-- The service that is run last. -/
def Call.answering : Call → Option String
  | .task idText env default body outcome =>
    (Task.attempts env (body.unwrap.withDefault default) outcome).getLast?.map fun a =>
      idText a.1.info.serviceId
  | .chat env _ payload answers _ =>
    (Guardrail.proxyTraced env payload answers).called.getLast?.map Guardrail.Prepared.serviceId
  | .stream env _ payload answers _ _ =>
    (Guardrail.proxyTracedStream env payload answers).called.getLast?.map
      Guardrail.Prepared.serviceId

/-- An ai-inference span of the request has this `service_id`, and tokens. -/
def Call.Charges (id : String) : Call → Prop
  | .task idText env default body outcome =>
    ∃ s ∈ (Task.handle env default body outcome).spans, ¬ s.isZero ∧ idText s.serviceId = id
  | .chat env req payload answers usage =>
    ∃ s ∈ (Inference.proxyTrail env req payload answers usage).spans,
      s.tokens ≠ 0 ∧ s.serviceId = some id
  | .stream env req payload answers breaks stop =>
    ∃ s ∈ (Inference.streamTrail env req payload answers breaks stop).spans,
      s.tokens ≠ 0 ∧ s.serviceId = some id

theorem forwardSpan_serviceId (req : Inference.RequestContext) (id : String)
    (answer : Guardrail.Answer) (usage : Nat × Nat × Nat) :
    (Inference.forwardSpan req id answer usage).serviceId = some id := by
  cases answer with
  | transport => rfl
  | response status body =>
    show (if 400 ≤ status then _ else _ : Inference.SpanAttrs).serviceId = some id
    split <;> rfl

/-- Only the service that is run last is charged. -/
theorem Call.Charges.answering {call : Call} {id : String} (h : call.Charges id) :
    call.answering = some id := by
  cases call with
  | task idText env default body outcome =>
    obtain ⟨s, hs, hne, rfl⟩ := h
    have hspans := Task.routeInference_spans env (body.unwrap.withDefault default) outcome
    obtain ⟨a, ha, hsa⟩ := List.mem_flatMap.mp (hspans ▸ hs)
    obtain ⟨n, hn⟩ := List.mem_iff_getElem?.mp ha
    obtain ⟨k, hk⟩ := List.mem_iff_getElem?.mp hsa
    obtain ⟨hlast, -, hanswered⟩ := Task.charged_span hn hk hne
    obtain ⟨cls, items, g, outputTokens, -, -, -, -, rfl⟩ := hanswered.group
    exact congrArg (Option.map _) hlast
  | chat env req payload answers usage =>
    obtain ⟨s, hs, htokens, hid⟩ := h
    obtain ⟨n, hn⟩ := List.mem_iff_getElem?.mp hs
    have hlast := Inference.proxyTrail_charged hn htokens
    obtain ⟨c, hc, rfl⟩ := Inference.proxyTrail_span hn
    rw [forwardSpan_serviceId] at hid
    show Option.map _ (List.getLast? _) = some id
    rw [List.getLast?_eq_getElem?, ← hlast, Nat.add_sub_cancel, hc]
    exact hid
  | stream env req payload answers breaks stop =>
    obtain ⟨s, hs, htokens, hid⟩ := h
    rcases @Inference.streamTrail_spans env req payload answers breaks stop with hnone | hspans
    · rw [hnone] at hs
      cases hs
    rw [hspans, Option.mem_toList, Option.map_eq_some_iff] at hs
    obtain ⟨r, hr, rfl⟩ := hs
    have hsent : (Guardrail.proxyTracedStream env payload answers).called.getLast? =
        some r.sent := by
      rcases Inference.proxyTracedStream_cases env req payload answers breaks stop with
        ⟨-, hno, -⟩ | ⟨prepared, payload', -, -, -, -, hstreamed⟩
      · rw [hno] at hr
        cases hr
      · exact (hstreamed r hr).2
    obtain ⟨prepared, ctx, payload', lines, sent, -, -, -, -, rfl⟩ := Inference.tracedStream_cases hr
    show Option.map _ (List.getLast? _) = some id
    rw [hsent, ← hid]
    exact (Inference.tracedStreamGen_serviceId _ _ _ _ _ _ _ htokens).symm

/-! ## The type that is counted -/

/-- The row that `get_inference_type_id` finds for a task type. -/
def countedType (catalogue : List InferenceType) (taskType : String) : Option InferenceType :=
  if taskType = "" then none
  else catalogue.find? fun entry => entry.name = Task.lower taskType.toList

/-- The consumer's database looks types up in the catalogue that the gateway has. -/
def ReadsCatalogue (catalogue : List InferenceType) (db : Db) : Prop :=
  ∀ taskType, db.inferenceTypes taskType = (countedType catalogue taskType).map InferenceType.id

/-- All that is added to `quota_usage` is added under this type. -/
def CountsUnder (type : Option InferenceType) (db db' : Db) : Prop :=
  ∀ key, db'.quotaUsage key ≠ db.quotaUsage key →
    type.map InferenceType.id = some key.inferenceTypeId

theorem countedType_name {catalogue : List InferenceType} {taskType : String}
    {type : InferenceType} (h : countedType catalogue taskType = some type) :
    taskType ≠ "" ∧ type.name = Task.lower taskType.toList := by
  unfold countedType at h
  split at h
  · cases h
  · rename_i hne
    have hname := List.find?_some h
    exact ⟨hne, of_decide_eq_true hname⟩

/-- A task type is counted under the entry of that name. -/
theorem countedType_eq_name {catalogue : List InferenceType} {taskType : String}
    {entry : InferenceType} (hentry : entry ∈ catalogue) :
    (countedType catalogue taskType).map InferenceType.name = some entry.name ↔
      taskType ≠ "" ∧ Task.lower taskType.toList = entry.name := by
  constructor
  · intro h
    obtain ⟨type, htype, hname⟩ := Option.map_eq_some_iff.mp h
    obtain ⟨hne, hlower⟩ := countedType_name htype
    exact ⟨hne, hlower.symm.trans hname⟩
  · rintro ⟨hne, hlower⟩
    unfold countedType
    rw [if_neg hne]
    cases hfind : catalogue.find? fun entry => entry.name = Task.lower taskType.toList with
    | none =>
      have hno := List.find?_eq_none.mp hfind entry hentry
      exact absurd (decide_eq_true hlower.symm) hno
    | some type =>
      have hname := List.find?_some hfind
      rw [Option.map_some, of_decide_eq_true hname, hlower]

theorem upsertQuota_quotaUsage {db : Db} {tenantId : String} {month : Int × Int} {units : ℚ}
    {tierId : Option String} {type : Option Nat} {key : Billing.QuotaKey}
    (h : (db.upsertQuota tenantId month units tierId type).1.quotaUsage key ≠ db.quotaUsage key) :
    type = some key.inferenceTypeId := by
  unfold Db.upsertQuota at h
  split at h
  · split at h
    · by_contra hother
      refine h (Function.update_of_ne ?_ _ _)
      rintro rfl
      exact hother rfl
    · exact absurd rfl h
  · exact absurd rfl h

theorem debit_quotaUsage (db : Db) (apiKeyId : Int) (cost : ℚ) :
    (db.debit apiKeyId cost).quotaUsage = db.quotaUsage := by
  unfold Db.debit
  split <;> rfl

theorem recordUsageEvent_quotaUsage (db : Db) (event : Billing.UsageEvent) (insertOk : Bool) :
    (Billing.recordUsageEvent db event insertOk).quotaUsage = db.quotaUsage := by
  unfold Billing.recordUsageEvent Db.insertUsageEvent
  split
  · split <;> rfl
  · rfl

/-- A committed bill is counted under the type that its service is registered with. -/
theorem billUsage_countsUnder {catalogue : List InferenceType} {db db' : Db}
    {ctx : BillingContext} {env : BillEnv} {write : BillingWriteResult} {outcome : BillingOutcome}
    (hreads : ReadsCatalogue catalogue db)
    (h : billUsage db ctx env = .committed db' write outcome) :
    ∃ pricing, db.pricing ctx.serviceId = some pricing ∧
      CountsUnder (countedType catalogue pricing.taskType) db db' := by
  obtain ⟨-, pricing, hpricing, -, -, rfl, -, -⟩ := Billing.billUsage_committed h
  refine ⟨pricing, hpricing, ?_⟩
  intro key hkey
  rw [recordUsageEvent_quotaUsage] at hkey
  rw [← debit_quotaUsage db ctx.apiKeyId outcome.cost] at hkey
  rw [← hreads]
  exact upsertQuota_quotaUsage hkey

theorem billingContext_serviceId {span : Billing.Span} {ctx : BillingContext}
    (h : billingContext span = some ctx) : ctx.serviceId = span.serviceId := by
  unfold billingContext at h
  dsimp only at h
  split at h
  · cases h
  · split at h
    · cases h
    · obtain rfl := Option.some.inj h
      rfl

/-! ## The two decisions -/

/-- The quota decision about a request and its bill are of one type: a key on which the type is
exhausted does not get the request through, and the request is not refused because of another
type. -/
structure Agrees (gw : Gate) (method uri : Text) (type : Option Text) : Prop where
  blocked : ∀ result t headers, type = some t → t ∈ exhaustedServices result →
    gw.validateApiKey method uri (some (.valid result)) ≠ .ok headers
  justified : ∀ reply refusal t, gw.validateApiKey method uri reply = .error refusal →
    refusal.service = some t → type = some t

/-- A key that may call the endpoint. -/
def callingKey (gw : Gate) (method uri : Text) : Record Field :=
  AList.singleton "permissions" (.ids (gw.requiredPermission method (pathOf uri)).toList)

/-- A key that may call the endpoint, on which one type is exhausted. -/
def exhaustedKey (gw : Gate) (method uri : Text) (type : Text) : Record Field :=
  (callingKey gw method uri).insert ("quota-" ++ String.ofList type) (.str "1")

section

variable {gw : Gate} {method uri : Text} {type : Text}

theorem exhaustedKey_lookup {name : String} (h : quotaName? name = none) :
    (exhaustedKey gw method uri type).lookup name = (callingKey gw method uri).lookup name := by
  refine AList.lookup_insert_ne ?_
  rintro rfl
  rw [quotaName?_eq_some.mpr rfl] at h
  cases h

/-- It is refused on a path of that type, for that type. -/
theorem exhaustedKey_refused {entry : InferenceType} (hpath : gw.resolveService uri = some entry)
    (hname : entry.name = type) :
    gw.checkResult method uri (exhaustedKey gw method uri type) = .error
      (quotaExceeded type (exhaustedServices (exhaustedKey gw method uri type))) := by
  have hflag : type ∈ exhaustedServices (exhaustedKey gw method uri type) := by
    rw [mem_exhaustedServices]
    exact AList.lookup_insert _
  have hids : permissionIds (exhaustedKey gw method uri type) =
      (gw.requiredPermission method (pathOf uri)).toList := by
    unfold permissionIds
    rw [exhaustedKey_lookup (by decide)]
    rfl
  have hpermitted : gw.checkEndpointPermission method uri
      (permissionIds (exhaustedKey gw method uri type)) = true := by
    rw [hids]
    unfold Gate.checkEndpointPermission
    split
    · rfl
    · cases gw.requiredPermission method (pathOf uri) with
      | none => rfl
      | some required => exact decide_eq_true (List.mem_singleton_self required)
  have htier : (exhaustedKey gw method uri type).lookup tierIdField = none :=
    exhaustedKey_lookup (by decide)
  have hwindow : cachedBudgetWindowIsExpired gw.now (exhaustedKey gw method uri type) = false := by
    unfold cachedBudgetWindowIsExpired
    rw [exhaustedKey_lookup (by decide)]
    rfl
  have hbudget : (exhaustedKey gw method uri type).lookup "budget-exhausted" = none :=
    exhaustedKey_lookup (by decide)
  unfold Gate.checkResult Gate.tierOf present Gate.checkQuota
  rw [hpermitted, htier, hwindow, hbudget, hpath]
  subst hname
  dsimp only
  rw [decide_eq_false (not_not_intro hflag)]
  rfl

/-- On a path of the catalogue, the decision is about the type of the path. -/
theorem agrees_iff {entry : InferenceType} (hpath : gw.resolveService uri = some entry)
    {type : Option Text} : Agrees gw method uri type ↔ type = some entry.name := by
  constructor
  · intro h
    exact h.justified (some (.valid (exhaustedKey gw method uri entry.name))) _ _
      (exhaustedKey_refused hpath rfl) rfl
  · rintro rfl
    constructor
    · intro result t headers ht hflag
      obtain rfl := Option.some.inj ht
      exact not_ok_of_exhausted hpath hflag headers
    · intro reply refusal t h hservice
      obtain ⟨entry', hpath', rfl⟩ := validateApiKey_service h hservice
      rw [hpath] at hpath'
      rw [Option.some.inj hpath']

end

/-- A request on a path of the catalogue, and a span of it that is billed. The bill is for the
service that was run last, under the type that it is registered with; the quota decision is of
that type exactly when it is the type of the path. -/
theorem quota_agrees_iff {gw : Gate} {method uri : Text} {entry : InferenceType} {call : Call}
    {span : Billing.Span} {ctx : BillingContext} {db db' : Db} {env : BillEnv}
    {write : BillingWriteResult} {outcome : BillingOutcome}
    (hpath : gw.resolveService uri = some entry) (hspan : call.Charges span.serviceId)
    (hctx : billingContext span = some ctx) (hreads : ReadsCatalogue gw.catalogue db)
    (hbilled : billUsage db ctx env = .committed db' write outcome) :
    call.answering = some span.serviceId ∧ ∃ pricing,
      db.pricing span.serviceId = some pricing ∧
      CountsUnder (countedType gw.catalogue pricing.taskType) db db' ∧
      (Agrees gw method uri ((countedType gw.catalogue pricing.taskType).map InferenceType.name) ↔
        pricing.taskType ≠ "" ∧ Task.lower pricing.taskType.toList = entry.name) := by
  obtain ⟨pricing, hpricing, hcounts⟩ := billUsage_countsUnder hreads hbilled
  rw [billingContext_serviceId hctx] at hpricing
  have hentry : entry ∈ gw.catalogue := mem_of_getByPath hpath
  refine ⟨hspan.answering, pricing, hpricing, hcounts, ?_⟩
  rw [agrees_iff hpath]
  exact countedType_eq_name hentry

/-! ## A translator behind the path of speech recognition -/

def asrType : InferenceType := ⟨1, "asr".toList, ["/api/v1/asr/inference".toList]⟩

def nmtType : InferenceType := ⟨2, "nmt".toList, ["/api/v1/nmt/inference".toList]⟩

def sampleGate : Gate where
  now := 0
  permissionMapLoaded := true
  requiredPermission _ _ := some 4
  getTier _ := (some "ACTIVE", none)
  catalogue := [asrType, nmtType]

def asrUri : Text := "/api/v1/asr/inference".toList

/-- The texts of `twoTexts`, for the translator that its body names. -/
def sampleCall : Call :=
  .task (fun id => match id with
    | .str s => String.ofList s
    | _ => "") Task.translatorEnv (some "ASR".toList) Task.twoTexts fun _ => Task.firstOnly

def sampleSpan : Billing.Span where
  name := .aiInference
  spanId := "s"
  correlationId := "c"
  tenantId := "7"
  serviceId := "t"
  inputTokens := 2
  outputTokens := 0
  cachedInputTokens := 0
  apiKeyId := 5
  tierId := some "gold"
  authType := "api_key"
  endTime := 0
  url := ""
  statusCode := none

/-- One unit of money for each character of a translation. -/
def samplePricing : Billing.ServicePricing := ⟨"nmt", some 1, none, none, none, none⟩

def sampleDb : Db where
  pricing id := if id = "t" then some samplePricing else none
  inferenceTypes taskType := (countedType sampleGate.catalogue taskType).map InferenceType.id
  tierQuotas _ _ := some 100
  budgetUsage _ := none
  quotaUsage _ := none
  usageEvents := []

def sampleKey (type : Text) : Record Field := exhaustedKey sampleGate "POST".toList asrUri type

theorem sampleCall_charges : sampleCall.Charges "t" := by
  refine ⟨⟨.str "t".toList, 2, 0⟩, ?_, fun hzero => absurd hzero.1 (by decide), rfl⟩
  decide +kernel

theorem reads_sampleDb : ReadsCatalogue sampleGate.catalogue sampleDb := fun _ => rfl

/-- What a bill leaves in a row of `quota_usage`. -/
def quotaOf (key : Billing.QuotaKey) : Billing.BillResult → Option Billing.QuotaUsage
  | .committed db _ _ => db.quotaUsage key
  | _ => none

/-- Two characters of the tenant's translation in the month of the request. -/
theorem sampleSpan_billed : ∃ ctx db' write outcome, billingContext sampleSpan = some ctx ∧
    billUsage sampleDb ctx {} = .committed db' write outcome ∧
    db'.quotaUsage ⟨"7", 2, (1970, 1), "gold"⟩ = some ⟨2, 100⟩ := by
  have hquota : (billingContext sampleSpan).bind (fun ctx =>
      quotaOf ⟨"7", 2, (1970, 1), "gold"⟩ (billUsage sampleDb ctx {})) = some ⟨2, 100⟩ := by
    decide +kernel
  obtain ⟨ctx, hctx, hquota⟩ := Option.bind_eq_some_iff.mp hquota
  cases hbill : billUsage sampleDb ctx {} with
  | raised =>
    rw [hbill] at hquota
    cases hquota
  | skipped =>
    rw [hbill] at hquota
    cases hquota
  | committed db' write outcome =>
    rw [hbill] at hquota
    exact ⟨ctx, db', write, outcome, hctx, hbill, hquota⟩

/-- The request goes through although `nmt` is exhausted on its key, and it is refused because of
`asr`; it is billed under `nmt`. -/
theorem quota_bypassed :
    sampleGate.resolveService asrUri = some asrType ∧ sampleCall.Charges "t" ∧
      (∃ ctx db' write outcome, billingContext sampleSpan = some ctx ∧
        billUsage sampleDb ctx {} = .committed db' write outcome ∧
        db'.quotaUsage ⟨"7", 2, (1970, 1), "gold"⟩ = some ⟨2, 100⟩) ∧
      ("nmt".toList ∈ exhaustedServices (sampleKey "nmt".toList) ∧
        ∃ headers, sampleGate.validateApiKey "POST".toList asrUri
          (some (.valid (sampleKey "nmt".toList))) = .ok headers) ∧
      sampleGate.validateApiKey "POST".toList asrUri (some (.valid (sampleKey "asr".toList))) =
        .error (quotaExceeded "asr".toList (exhaustedServices (sampleKey "asr".toList))) := by
  refine ⟨by decide +kernel, sampleCall_charges, sampleSpan_billed, ⟨?_, ?_⟩,
    exhaustedKey_refused (show sampleGate.resolveService asrUri = some asrType by decide +kernel)
      rfl⟩
  · decide +kernel
  · obtain ⟨headers, hheaders⟩ := Option.isSome_iff_exists.mp (show (sampleGate.checkResult
      "POST".toList asrUri (sampleKey "nmt".toList)).toOption.isSome = true by decide +kernel)
    exact ⟨headers, Checked.toOption_ok hheaders⟩

theorem quota_agrees_iff_asr :
    sampleCall.answering = some "t" ∧ ∃ pricing,
      sampleDb.pricing "t" = some pricing ∧
      (Agrees sampleGate "POST".toList asrUri
          ((countedType sampleGate.catalogue pricing.taskType).map InferenceType.name) ↔
        pricing.taskType ≠ "" ∧ Task.lower pricing.taskType.toList = asrType.name) := by
  obtain ⟨ctx, db', write, outcome, hctx, hbilled, -⟩ := sampleSpan_billed
  obtain ⟨hanswering, pricing, hpricing, -, hagrees⟩ :=
    @quota_agrees_iff sampleGate "POST".toList asrUri asrType sampleCall sampleSpan ctx sampleDb db'
      {} write outcome (by decide +kernel) sampleCall_charges hctx reads_sampleDb hbilled
  exact ⟨hanswering, pricing, hpricing, hagrees⟩

end Ai4iCore.Gateway
