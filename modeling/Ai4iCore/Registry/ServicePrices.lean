import Ai4iCore.Base.Rounding
import Ai4iCore.Base.Run
import Ai4iCore.Task.Service
import Mathlib

/-!
# Services stay priceable

The billing columns of `mm_services` under the service registry (service_service.py) and the
validation of its requests (schemas/model_management/service.py): the prices and the unit of a
service, the rate of one unit, its task type, and the inference schema that has to speak of this
task.

A request is merged from flat fields and nested ones, then checked for the fields that have to come
together, then compared with the row. Each layer leaves to another what it cannot see;
`services_stay_priceable` says that between them nothing gets through.

Numbers are exact, and a price is kept with eight decimals (`NUMERIC(16, 8)`). What else a handler
looks at (the endpoint that answers, tiers that exist, lengths of descriptions) is `Checks`.
-/

namespace Ai4iCore.Registry.ServicePrices

open Ai4iCore.Task (Text lower strip)
open StepSystem Rounding

/-! ## Task types -/

/-- `TaskTypeEnum`. -/
def taskTypes : List Text :=
  ["nmt", "tts", "asr", "llm", "transliteration", "language-detection", "speaker-diarization",
    "audio-lang-detection", "language-diarization", "ocr", "ner", "pipeline"].map String.toList

def llm : Text := ['l', 'l', 'm']

/-- `resolve_task_type`. -/
def resolveTaskType (value : Text) : Option Text :=
  taskTypes.find? fun member => lower member = lower value

/-- `INFERENCE_SCHEMA_TASK_TYPES`. -/
def schemaTaskTypes : List Text :=
  taskTypes ++ ["translation", "txt-lang-detection"].map String.toList

/-- `TASK_TYPE_SCHEMA_EQUIVALENTS`, and a type itself where it has none. -/
def equivalents (taskType : Text) : List Text :=
  let translation := ["nmt", "translation"].map String.toList
  let detection := ["language-detection", "txt-lang-detection"].map String.toList
  if taskType ∈ translation then translation
  else if taskType ∈ detection then detection
  else [taskType]

/-- An entry of an inference schema: its `taskType` where it has one, and whether it has a
`request` and a `response`. -/
structure Entry where
  taskType : Option Text
  request : Bool
  response : Bool
  deriving DecidableEq, Repr

/-- `validate_inference_schema_entries`. -/
def validateInferenceSchemaEntries (entries : List Entry) : Bool :=
  entries ≠ [] && entries.all fun e =>
    e.taskType.any (· ∈ schemaTaskTypes) && e.request && e.response

/-- `schema_matches_task_type`. -/
def schemaMatchesTaskType (taskType : Option Text) (entries : List Entry) : Bool :=
  (taskType.getD [] = [] || entries = []) ||
    entries.any fun e => e.taskType.any (· ∈ equivalents (taskType.getD []))

/-! ## Requests -/

/-- A field of a body: not sent, null, or a value. -/
abbrev Field (α : Type) := Option (Option α)

/-- `inferenceEndPoint`. -/
structure EndPoint where
  callbackUrl : Option Text
  endpointSchema : Option (List Entry)
  authenticationToken : Option Text
  deriving DecidableEq, Repr

/-- The endpoint that is meant where none is sent. -/
def EndPoint.empty : EndPoint := ⟨none, none, none⟩

/-- `a or b`, for texts. -/
def orElse (a b : Option Text) : Option Text := if a.getD [] = [] then b else a

/-- `check_llm_token_prices`. -/
def checkLlmTokenPrices (taskType : Option Text) (cost cached output : Option ℚ) : Bool :=
  if taskType = some llm then cost.isSome && cached.isSome && output.isSome
  else cached.isNone && output.isNone

/-- `ge=0, le=10_000_000`. -/
def validPrice (x : ℚ) : Bool := 0 ≤ x && x ≤ 10000000

/-- `ge=1, le=10_000_000`. -/
def validUnitSize (n : Int) : Bool := 1 ≤ n && n ≤ 10000000

def validTierIds (ids : List Text) : Bool := ids ≠ [] && ids.all fun id => strip id ≠ []

def EndPoint.valid (ep : EndPoint) : Bool := ep.endpointSchema.all validateInferenceSchemaEntries

/-- `authenticationToken` is for the LLM task type only. -/
def tokenAllowed (ep : EndPoint) (taskType : Option Text) : Bool :=
  ep.authenticationToken.getD [] = [] || taskType.all (· = llm)

/-- A task type that is sent is one of the task types. -/
def resolveField (resolve : Text → Option Text) (value : Option Text) : Option (Option Text) :=
  match value with
  | none => some none
  | some t => (resolve t).map some

structure ServiceCreateRequest where
  serviceId : Text
  name : Text
  modelId : Text
  modelVersion : Text
  task : Option Text
  taskType : Option Text
  inferenceEndPoint : Option EndPoint
  endpoint : Option Text
  costPerUnit : ℚ
  cachedInputCostPerUnit : Option ℚ
  outputCostPerUnit : Option ℚ
  unitSize : Int
  tierIds : List Text
  deriving DecidableEq, Repr

/-- `task.type`, or else `taskType`, each resolved where it is sent. -/
def mergedTaskType (task taskType : Option Text) : Option (Option Text) :=
  (resolveField resolveTaskType task).bind fun nested =>
    (resolveField (fun t => resolveTaskType (strip t)) taskType).map fun flat => nested.or flat

/-- The body and its task type are accepted. -/
def ServiceCreateRequest.accepts (r : ServiceCreateRequest) (taskType : Text) : Bool :=
  let ep := r.inferenceEndPoint.getD .empty
  ep.valid && (orElse ep.callbackUrl r.endpoint).getD [] ≠ [] &&
    schemaMatchesTaskType (some taskType) (ep.endpointSchema.getD []) &&
    tokenAllowed ep (some taskType) && validPrice r.costPerUnit &&
    r.cachedInputCostPerUnit.all validPrice && r.outputCostPerUnit.all validPrice &&
    validUnitSize r.unitSize && validTierIds r.tierIds &&
    checkLlmTokenPrices (some taskType) (some r.costPerUnit) r.cachedInputCostPerUnit
      r.outputCostPerUnit

/-- The task type of a body that is accepted. -/
def ServiceCreateRequest.validate (r : ServiceCreateRequest) : Option Text :=
  ((mergedTaskType r.task r.taskType).bind id).filter r.accepts

structure ServiceUpdateRequest where
  serviceId : Text
  description : Field Text
  serviceDescription : Field Text
  hardwareDescription : Field Text
  task : Field Text
  taskType : Field Text
  inferenceEndPoint : Field EndPoint
  endpoint : Field Text
  apiKey : Field Text
  isPublished : Field Bool
  isTryItDefault : Field Bool
  costPerUnit : Field ℚ
  cachedInputCostPerUnit : Field ℚ
  outputCostPerUnit : Field ℚ
  unitSize : Field Int
  tierIds : Field (List Text)
  expectedResponseSchema : Field Text
  /-- `inferenceServerType`, `sslVerify`, `healthStatus` or `benchmarks` is sent -/
  others : Bool
  deriving DecidableEq, Repr

/-- What `_reconcile_ulca_fields` makes of a body. -/
structure Reconciled where
  taskType : Field Text
  endpoint : Field Text
  endpointSchema : Option (List Entry)
  authenticationToken : Option Text
  deriving DecidableEq, Repr

/-- The flat `endpoint`, where there is a URL in either channel. -/
def reconciledEndpoint (r : ServiceUpdateRequest) : Field Text :=
  match r.inferenceEndPoint.join with
  | none => r.endpoint
  | some ep =>
    match orElse ep.callbackUrl r.endpoint.join with
    | none => r.endpoint
    | some url => some (some url)

/-- `_reconcile_ulca_fields`. -/
def reconcileUlcaFields (r : ServiceUpdateRequest) : Option Reconciled :=
  (mergedTaskType r.task.join r.taskType.join).bind fun merged =>
    let ep := r.inferenceEndPoint.join.getD .empty
    if ep.valid && (merged.isNone || ep.endpointSchema.isNone ||
        schemaMatchesTaskType merged (ep.endpointSchema.getD [])) && tokenAllowed ep merged then
      some
        { taskType := if merged.isSome then some merged else r.taskType
          endpoint := reconciledEndpoint r
          endpointSchema := ep.endpointSchema
          authenticationToken := ep.authenticationToken }
    else none

/-- The body has more than `_PUBLISH_ONLY_FIELDS`. -/
def ServiceUpdateRequest.isSubstantive (r : ServiceUpdateRequest) : Bool :=
  r.description.isSome || r.serviceDescription.isSome || r.hardwareDescription.isSome ||
    r.task.isSome || r.taskType.isSome || r.inferenceEndPoint.isSome || r.endpoint.isSome ||
    r.apiKey.isSome || r.costPerUnit.isSome || r.cachedInputCostPerUnit.isSome ||
    r.outputCostPerUnit.isSome || r.unitSize.isSome || r.tierIds.isSome ||
    r.expectedResponseSchema.isSome || r.others

/-- `_require_billing_fields_on_substantive_edit`. -/
def requireBillingFields (r : ServiceUpdateRequest) (c : Reconciled) : Bool :=
  !r.isSubstantive ||
    (c.taskType.join.isSome && r.costPerUnit.join.isSome && r.unitSize.join.isSome &&
      r.tierIds.join.isSome &&
      (c.taskType.join ≠ some llm ||
        (r.cachedInputCostPerUnit.join.isSome && r.outputCostPerUnit.join.isSome)) &&
      checkLlmTokenPrices c.taskType.join r.costPerUnit.join r.cachedInputCostPerUnit.join
        r.outputCostPerUnit.join)

/-- The single fields of a body. -/
def ServiceUpdateRequest.validFields (r : ServiceUpdateRequest) : Bool :=
  r.costPerUnit.join.all validPrice && r.cachedInputCostPerUnit.join.all validPrice &&
    r.outputCostPerUnit.join.all validPrice && r.unitSize.join.all validUnitSize &&
    r.tierIds.join.all validTierIds

def ServiceUpdateRequest.validate (r : ServiceUpdateRequest) : Option Reconciled :=
  if r.validFields then (reconcileUlcaFields r).filter (requireBillingFields r) else none

/-! ## Handlers -/

/-- The columns of `mm_services` that the handlers read or write for these requests. A schema that
is null is empty. -/
structure Service where
  serviceId : Text
  name : Text
  endpoint : Option Text
  taskType : Option Text
  costPerUnit : Option ℚ
  cachedInputCostPerUnit : Option ℚ
  outputCostPerUnit : Option ℚ
  unitSize : Option Int
  unitRate : Option ℚ
  inferenceSchema : List Entry
  tierIds : List Text
  isPublished : Bool
  isTryItDefault : Bool
  isDeleted : Bool
  deriving DecidableEq, Repr

/-- A registered model: its `task.type`, and its `schema` where it has one. -/
structure Model where
  taskType : Option Text
  schema : Option Entry
  deriving DecidableEq, Repr

/-- What else is looked at. -/
structure Checks where
  /-- `get_by_id_version` -/
  model : Text → Text → Option Model
  /-- the endpoint of a request answers, and as expected -/
  endpointAnswers : Text → Option Text → Bool
  /-- `_validate_tier_ids_exist` -/
  tiersExist : List Text → Bool
  /-- `_validate_description_length_on_update` -/
  descriptionFits : Text → Option Text → Bool

/-- `get_by_service_id`. -/
def getByServiceId (services : List Service) (id : Text) : Option Service :=
  services.find? fun s => s.serviceId = id && !s.isDeleted

/-- `_resolve_inference_schema`. -/
def resolveInferenceSchema (supplied : Option (List Entry)) (model : Model) (taskType : Text) :
    Option (List Entry) :=
  let schema : Option (List Entry) :=
    if supplied.getD [] ≠ [] then supplied
    else (model.schema.map fun e => [{ e with taskType := e.taskType.or model.taskType }]).filter
      validateInferenceSchemaEntries
  schema.filter (schemaMatchesTaskType (some taskType))

/-- What the columns of prices keep. -/
def price (x : ℚ) : ℚ := toScale 8 x

/-- `create_service`. -/
def createService (checks : Checks) (services : List Service) (r : ServiceCreateRequest) :
    Option (List Service) := do
  let taskType ← r.validate
  let model ← checks.model r.modelId r.modelVersion
  let ep := r.inferenceEndPoint.getD .empty
  let url := orElse ep.callbackUrl r.endpoint
  guard (checks.endpointAnswers r.serviceId url && checks.tiersExist r.tierIds &&
    services.all fun s => s.name ≠ r.name && s.serviceId ≠ r.serviceId)
  let schema ← resolveInferenceSchema ep.endpointSchema model taskType
  return services ++ [
    { serviceId := r.serviceId
      name := r.name
      endpoint := url
      taskType := some taskType
      costPerUnit := some (price r.costPerUnit)
      cachedInputCostPerUnit := r.cachedInputCostPerUnit.map price
      outputCostPerUnit := r.outputCostPerUnit.map price
      unitSize := some r.unitSize
      unitRate := some (price (r.costPerUnit / r.unitSize))
      inferenceSchema := schema
      tierIds := r.tierIds
      isPublished := false
      isTryItDefault := false
      isDeleted := false }]

/-- `_validate_schema_task_type_consistency_on_update`. -/
def schemaConsistent (c : Reconciled) (s : Service) : Bool :=
  if c.taskType.join.isSome = c.endpointSchema.isSome then true
  else schemaMatchesTaskType (c.taskType.join.or s.taskType)
    (c.endpointSchema.getD s.inferenceSchema)

/-- The rate, where there is a price and a unit. -/
def unitRate (cost : Option ℚ) (size : Option Int) : Option ℚ :=
  match cost, size with
  | some cost, some size => if 0 < size then some (price (cost / size)) else none
  | _, _ => none

/-- The row with `update_data`. -/
def applyUpdates (s : Service) (r : ServiceUpdateRequest) (c : Reconciled) : Service :=
  let clears := c.taskType.any (· ≠ some llm)
  { s with
    endpoint := c.endpoint.getD s.endpoint
    taskType := c.taskType.getD s.taskType
    costPerUnit := (r.costPerUnit.map (·.map price)).getD s.costPerUnit
    cachedInputCostPerUnit :=
      if clears then none
      else (r.cachedInputCostPerUnit.map (·.map price)).getD s.cachedInputCostPerUnit
    outputCostPerUnit :=
      if clears then none
      else (r.outputCostPerUnit.map (·.map price)).getD s.outputCostPerUnit
    unitSize := r.unitSize.getD s.unitSize
    unitRate :=
      if r.costPerUnit.isSome || r.unitSize.isSome then
        unitRate (r.costPerUnit.getD s.costPerUnit) (r.unitSize.getD s.unitSize)
      else s.unitRate
    inferenceSchema := c.endpointSchema.getD s.inferenceSchema
    tierIds := (r.tierIds.map (·.getD [])).getD s.tierIds
    isPublished := (r.isPublished.map (·.getD false)).getD s.isPublished
    isTryItDefault := (r.isTryItDefault.map (·.getD false)).getD s.isTryItDefault }

/-- `clear_try_it_default`. -/
def clearTryItDefault (taskType : Option Text) (id : Text) (s : Service) : Service :=
  if s.taskType = taskType ∧ s.serviceId ≠ id then { s with isTryItDefault := false } else s

/-- The description that is sent in either field fits. -/
def descriptionFits (checks : Checks) (r : ServiceUpdateRequest) : Bool :=
  checks.descriptionFits r.serviceId (r.description.join.or r.serviceDescription.join)

/-- `set(a) == set(b)`. -/
def sameTiers (a b : List Text) : Bool := a.all (· ∈ b) && b.all (· ∈ a)

/-- The endpoint is asked where it is sent, or what it should answer. -/
def endpointFits (checks : Checks) (s : Service) (r : ServiceUpdateRequest) (c : Reconciled) :
    Bool :=
  (c.endpoint.join.getD [] = [] && r.expectedResponseSchema.join.isNone) ||
    checks.endpointAnswers r.serviceId (orElse c.endpoint.join s.endpoint)

/-- `update_service`. -/
def updateService (checks : Checks) (services : List Service) (r : ServiceUpdateRequest)
    (updatedBy : Bool) : Option (List Service) := do
  let c ← r.validate
  let instance_ ← getByServiceId services r.serviceId
  guard (r.serviceId ≠ [] && schemaConsistent c instance_ && descriptionFits checks r &&
    endpointFits checks instance_ r c &&
    r.tierIds.join.all (fun ids => sameTiers ids instance_.tierIds || checks.tiersExist ids) &&
    (r.isSubstantive || r.isPublished.isSome || r.isTryItDefault.isSome || updatedBy))
  let makesDefault := r.isTryItDefault.join = some true && instance_.taskType.getD [] ≠ []
  let updated := applyUpdates instance_ r c
  return services.map fun s =>
    if s = instance_ then updated
    else if makesDefault then clearTryItDefault instance_.taskType r.serviceId s else s

/-- `update_service_endpoints`: all of the items are looked at before any is written. -/
def updateServiceEndpoints (checks : Checks) (services : List Service)
    (items : List (Text × Text)) : Option (List Service) :=
  if items.all fun item => (getByServiceId services item.1).isSome &&
      checks.endpointAnswers item.1 (some item.2) then
    some (items.foldl (fun services item => services.map fun s =>
      if s.serviceId = item.1 ∧ !s.isDeleted then { s with endpoint := some item.2 } else s)
      services)
  else none

/-- `delete_service`. -/
def deleteService (services : List Service) (id : Text) : Option (List Service) := do
  let instance_ ← getByServiceId services id
  guard (!instance_.isPublished)
  return services.map fun s =>
    if s.serviceId = id ∧ !s.isDeleted then { s with isDeleted := true } else s

inductive Request
  | create (r : ServiceCreateRequest)
  | update (r : ServiceUpdateRequest) (updatedBy : Bool)
  | updateEndpoints (items : List (Text × Text))
  | delete (id : Text)

/-- A request that is accepted, and the rows after it. -/
def step (checks : Checks) (services : List Service) : Request → Option (List Service)
  | .create r => createService checks services r
  | .update r updatedBy => updateService checks services r updatedBy
  | .updateEndpoints items => updateServiceEndpoints checks services items
  | .delete id => deleteService services id

/-! ## What is meant -/

/-- What billing needs of a row. -/
structure Priceable (s : Service) : Prop where
  unit : ∃ n, s.unitSize = some n ∧ 1 ≤ n
  cost : s.costPerUnit.isSome = true
  llmPrices : s.taskType = some llm →
    s.cachedInputCostPerUnit.isSome = true ∧ s.outputCostPerUnit.isSome = true
  otherPrices : s.taskType ≠ some llm →
    s.cachedInputCostPerUnit = none ∧ s.outputCostPerUnit = none
  rate : ∀ cost n, s.costPerUnit = some cost → s.unitSize = some n →
    ∃ rate, s.unitRate = some rate ∧ |rate - cost / n| ≤ 1 / 10 ^ 8
  schema : s.inferenceSchema ≠ [] → ∃ t, s.taskType = some t ∧
    ∃ e ∈ s.inferenceSchema, ∃ t', e.taskType = some t' ∧ t' ∈ equivalents t

/-! ## Task types and schemas -/

theorem ne_nil_of_mem_taskTypes {t : Text} (h : t ∈ taskTypes) : t ≠ [] := by
  have hall : ∀ t ∈ taskTypes, t ≠ [] := by
    unfold taskTypes
    simp
  exact hall t h

theorem mem_of_resolveTaskType {value t : Text} (h : resolveTaskType value = some t) :
    t ∈ taskTypes := List.mem_of_find?_eq_some h

theorem resolveField_some {resolve : Text → Option Text} {value : Option Text} {t : Text}
    (h : resolveField resolve value = some (some t)) :
    ∃ v, value = some v ∧ resolve v = some t := by
  cases value with
  | none => cases h
  | some v =>
    obtain ⟨t', ht', heq⟩ := Option.map_eq_some_iff.mp h
    exact ⟨v, rfl, by rw [ht', heq]⟩

theorem resolveField_none {resolve : Text → Option Text} {value : Option Text}
    (h : resolveField resolve value = some none) : value = none := by
  cases value with
  | none => rfl
  | some v =>
    obtain ⟨t', -, heq⟩ := Option.map_eq_some_iff.mp h
    cases heq

/-- A task type that is merged is a task type; without one neither field has any. -/
theorem mergedTaskType_spec {task taskType merged : Option Text}
    (h : mergedTaskType task taskType = some merged) :
    (∀ t, merged = some t → t ∈ taskTypes) ∧ (merged = none → taskType = none) := by
  obtain ⟨nested, hnested, h⟩ := Option.bind_eq_some_iff.mp h
  obtain ⟨flat, hflat, rfl⟩ := Option.map_eq_some_iff.mp h
  cases nested with
  | some t =>
    refine ⟨fun t' ht' => ?_, fun hnone => by cases hnone⟩
    obtain ⟨v, -, hv⟩ := resolveField_some hnested
    obtain rfl := Option.some.inj ht'
    exact mem_of_resolveTaskType hv
  | none =>
    rw [Option.none_or]
    refine ⟨fun t' ht' => ?_, fun hnone => ?_⟩
    · rw [ht'] at hflat
      obtain ⟨v, -, hv⟩ := resolveField_some hflat
      exact mem_of_resolveTaskType hv
    · rw [hnone] at hflat
      exact resolveField_none hflat

/-- A schema that matches has an entry of the task. -/
theorem exists_of_schemaMatches {t : Text} {entries : List Entry} (ht : t ∈ taskTypes)
    (h : schemaMatchesTaskType (some t) entries = true) (hne : entries ≠ []) :
    ∃ e ∈ entries, ∃ t', e.taskType = some t' ∧ t' ∈ equivalents t := by
  unfold schemaMatchesTaskType at h
  simp only [Option.getD_some, ne_nil_of_mem_taskTypes ht, hne, decide_false, Bool.false_or,
    List.any_eq_true] at h
  obtain ⟨e, he, hmatch⟩ := h
  cases htype : e.taskType with
  | none =>
    rw [htype] at hmatch
    cases hmatch
  | some t' =>
    rw [htype] at hmatch
    exact ⟨e, he, t', htype, of_decide_eq_true hmatch⟩

/-! ## Rates -/

/-- A column keeps a price up to half a unit of its last decimal. -/
theorem abs_price_sub_le (x : ℚ) : |price x - x| ≤ 1 / 2 / 10 ^ 8 := by
  obtain ⟨hlow, hhigh⟩ := nearest_halfUp (x * 10 ^ 8)
  have heq : price x - x = (halfUp (x * 10 ^ 8) - x * 10 ^ 8) / 10 ^ 8 := by
    unfold price toScale
    field_simp
  rw [heq, abs_div, abs_of_pos (show (0 : ℚ) < 10 ^ 8 by norm_num)]
  refine div_le_div_of_nonneg_right ?_ (by norm_num)
  rw [abs_le]
  constructor <;> linarith

/-- The rate of the price that is sent is that of the price that is kept, up to a unit of the last
decimal. -/
theorem abs_rate_sub_le {cost : ℚ} {n : Int} (hn : 1 ≤ n) :
    |price (cost / n) - price cost / n| ≤ 1 / 10 ^ 8 := by
  have hn' : (1 : ℚ) ≤ n := by exact_mod_cast hn
  have hpos : (0 : ℚ) < n := by linarith
  have hrate := abs_price_sub_le (cost / n)
  have hcost : |cost / n - price cost / n| ≤ 1 / 2 / 10 ^ 8 := by
    rw [← sub_div, abs_div, abs_of_pos hpos, abs_sub_comm]
    calc |price cost - cost| / (n : ℚ)
        ≤ |price cost - cost| := div_le_self (abs_nonneg _) hn'
      _ ≤ 1 / 2 / 10 ^ 8 := abs_price_sub_le cost
  calc |price (cost / n) - price cost / n|
      ≤ |price (cost / n) - cost / n| + |cost / n - price cost / n| := abs_sub_le _ _ _
    _ ≤ 1 / 2 / 10 ^ 8 + 1 / 2 / 10 ^ 8 := add_le_add hrate hcost
    _ = 1 / 10 ^ 8 := by norm_num

/-! ## The handlers -/

/-- A row that differs in none of the columns of prices. -/
theorem Priceable.congr {s s' : Service} (h : Priceable s) (htask : s'.taskType = s.taskType)
    (hcost : s'.costPerUnit = s.costPerUnit)
    (hcached : s'.cachedInputCostPerUnit = s.cachedInputCostPerUnit)
    (houtput : s'.outputCostPerUnit = s.outputCostPerUnit) (hunit : s'.unitSize = s.unitSize)
    (hrate : s'.unitRate = s.unitRate) (hschema : s'.inferenceSchema = s.inferenceSchema) :
    Priceable s' := by
  obtain ⟨h₁, h₂, h₃, h₄, h₅, h₆⟩ := h
  constructor
  · rwa [hunit]
  · rwa [hcost]
  · rwa [htask, hcached, houtput]
  · rwa [htask, hcached, houtput]
  · rwa [hcost, hunit, hrate]
  · rwa [htask, hschema]

theorem priceable_create {checks : Checks} {services services' : List Service}
    {r : ServiceCreateRequest} (hs : ∀ s ∈ services, Priceable s)
    (h : createService checks services r = some services') : ∀ s ∈ services', Priceable s := by
  obtain ⟨taskType, hvalidate, h⟩ := Option.bind_eq_some_iff.mp h
  obtain ⟨model, -, h⟩ := Option.bind_eq_some_iff.mp h
  obtain ⟨-, -, h⟩ := Option.bind_eq_some_iff.mp h
  obtain ⟨schema, hschema, h⟩ := Option.bind_eq_some_iff.mp h
  obtain rfl := Option.some.inj h
  obtain ⟨htype, haccepts⟩ := Option.filter_eq_some_iff.mp hvalidate
  obtain ⟨merged, hmerged, htype⟩ := Option.bind_eq_some_iff.mp htype
  have hmem := (mergedTaskType_spec hmerged).1 taskType htype
  obtain ⟨-, hmatch⟩ := Option.filter_eq_some_iff.mp hschema
  unfold ServiceCreateRequest.accepts validUnitSize checkLlmTokenPrices at haccepts
  simp only [Bool.and_eq_true, decide_eq_true_eq] at haccepts
  obtain ⟨⟨⟨-, hunit, -⟩, -⟩, hprices⟩ := haccepts
  intro s hmem'
  rcases List.mem_append.mp hmem' with hmem' | hmem'
  · exact hs s hmem'
  · rw [List.mem_singleton.mp hmem']
    constructor
    · exact ⟨r.unitSize, rfl, hunit⟩
    · rfl
    · intro hllm
      rw [if_pos hllm] at hprices
      simpa using hprices
    · intro hother
      rw [if_neg hother] at hprices
      simpa using hprices
    · intro cost n hcost hn
      obtain rfl := Option.some.inj hcost
      obtain rfl := Option.some.inj hn
      exact ⟨_, rfl, abs_rate_sub_le hunit⟩
    · intro hne
      exact ⟨taskType, rfl, exists_of_schemaMatches hmem hmatch hne⟩

/-- What is validated: the task type that is stored, and the schema with it. -/
theorem reconcile_spec {r : ServiceUpdateRequest} {c : Reconciled}
    (h : reconcileUlcaFields r = some c) :
    (∀ t, c.taskType.join = some t → t ∈ taskTypes) ∧
      (∀ t entries, c.taskType.join = some t → c.endpointSchema = some entries →
        schemaMatchesTaskType (some t) entries = true) ∧
      (r.task = none → r.taskType = none → c.taskType = none) ∧
      (r.inferenceEndPoint = none → c.endpointSchema = none) := by
  obtain ⟨merged, hmerged, h⟩ := Option.bind_eq_some_iff.mp h
  dsimp only at h
  split at h
  · rename_i hchecks
    obtain rfl := Option.some.inj h
    obtain ⟨htypes, hflat⟩ := mergedTaskType_spec hmerged
    have hstored : ∀ t, (if merged.isSome then some merged else r.taskType).join = some t →
        merged = some t := by
      intro t ht
      cases merged with
      | some t' => simpa using ht
      | none =>
        rw [if_neg (by simp), hflat rfl] at ht
        cases ht
    refine ⟨fun t ht => htypes t (hstored t ht), ?_, ?_, ?_⟩
    · intro t entries ht hentries
      dsimp only at ht hentries
      rw [hstored t ht] at hchecks
      simp only [Bool.and_eq_true, Bool.or_eq_true, Option.isNone_some, Bool.false_eq_true,
        false_or, hentries, Option.getD_some] at hchecks
      exact hchecks.1.2
    · intro htask htaskType
      rw [htask, htaskType] at hmerged
      have hnone : merged = none := (Option.some.inj hmerged).symm
      rw [hnone, htaskType]
      rfl
    · intro hep
      rw [hep]
      rfl
  · cases h

theorem one_le_of_validFields {r : ServiceUpdateRequest} {n : Int} (h : r.validFields = true)
    (hn : r.unitSize.join = some n) : 1 ≤ n := by
  unfold ServiceUpdateRequest.validFields at h
  rw [hn] at h
  simp only [Bool.and_eq_true, Option.all_some, validUnitSize, decide_eq_true_eq] at h
  exact h.1.2.1

theorem priceable_substantive {r : ServiceUpdateRequest} {c : Reconciled} {s : Service}
    (hfields : r.validFields = true)
    (hbilling : requireBillingFields r c = true) (hsubstantive : r.isSubstantive = true)
    (htypes : ∀ t, c.taskType.join = some t → t ∈ taskTypes)
    (hmatches : ∀ t entries, c.taskType.join = some t → c.endpointSchema = some entries →
      schemaMatchesTaskType (some t) entries = true)
    (hschema : schemaConsistent c s = true) : Priceable (applyUpdates s r c) := by
  unfold requireBillingFields at hbilling
  rw [hsubstantive, Bool.not_true, Bool.false_or] at hbilling
  simp only [Bool.and_eq_true] at hbilling
  obtain ⟨⟨⟨⟨⟨htask, hcost⟩, hsize⟩, -⟩, hllm⟩, -⟩ := hbilling
  obtain ⟨t, ht⟩ := Option.isSome_iff_exists.mp htask
  obtain ⟨cost, hcost⟩ := Option.isSome_iff_exists.mp hcost
  obtain ⟨n, hn⟩ := Option.isSome_iff_exists.mp hsize
  have hunit : 1 ≤ n := one_le_of_validFields hfields hn
  have htask' := Option.join_eq_some_iff.mp ht
  have hcost' := Option.join_eq_some_iff.mp hcost
  have hn' := Option.join_eq_some_iff.mp hn
  have htaskType : (applyUpdates s r c).taskType = some t := by simp [applyUpdates, htask']
  constructor
  · exact ⟨n, by simp [applyUpdates, hn'], hunit⟩
  · simp [applyUpdates, hcost']
  · intro hllm'
    rw [htaskType] at hllm'
    rw [ht, hllm', decide_eq_false (not_not_intro rfl), Bool.false_or, Bool.and_eq_true] at hllm
    obtain ⟨cached, hcached⟩ := Option.isSome_iff_exists.mp hllm.1
    obtain ⟨output, houtput⟩ := Option.isSome_iff_exists.mp hllm.2
    simp [applyUpdates, htask', hllm', Option.join_eq_some_iff.mp hcached,
      Option.join_eq_some_iff.mp houtput]
  · intro hother
    rw [htaskType] at hother
    have hclears : c.taskType.any (· ≠ some llm) = true := by simpa [htask'] using hother
    exact ⟨if_pos hclears, if_pos hclears⟩
  · intro cost' n' hcost'' hn''
    have hpos : 0 < n := by omega
    have hcost₂ : price cost = cost' := by simpa [applyUpdates, hcost'] using hcost''
    have hn₂ : n = n' := by simpa [applyUpdates, hn'] using hn''
    rw [← hcost₂, ← hn₂]
    exact ⟨price (cost / n), by simp [applyUpdates, hcost', hn', unitRate, hpos],
      abs_rate_sub_le hunit⟩
  · -- the schema is sent with the task, or is compared with it
    intro hne
    refine ⟨t, htaskType, exists_of_schemaMatches (htypes t ht) ?_ hne⟩
    unfold schemaConsistent at hschema
    cases hsent : c.endpointSchema with
    | some entries =>
      have heq : (applyUpdates s r c).inferenceSchema = entries := by simp [applyUpdates, hsent]
      rw [heq]
      exact hmatches t entries ht hsent
    | none =>
      have heq : (applyUpdates s r c).inferenceSchema = s.inferenceSchema := by
        simp [applyUpdates, hsent]
      rw [heq]
      simpa [ht, hsent] using hschema

/-- The publish toggle sends none of the columns of prices. -/
theorem fields_of_toggle {r : ServiceUpdateRequest} (h : r.isSubstantive = false) :
    r.task = none ∧ r.taskType = none ∧ r.inferenceEndPoint = none ∧ r.costPerUnit = none ∧
      r.cachedInputCostPerUnit = none ∧ r.outputCostPerUnit = none ∧ r.unitSize = none := by
  unfold ServiceUpdateRequest.isSubstantive at h
  simp only [Bool.or_eq_false_iff, Option.isSome_eq_false_iff, Option.isNone_iff_eq_none] at h
  obtain ⟨⟨⟨⟨⟨⟨⟨h, hcost⟩, hcached⟩, houtput⟩, hsize⟩, -⟩, -⟩, -⟩ := h
  obtain ⟨⟨⟨⟨⟨-, htask⟩, htype⟩, hep⟩, -⟩, -⟩ := h
  exact ⟨htask, htype, hep, hcost, hcached, houtput, hsize⟩

/-- A body that is accepted is the publish toggle, or has a task type with its prices. -/
theorem priceable_applyUpdates {r : ServiceUpdateRequest} {c : Reconciled} {s : Service}
    (hs : Priceable s) (hvalidate : r.validate = some c) (hschema : schemaConsistent c s = true) :
    Priceable (applyUpdates s r c) := by
  unfold ServiceUpdateRequest.validate at hvalidate
  split at hvalidate
  · rename_i hfields
    obtain ⟨hreconcile, hbilling⟩ := Option.filter_eq_some_iff.mp hvalidate
    obtain ⟨htypes, hmatches, hnoTask, hnoSchema⟩ := reconcile_spec hreconcile
    by_cases hsubstantive : r.isSubstantive = true
    · exact priceable_substantive hfields hbilling hsubstantive htypes hmatches hschema
    · obtain ⟨htask, htype, hep, hcost, hcached, houtput, hsize⟩ :=
        fields_of_toggle (Bool.not_eq_true _ ▸ hsubstantive)
      have htype' := hnoTask htask htype
      have hschema' := hnoSchema hep
      refine hs.congr ?_ ?_ ?_ ?_ ?_ ?_ ?_ <;>
        simp [applyUpdates, htype', hschema', hcost, hcached, houtput, hsize]
  · cases hvalidate

theorem priceable_update {checks : Checks} {services services' : List Service}
    {r : ServiceUpdateRequest} {updatedBy : Bool} (hs : ∀ s ∈ services, Priceable s)
    (h : updateService checks services r updatedBy = some services') :
    ∀ s ∈ services', Priceable s := by
  obtain ⟨c, hvalidate, h⟩ := Option.bind_eq_some_iff.mp h
  obtain ⟨instance_, hget, h⟩ := Option.bind_eq_some_iff.mp h
  obtain ⟨_, hguard, h⟩ := Option.bind_eq_some_iff.mp h
  obtain rfl := Option.some.inj h
  have hchecks := (Option.guard_eq_some' _).mp hguard
  simp only [Bool.and_eq_true] at hchecks
  obtain ⟨⟨⟨⟨⟨-, hschema⟩, -⟩, -⟩, -⟩, -⟩ := hchecks
  intro s' hs'
  obtain ⟨s, hmem, rfl⟩ := List.mem_map.mp hs'
  split
  · exact priceable_applyUpdates (hs _ (List.mem_of_find?_eq_some hget)) hvalidate hschema
  · split
    · unfold clearTryItDefault
      split
      · exact (hs s hmem).congr rfl rfl rfl rfl rfl rfl rfl
      · exact hs s hmem
    · exact hs s hmem

theorem priceable_updateEndpoints {checks : Checks} {services services' : List Service}
    {items : List (Text × Text)} (hs : ∀ s ∈ services, Priceable s)
    (h : updateServiceEndpoints checks services items = some services') :
    ∀ s ∈ services', Priceable s := by
  unfold updateServiceEndpoints at h
  split at h
  · rename_i hitems
    clear hitems
    obtain rfl := Option.some.inj h
    induction items generalizing services with
    | nil => exact hs
    | cons item items ih =>
      refine ih ?_ rfl
      intro s' hs'
      obtain ⟨s, hmem, rfl⟩ := List.mem_map.mp hs'
      split
      · exact (hs s hmem).congr rfl rfl rfl rfl rfl rfl rfl
      · exact hs s hmem
  · cases h

theorem priceable_delete {services services' : List Service} {id : Text}
    (hs : ∀ s ∈ services, Priceable s) (h : deleteService services id = some services') :
    ∀ s ∈ services', Priceable s := by
  obtain ⟨instance_, -, h⟩ := Option.bind_eq_some_iff.mp h
  obtain ⟨-, -, h⟩ := Option.bind_eq_some_iff.mp h
  obtain rfl := Option.some.inj h
  intro s' hs'
  obtain ⟨s, hmem, rfl⟩ := List.mem_map.mp hs'
  split
  · exact (hs s hmem).congr rfl rfl rfl rfl rfl rfl rfl
  · exact hs s hmem

theorem priceable_step {checks : Checks} {services services' : List Service} {request : Request}
    (hs : ∀ s ∈ services, Priceable s) (h : step checks services request = some services') :
    ∀ s ∈ services', Priceable s := by
  cases request with
  | create r => exact priceable_create hs h
  | update r updatedBy => exact priceable_update hs h
  | updateEndpoints items => exact priceable_updateEndpoints hs h
  | delete id => exact priceable_delete hs h

/-- After any requests that are accepted, in any order, every row is one that billing can price. -/
theorem services_stay_priceable (checks : Checks) {services services' : List Service}
    {requests : List Request} (hs : ∀ s ∈ services, Priceable s)
    (h : Run (step checks) services requests services') : ∀ s ∈ services', Priceable s :=
  Run.invariant (fun _ _ _ hs h => priceable_step hs h) h hs

private def asr : Text := ['a', 's', 'r']

/-- Every endpoint answers, every tier exists, and there is one model. -/
def answering : Checks where
  model _ _ := some ⟨some asr, some ⟨none, true, true⟩⟩
  endpointAnswers _ _ := true
  tiersExist _ := true
  descriptionFits _ _ := true

private def created : ServiceCreateRequest where
  serviceId := ['s']
  name := ['n']
  modelId := ['m']
  modelVersion := ['1']
  task := some asr
  taskType := none
  inferenceEndPoint := none
  endpoint := some ['u']
  costPerUnit := 1 / 8
  cachedInputCostPerUnit := none
  outputCostPerUnit := none
  unitSize := 3
  tierIds := [['t']]

/-- The service is to be an LLM from now on. -/
private def edited : ServiceUpdateRequest where
  serviceId := ['s']
  description := none
  serviceDescription := none
  hardwareDescription := none
  task := none
  taskType := some (some ['L', 'L', 'M'])
  inferenceEndPoint := some (some ⟨none, some [⟨some llm, true, true⟩], none⟩)
  endpoint := none
  apiKey := none
  isPublished := none
  isTryItDefault := none
  costPerUnit := some (some (1 / 3))
  cachedInputCostPerUnit := some (some 0)
  outputCostPerUnit := some (some 2)
  unitSize := some (some 7)
  tierIds := some (some [['t']])
  expectedResponseSchema := none
  others := false

private def priced : Service where
  serviceId := ['s']
  name := ['n']
  endpoint := some ['v']
  taskType := some llm
  costPerUnit := some (33333333 / 100000000)
  cachedInputCostPerUnit := some 0
  outputCostPerUnit := some 2
  unitSize := some 7
  unitRate := some (4761905 / 100000000)
  inferenceSchema := [⟨some llm, true, true⟩]
  tierIds := [['t']]
  isPublished := false
  isTryItDefault := false
  isDeleted := false

theorem edited_service_priceable : Priceable priced := by
  have hrun : Run (step answering) []
      [.create created, .update edited true, .updateEndpoints [(['s'], ['v'])]] [priced] := by
    decide +kernel
  exact services_stay_priceable answering (fun s hs => by cases hs) hrun priced
    (List.mem_singleton_self _)

end Ai4iCore.Registry.ServicePrices
