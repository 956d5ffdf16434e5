import Ai4iCore.Alert.Receivers
import Ai4iCore.Base.AlertRouting
import Ai4iCore.Base.Promql

/-!
# Alert definitions

The PromQL of an alert definition (promql_builder.py) and the Prometheus rule that is rendered
from it (config_renderer.py). Expressions are taken as Prometheus reads them; what the renderer
does to their text it does here to the selectors and to the lists of `sum by`.

Every expression over the metrics of requests keeps the label of the tenant
(`buildPromql_keeps`), and so does the rule (`tenant_of_raised`).
-/

namespace Ai4iCore.Alert

open Checked
open AlertRouting
open Promql
open Ai4iCore.Task (Text strip lower)

/-! ## Builders -/

/-- A threshold as it is written into the expression; a quotient is computed in floating point. -/
inductive Threshold (F : Type) : Type
  | value (v : F)
  | over (v : F) (divisor : Nat)
  deriving DecidableEq, Repr

variable {F : Type}

abbrev AlertExpr (F : Type) := Expr String Text (Threshold F)

/-- `t.strip().lower().replace(" ", "_")`. -/
def underscored (t : Text) : Text := (lower (strip t)).map fun c => if c = ' ' then '_' else c

/-- `SIGNAL_METRICS_CONFIG[...]`, by the signal. -/
inductive SignalMetric
  | latency (quantile : Text)
  | errorRate (statusRegex : Text)
  /-- `infra_type`, and the signal -/
  | infra (infraType signal : Text)
  deriving DecidableEq, Repr

def SignalMetric.signal : SignalMetric → Text
  | latency _ => "latency".toList
  | errorRate _ => "error_rate".toList
  | infra _ signal => signal

def signalMetricsConfig : Dict Text SignalMetric :=
  [("latency_p50".toList, .latency "0.5".toList), ("latency_p99".toList, .latency "0.99".toList),
    ("error_rate_4xx".toList, .errorRate "[4]..".toList),
    ("error_rate_5xx".toList, .errorRate "5..".toList),
    ("error_rate_timeout".toList, .errorRate "408|504".toList),
    ("total_cpu_usage".toList, .infra "cpu".toList "cpu_utilization".toList),
    ("total_memory_usage".toList, .infra "memory".toList "memory_utilization".toList),
    ("total_disk_usage".toList, .infra "disk".toList "disk_utilization".toList)]

/-- The category and the signals of `SUB_CATEGORIES_CONFIG`. -/
def subCategoriesConfig : Dict Text (Text × List Text) :=
  [("performance".toList, "application".toList, ["latency".toList]),
    ("availability".toList, "application".toList, ["error_rate".toList]),
    ("compute".toList, "infrastructure".toList,
      ["cpu_utilization".toList, "memory_utilization".toList]),
    ("storage".toList, "infrastructure".toList, ["disk_utilization".toList])]

/-- `SIGNALS_CONFIG`: its keys. -/
def signalsConfig : List Text :=
  ["latency".toList, "error_rate".toList, "cpu_utilization".toList, "memory_utilization".toList,
    "disk_utilization".toList]

/-- `SIGNAL_METRIC_LABEL_TO_KEY`. -/
def signalMetricLabelToKey : Dict Text Text :=
  [("4xx_error_rate".toList, "error_rate_4xx".toList),
    ("5xx_error_rate".toList, "error_rate_5xx".toList),
    ("timeout_error_rate".toList, "error_rate_timeout".toList),
    ("total_cpu_usage".toList, "total_cpu_usage".toList),
    ("total_memory_usage".toList, "total_memory_usage".toList),
    ("total_disk_usage".toList, "total_disk_usage".toList)]

def conditionOperatorsList : List Text := [">".toList, ">=".toList, "<".toList, "<=".toList]

/-- `_normalize_alert_type`. -/
def normalizeAlertType (alertType : Text) : Text :=
  let t := underscored alertType
  if t = "errorrate".toList then "error_rate".toList
  else if t ∈ ["latency".toList, "error_rate".toList, "cpu".toList, "memory".toList,
      "disk".toList] then t
  else strip alertType

/-- `_DEFAULT_ENDPOINT_SELECTOR`. -/
def defaultEndpointSelector (pathLabel : String) : LabelMatch String Text :=
  ⟨pathLabel, .re, "/.*inference.*".toList⟩

/-- Requests by path and tenant, of some status. -/
def requestRate (pathLabel : String) (status : List (LabelMatch String Text)) : AlertExpr F :=
  .sumBy [pathLabel, "tenant"]
    (.rate "telemetry_obsv_requests_total".toList (status ++ [defaultEndpointSelector pathLabel]))

/-- Latency by path and tenant. -/
def latencyQuantile (pathLabel : String) (quantile : Text) : AlertExpr F :=
  .histogramQuantile "le" quantile (.sumBy ["le", pathLabel, "tenant"]
    (.rate "telemetry_obsv_request_duration_seconds_bucket".toList
      [defaultEndpointSelector pathLabel]))

/-- The share of requests with a status of this kind. -/
def errorRatio (pathLabel : String) (statusRegex : Text) : AlertExpr F :=
  .ratio (requestRate pathLabel [⟨"status_code", .re, statusRegex⟩]) (requestRate pathLabel [])

/-- The expression over `node_*` metrics for a type of infrastructure. -/
def nodeExpr (infraType : Text) : AlertExpr F := .scalar <|
  if infraType = "cpu".toList then
    ("100 * (1 - (sum(rate(node_cpu_seconds_total\x7bmode=\"idle\"\x7d[5m])) " ++
      "/ sum(rate(node_cpu_seconds_total[5m]))))").toList
  else if infraType = "memory".toList then
    "max(100 * (1 - (node_memory_MemAvailable_bytes / node_memory_MemTotal_bytes)))".toList
  else
    ("max(100 * (1 - (node_filesystem_avail_bytes" ++
      "\x7bfstype!~\"tmpfs|ramfs|overlay\", mountpoint=\"/\"\x7d " ++
      "/ node_filesystem_size_bytes" ++
      "\x7bfstype!~\"tmpfs|ramfs|overlay\", mountpoint=\"/\"\x7d)))").toList

/-- `build_promql_from_threshold`. -/
def buildPromqlFromThreshold (pathLabel : String) (category alertType : Text) (value : F)
    (unit : Text) : Except Refusal (AlertExpr F) :=
  let category := if category = [] then "application".toList else lower category
  let at' := normalizeAlertType alertType
  if category = "application".toList then
    if at' = "latency".toList then
      .ok (.compare ">".toList (latencyQuantile pathLabel "0.5".toList) (.value value))
    else if at' = "error_rate".toList then
      .ok (.compare ">".toList (errorRatio pathLabel "[45]..".toList)
        (if lower unit = "percent".toList then .over value 100 else .value value))
    else .error .validationError
  else if category = "infrastructure".toList then
    if at' ∈ ["cpu".toList, "memory".toList, "disk".toList] then
      .ok (.compare ">".toList (nodeExpr at') (.value value))
    else .error .validationError
  else .error .validationError

/-- What an alert definition is made from, as far as its expression depends on it. -/
structure SignalConfig where
  subCategory : Text
  signal : Text
  signalMetric : Text
  conditionOperator : Text

/-- `build_promql_from_signal_config`. -/
def buildPromqlFromSignalConfig (pathLabel : String) (category : Text) (config : SignalConfig)
    (value : F) (unit : Text) : Except Refusal (AlertExpr F) := do
  let category := if category = [] then "application".toList else lower category
  require (category ∈ validCategories) .validationError
  let signal := underscored config.signal
  let key := underscored config.signalMetric
  let op := strip (if config.conditionOperator = [] then ">".toList else config.conditionOperator)
  let sub ← orRaise (subCategoriesConfig.get? (underscored config.subCategory)) .validationError
  require (sub.1 = category) .validationError
  require (signal ∈ signalsConfig && signal ∈ sub.2) .validationError
  let metric ← orRaise (signalMetricsConfig.get? ((signalMetricLabelToKey.get? key).getD key))
    .validationError
  require (metric.signal = signal) .validationError
  require (op ∈ conditionOperatorsList) .validationError
  match metric with
  | .latency quantile => do
    let unit := lower (strip (if unit = [] then "s".toList else unit))
    require (unit ∈ ["ms".toList, "s".toList, "seconds".toList]) .validationError
    return .compare op (latencyQuantile pathLabel quantile)
      (if unit = "ms".toList then .over value 1000 else .value value)
  | .errorRate statusRegex => do
    let unit := lower (strip (if unit = [] then "%".toList else unit))
    require (unit ∈ ["%".toList, "percent".toList, "ratio".toList]) .validationError
    return .compare op (errorRatio pathLabel statusRegex)
      (if unit = "ratio".toList then .value value else .over value 100)
  | .infra infraType _ => do
    let unit := lower (strip (if unit = [] then "%".toList else unit))
    require (unit ∈ ["%".toList, "percent".toList]) .validationError
    return .compare op (nodeExpr infraType) (.value value)

/-! ## Scoping to tasks -/

def inferenceTasks : List Text :=
  ["nmt".toList, "asr".toList, "ocr".toList, "ner".toList, "llm".toList,
    "language_detection".toList, "tts".toList, "transliteration".toList,
    "language_diarization".toList, "speaker_diarization".toList,
    "audio_language_detection".toList, "pii".toList]

/-- One task of `_normalize_tasks`. -/
def normalizeTask (name : Text) : Text :=
  let key := lower name
  if "-service".toList.isSuffixOf key then key.take (key.length - 8) else key

/-- `_normalize_tasks`. -/
def normalizeTasks (tasks : List Text) : Except Refusal (List Text) :=
  let names := (tasks.filter nonBlank).map strip
  if names.all (normalizeTask · ∈ inferenceTasks) then
    .ok (Dict.fromKeys (names.map normalizeTask))
  else .error .validationError

/-- `inject_endpoint_into_promql`, for tasks that are normalized. -/
def injectEndpointIntoPromql (pathLabel : String) (e : AlertExpr F) : List Text → AlertExpr F
  | [] => e
  | [task] => e.mapMatchers fun m =>
      if m = defaultEndpointSelector pathLabel then
        ⟨pathLabel, .eq, "/api/v1/".toList ++ task ++ "/inference".toList⟩
      else m
  | tasks => e.mapMatchers fun m =>
      if m = defaultEndpointSelector pathLabel then
        ⟨pathLabel, .re, "/api/v1/(".toList ++ ['|'].intercalate tasks ++ ")/inference".toList⟩
      else m

/-- The fields of a request that its expression is built from. -/
structure PromqlInput (F : Type) where
  category : Text
  alertType : Option Text
  signalConfig : SignalConfig
  thresholdValue : F
  thresholdUnit : Text
  service : List Text

/-- `all([data.sub_category, data.signal, data.signal_metric, data.condition_operator])`, with
empty texts for what is missing. -/
def SignalConfig.given (c : SignalConfig) : Bool :=
  c.subCategory ≠ [] && c.signal ≠ [] && c.signalMetric ≠ [] && c.conditionOperator ≠ []

/-- The expression for all inference endpoints. -/
def buildUnscoped (pathLabel : String) (data : PromqlInput F) : Except Refusal (AlertExpr F) :=
  if data.signalConfig.given then
    buildPromqlFromSignalConfig pathLabel data.category data.signalConfig data.thresholdValue
      data.thresholdUnit
  else
    buildPromqlFromThreshold pathLabel data.category (data.alertType.getD [])
      data.thresholdValue data.thresholdUnit

/-- `_build_promql_for_create`, and the branches of `_build_update_dict` that build anew. -/
def buildPromql (pathLabel : String) (data : PromqlInput F) : Except Refusal (AlertExpr F) := do
  let tasks ← normalizeTasks data.service
  let e ← buildUnscoped pathLabel data
  return injectEndpointIntoPromql pathLabel e tasks

/-! ## Rules -/

/-- An alert definition, as far as the rule that is rendered from it shows in alerts. -/
structure AlertDefinition (F : Type) where
  name : Text
  promqlExpr : AlertExpr F
  category : Text
  severity : Text
  urgency : Text
  alertType : Option Text
  scope : Option Text

/-- The expression already groups by tenant: `", tenant)" in expr`. -/
def groupsByTenant (e : AlertExpr F) : Bool :=
  e.anyGroup fun labels => 2 ≤ labels.length && labels.getLast? = some "tenant"

/-- `inject_tenant_into_promql`. -/
def injectTenantIntoPromql (e : AlertExpr F) : AlertExpr F :=
  if groupsByTenant e then e
  else e.mapGroups fun labels =>
    if labels = ["le", "endpoint"] then ["le", "endpoint", "tenant"]
    else if labels = ["endpoint"] then ["endpoint", "tenant"]
    else labels

/-- A rule of `generate_prometheus_alerts_yaml`. -/
structure PromRule (F : Type) where
  alert : Text
  expr : AlertExpr F
  labels : Dict String Text

def promRule (d : AlertDefinition F) : PromRule F where
  alert := d.name
  expr := injectTenantIntoPromql d.promqlExpr
  labels :=
    [("severity", d.severity), ("urgency", d.urgency), ("category", d.category)] ++
      ((d.alertType.filter (· ≠ [])).map fun t => ("alert_type", t)).toList ++
      ((d.scope.filter (· ≠ [])).map fun t => ("scope", t)).toList

/-- The labels of an alert: its name, those of the rule, and those of the result. -/
def PromRule.raise (rule : PromRule F) (series : Labels String Text) : Labels String Text :=
  fun l =>
    if l = "alertname" then rule.alert
    else (rule.labels.get? l).getD (rule.expr.resultLabels [] series l)

/-- A definition in the file of application rules, over the metrics of requests. -/
structure AlertDefinition.IsApplication (d : AlertDefinition F) (pathLabel : String) : Prop where
  category : d.category = "application".toList
  built : ∃ data : PromqlInput F, lower data.category = "application".toList ∧
    buildPromql pathLabel data = .ok d.promqlExpr

/-! ## The label of the tenant -/

/-- An expression that groups by tenant, and whose results have the tenant. -/
def ByTenant (e : AlertExpr F) : Prop := e.keeps "tenant" = true ∧ groupsByTenant e = true

theorem latencyQuantile_byTenant (pathLabel : String) (quantile op : Text) (t : Threshold F) :
    ByTenant (.compare op (latencyQuantile pathLabel quantile) t) := by
  constructor
  · simp [latencyQuantile, Expr.keeps]
  · simp [groupsByTenant, latencyQuantile, Expr.anyGroup]

theorem errorRatio_byTenant (pathLabel : String) (statusRegex op : Text) (t : Threshold F) :
    ByTenant (.compare op (errorRatio pathLabel statusRegex) t) := by
  constructor
  · simp [errorRatio, requestRate, Expr.keeps]
  · simp [groupsByTenant, errorRatio, requestRate, Expr.anyGroup]

theorem ByTenant.mapMatchers {e : AlertExpr F} (h : ByTenant e)
    (f : LabelMatch String Text → LabelMatch String Text) : ByTenant (e.mapMatchers f) := by
  constructor
  · rw [Expr.keeps_mapMatchers]
    exact h.1
  · unfold groupsByTenant
    rw [Expr.anyGroup_mapMatchers]
    exact h.2

theorem ByTenant.injectEndpoint {e : AlertExpr F} (h : ByTenant e) (pathLabel : String)
    (tasks : List Text) : ByTenant (injectEndpointIntoPromql pathLabel e tasks) := by
  unfold injectEndpointIntoPromql
  split
  · exact h
  · exact h.mapMatchers _
  · exact h.mapMatchers _

theorem buildPromqlFromThreshold_byTenant {pathLabel : String} {category alertType unit : Text}
    {value : F} {e : AlertExpr F}
    (h : buildPromqlFromThreshold pathLabel category alertType value unit = .ok e)
    (hcategory : lower category = "application".toList) : ByTenant e := by
  have happlication : (if category = [] then "application".toList else lower category) =
      "application".toList := by
    split
    · rfl
    · exact hcategory
  unfold buildPromqlFromThreshold at h
  simp only [happlication, if_true] at h
  split at h
  · obtain rfl := Except.ok.inj h
    exact latencyQuantile_byTenant _ _ _ _
  · split at h
    · obtain rfl := Except.ok.inj h
      exact errorRatio_byTenant _ _ _ _
    · cases h

/-- The metrics over requests. -/
def SignalMetric.overRequests : SignalMetric → Bool
  | latency _ => true
  | errorRate _ => true
  | infra _ _ => false

/-- The signals of the application categories are those of the metrics over requests. -/
theorem overRequests_of_application {sub : Text × List Text} {metric : SignalMetric}
    {subKey key : Text} (hsub : subCategoriesConfig.get? subKey = some sub)
    (happlication : sub.1 = "application".toList) (hsignal : metric.signal ∈ sub.2)
    (hmetric : signalMetricsConfig.get? key = some metric) : metric.overRequests = true := by
  have htables : ∀ e ∈ subCategoriesConfig, e.2.1 = "application".toList →
      ∀ e' ∈ signalMetricsConfig, e'.2.signal ∈ e.2.2 → e'.2.overRequests = true := by
    decide
  exact htables _ (Dict.mem_of_get? hsub) happlication _ (Dict.mem_of_get? hmetric) hsignal

theorem buildPromqlFromSignalConfig_byTenant {pathLabel : String} {category unit : Text}
    {config : SignalConfig} {value : F} {e : AlertExpr F}
    (h : buildPromqlFromSignalConfig pathLabel category config value unit = .ok e)
    (hcategory : lower category = "application".toList) : ByTenant e := by
  have happlication : (if category = [] then "application".toList else lower category) =
      "application".toList := by
    split
    · rfl
    · exact hcategory
  unfold buildPromqlFromSignalConfig at h
  simp only [happlication] at h
  obtain ⟨-, h⟩ := require_bind h
  obtain ⟨sub, hsub, h⟩ := orRaise_bind h
  obtain ⟨hsubcategory, h⟩ := require_bind h
  obtain ⟨hsignal, h⟩ := require_bind h
  obtain ⟨metric, hmetric, h⟩ := orRaise_bind h
  obtain ⟨hmetricsignal, h⟩ := require_bind h
  obtain ⟨-, h⟩ := require_bind h
  have hin : metric.signal ∈ sub.2 := by
    rw [of_decide_eq_true hmetricsignal]
    exact of_decide_eq_true (Bool.and_eq_true_iff.mp hsignal).2
  have hover := overRequests_of_application hsub (of_decide_eq_true hsubcategory) hin hmetric
  cases metric with
  | latency quantile =>
    obtain ⟨-, h⟩ := require_bind h
    obtain rfl := Except.ok.inj h
    exact latencyQuantile_byTenant _ _ _ _
  | errorRate statusRegex =>
    obtain ⟨-, h⟩ := require_bind h
    obtain rfl := Except.ok.inj h
    exact errorRatio_byTenant _ _ _ _
  | infra infraType signal => cases hover

/-- Every expression for the category application is over the metrics of requests, by tenant. -/
theorem buildPromql_byTenant {pathLabel : String} {data : PromqlInput F} {e : AlertExpr F}
    (h : buildPromql pathLabel data = .ok e)
    (hcategory : lower data.category = "application".toList) : ByTenant e := by
  obtain ⟨tasks, -, h⟩ := bind_ok h
  obtain ⟨built, hbuilt, h⟩ := bind_ok h
  obtain rfl := Except.ok.inj h
  refine ByTenant.injectEndpoint ?_ pathLabel tasks
  unfold buildUnscoped at hbuilt
  split at hbuilt
  · exact buildPromqlFromSignalConfig_byTenant hbuilt hcategory
  · exact buildPromqlFromThreshold_byTenant hbuilt hcategory

/-- The labels of a rule besides those that every rule has. -/
theorem promRule_labels_get? (d : AlertDefinition F) {l : String} (hseverity : l ≠ "severity")
    (hurgency : l ≠ "urgency") (hcategory : l ≠ "category") (hscope : l ≠ "scope") :
    (promRule d).labels.get? l =
      if l = "alert_type" then d.alertType.filter (· ≠ []) else none := by
  have hscopes : Dict.get? ((d.scope.filter (· ≠ [])).map fun t => ("scope", t)).toList l =
      none := by
    refine Dict.get?_eq_none fun e he => ?_
    obtain ⟨t, -, rfl⟩ := Option.map_eq_some_iff.mp (Option.mem_toList.mp he)
    exact hscope.symm
  unfold promRule Dict.get?
  unfold Dict.get? at hscopes
  rw [List.find?_append, List.find?_append, Option.map_or, hscopes, Option.or_none]
  have hfixed : List.find? (fun e : String × Text => decide (e.1 = l))
      [("severity", d.severity), ("urgency", d.urgency), ("category", d.category)] = none := by
    simp [hseverity.symm, hurgency.symm, hcategory.symm]
  rw [hfixed, Option.none_or]
  cases d.alertType.filter (· ≠ []) with
  | none =>
    rw [ite_self]
    rfl
  | some t =>
    by_cases hl : l = "alert_type"
    · simp [hl]
    · simp [hl, Ne.symm hl]

theorem name_of_raise (d : AlertDefinition F) (series : Labels String Text) :
    (promRule d).raise series "alertname" = d.name :=
  if_pos rfl

theorem severity_of_raise (d : AlertDefinition F) (series : Labels String Text) :
    (promRule d).raise series "severity" = d.severity := by
  unfold PromRule.raise
  rw [if_neg (by decide)]
  rfl

theorem category_of_raise (d : AlertDefinition F) (series : Labels String Text) :
    (promRule d).raise series "category" = d.category := by
  unfold PromRule.raise
  rw [if_neg (by decide)]
  rfl

/-- An alert of an application rule has the tenant of the series it was raised on. -/
theorem tenant_of_raise {d : AlertDefinition F} {pathLabel : String}
    (h : d.IsApplication pathLabel) (series : Labels String Text) :
    (promRule d).raise series "tenant" = series "tenant" := by
  obtain ⟨data, hdata, hbuilt⟩ := h.built
  obtain ⟨hkeeps, hgroups⟩ := buildPromql_byTenant hbuilt hdata
  have hexpr : (promRule d).expr = d.promqlExpr := if_pos hgroups
  unfold PromRule.raise
  rw [if_neg (by decide), promRule_labels_get? d (by decide) (by decide) (by decide) (by decide),
    hexpr]
  exact if_pos hkeeps

/-- Its type, when it has one. -/
theorem alertType_of_raise {d : AlertDefinition F} {t : Text} (h : d.alertType = some t)
    (hne : t ≠ []) (series : Labels String Text) :
    (promRule d).raise series "alert_type" = t := by
  have hfilter : d.alertType.filter (fun t => decide (t ≠ [])) = some t :=
    Option.filter_eq_some_iff.mpr ⟨h, decide_eq_true hne⟩
  unfold PromRule.raise
  rw [if_neg (by decide), promRule_labels_get? d (by decide) (by decide) (by decide) (by decide),
    if_pos rfl, hfilter]
  rfl

end Ai4iCore.Alert
