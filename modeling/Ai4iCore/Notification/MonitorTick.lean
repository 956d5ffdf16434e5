import Ai4iCore.Base.Rounding
import Mathlib

/-!
# One tick of the monitoring alerts

`run_tick` (monitoring_evaluator.py) asks Prometheus for the value of every alert and service over
the window and hands the answers to the pipeline of bands as one batch. An open incident closes by
an item below the lowest band: one with the value, or one of zero for a service without requests.

A service with enough requests but none of an alert's status is in neither: the numerator of its
error rate has no sample, and the service is not quiet (`incident_closes_iff`).
-/

namespace Ai4iCore.Notification.MonitorTick

open Rounding (halfEven)

/-! ## Series -/

/-- A series of `telemetry_obsv_requests_total`, and what it grew by in the window; `none` when it
has no samples there. Its service is empty when it has no such label. -/
structure RequestSeries where
  serviceId : String
  statusCode : List Char
  increase : Option ℚ≥0
  deriving DecidableEq

/-- A series of `telemetry_obsv_request_duration_seconds_bucket`. -/
structure BucketSeries where
  serviceId : String
  le : String
  increase : Option ℚ≥0
  deriving DecidableEq

/-- The value of a sample. -/
inductive Value
  | finite (q : ℚ)
  | notFinite
  deriving DecidableEq

/-- What Prometheus has, with the estimate of `histogram_quantile` from rates by bucket bounds. -/
structure Prometheus where
  requests : List RequestSeries
  buckets : List BucketSeries
  quantile : ℚ → List (String × ℚ) → Value

/-- An instant vector: the samples by service. -/
abbrev Samples := String → Option Value

/-- A sum over series; without samples there is none. -/
def sumSamples (samples : List (Option ℚ≥0)) : Option ℚ≥0 :=
  if samples.reduceOption = [] then none else some samples.reduceOption.sum

/-- `sum by (service_id) (increase(requests{service_id!="", …}[window]))`. -/
def requestSum (prom : Prometheus) (matches_ : List Char → Bool) (service : String) :
    Option ℚ≥0 :=
  if service = "" then none
  else sumSamples ((prom.requests.filter fun s =>
    s.serviceId = service && matches_ s.statusCode).map RequestSeries.increase)

/-! ## The queries -/

/-- The window in seconds, and the least number of requests. -/
structure Settings where
  seconds : ℚ
  seconds_pos : 0 < seconds
  minRequests : Int

/-- `status_code=~"4.."` and `"5.."`, by the first digit. -/
def statusMatches (digit : Char) : List Char → Bool
  | [c, _, _] => c = digit
  | _ => false

/-- `request_count_query`. -/
def requestCount (prom : Prometheus) (service : String) : Option ℚ≥0 :=
  requestSum prom (fun _ => true) service

/-- `and on (service_id) (_min_requests_filter)`. -/
def withMinRequests (settings : Settings) (prom : Prometheus) (vector : Samples) : Samples :=
  fun service =>
    match requestCount prom service with
    | some count => if (settings.minRequests : ℚ) ≤ (count : ℚ) then vector service else none
    | none => none

/-- The quotient of two rates, in percent; only labels on both sides are kept. -/
def percentOf (settings : Settings) (num den : Option ℚ≥0) : Option Value :=
  match num, den with
  | some n, some d =>
    if d = 0 then some .notFinite
    else some (.finite (100 * ((n : ℚ) / settings.seconds) / ((d : ℚ) / settings.seconds)))
  | _, _ => none

/-- `_error_rate_query`. -/
def errorRateQuery (settings : Settings) (prom : Prometheus) (digit : Char) : Samples :=
  withMinRequests settings prom fun service =>
    percentOf settings (requestSum prom (statusMatches digit) service) (requestCount prom service)

/-- `sum by (le, service_id) (rate(buckets{service_id!=""}[window]))` of a service. -/
def bucketRates (settings : Settings) (prom : Prometheus) (service : String) :
    List (String × ℚ) :=
  let series := prom.buckets.filter fun s => s.serviceId = service && s.serviceId ≠ ""
  (series.map BucketSeries.le).dedup.filterMap fun le =>
    (sumSamples ((series.filter fun s => s.le = le).map BucketSeries.increase)).map fun sum =>
      (le, (sum : ℚ) / settings.seconds)

/-- `histogram_quantile` over a service, when it has buckets. -/
def quantileOf (settings : Settings) (prom : Prometheus) (q : ℚ) (service : String) :
    Option Value :=
  if bucketRates settings prom service = [] then none
  else some (prom.quantile q (bucketRates settings prom service))

/-- `_latency_query`. -/
def latencyQuery (settings : Settings) (prom : Prometheus) (q : ℚ) : Samples :=
  withMinRequests settings prom (quantileOf settings prom q)

/-- The monitoring alerts. -/
inductive Alert
  | errorRate4xx
  | errorRate5xx
  | latencyP50
  | latencyP95
  | latencyP99
  deriving DecidableEq, Repr

/-- What an alert looks at: the requests with a status of this first digit, or a quantile. -/
inductive Kind
  | errorRate (digit : Char)
  | latency (quantile : ℚ)
  deriving DecidableEq

def Alert.kind : Alert → Kind
  | errorRate4xx => .errorRate '4'
  | errorRate5xx => .errorRate '5'
  | latencyP50 => .latency (1 / 2)
  | latencyP95 => .latency (95 / 100)
  | latencyP99 => .latency (99 / 100)

/-- `build_queries`. -/
def buildQueries (settings : Settings) (prom : Prometheus) (name : Alert) : Samples :=
  match name.kind with
  | .errorRate digit => errorRateQuery settings prom digit
  | .latency quantile => latencyQuery settings prom quantile

/-- The order of `build_queries`. -/
def alerts : List Alert := [.errorRate4xx, .errorRate5xx, .latencyP50, .latencyP95, .latencyP99]

/-- The services with series. -/
def services (prom : Prometheus) : List String :=
  (prom.requests.map RequestSeries.serviceId ++ prom.buckets.map BucketSeries.serviceId).dedup

/-- `_query`: the finite samples. -/
def query (prom : Prometheus) (vector : Samples) : List (String × ℚ) :=
  (services prom).filterMap fun service =>
    match vector service with
    | some (.finite value) => if service = "" then none else some (service, value)
    | _ => none

/-- The answer to `request_count_query`. -/
def countVector (prom : Prometheus) : Samples := fun service =>
  (requestCount prom service).map fun count : ℚ≥0 => Value.finite (count : ℚ)

/-- `_active_services`. -/
def activeServices (prom : Prometheus) : List String :=
  ((query prom (countVector prom)).filter fun sample => 0 < sample.2).map Prod.fst

/-! ## The tick -/

/-- What is read of the row of an alert. -/
structure Row where
  id : Nat
  bands : List ℚ
  anyRoleEnabled : Bool
  deriving DecidableEq

/-- `BandItem`, as far as the pipeline compares it. -/
structure BandItem where
  name : Alert
  serviceId : String
  observed : ℚ
  deriving DecidableEq

/-- `_decimal`: four decimals. -/
def decimal (value : ℚ) : ℚ := halfEven (value * 10 ^ 4) / 10 ^ 4

/-- The alerts whose row has bands and a role. -/
def wanted (rows : Alert → Option Row) : List (Alert × Row) :=
  alerts.filterMap fun name =>
    match rows name with
    | some row => if row.bands ≠ [] ∧ row.anyRoleEnabled then some (name, row) else none
    | none => none

/-- What a tick reads besides: the rows, and the services of the incidents that have been open for
longer than the cooldown, by the id of the row. -/
structure Ledger where
  rows : Alert → Option Row
  incidents : Nat → List String

/-- `_resettable_incidents`: those with a service. -/
def Ledger.resettable (ledger : Ledger) (id : Nat) : List String :=
  (ledger.incidents id).filter (· ≠ "")

/-- The items of one alert. -/
def alertItems (settings : Settings) (prom : Prometheus) (ledger : Ledger) (name : Alert)
    (row : Row) : List BandItem :=
  let result := query prom (buildQueries settings prom name)
  let measured := result.map fun sample => ⟨name, sample.1, decimal sample.2⟩
  let quiet := (ledger.resettable row.id).filter fun service =>
    service ∉ result.map Prod.fst ∧ service ∉ activeServices prom
  measured ++
    if row.bands.head?.any (0 < ·) then quiet.dedup.map fun service => ⟨name, service, 0⟩ else []

/-- The batch of `run_tick`, when every query succeeds. -/
def runTick (settings : Settings) (prom : Prometheus) (ledger : Ledger) : List BandItem :=
  (wanted ledger.rows).flatMap fun entry => alertItems settings prom ledger entry.1 entry.2

/-! ## What is meant -/

/-- The requests of a service in the window. -/
def requestsIn (prom : Prometheus) (service : String) : ℚ≥0 := (requestCount prom service).getD 0

/-- The value of an alert over the window, where it has one: without requests there is no rate. -/
def trueValue (settings : Settings) (prom : Prometheus) (name : Alert) (service : String) :
    Option ℚ :=
  match name.kind with
  | .errorRate digit =>
    if requestsIn prom service = 0 then none
    else some (100 * ((requestSum prom (statusMatches digit) service).getD 0 : ℚ≥0) /
      requestsIn prom service)
  | .latency quantile =>
    match quantileOf settings prom quantile service with
    | some (.finite value) => some value
    | _ => none

/-- The alert's value is below the lowest band, or there is none without requests. -/
def Recovered (settings : Settings) (prom : Prometheus) (name : Alert) (band : ℚ)
    (service : String) : Prop :=
  (∀ value, trueValue settings prom name service = some value → value < band) ∧
    (trueValue settings prom name service = none → requestsIn prom service = 0)

/-- The batch has an item of the service below the band. -/
def Closes (items : List BandItem) (name : Alert) (band : ℚ) (service : String) : Prop :=
  ∃ item ∈ items, item.name = name ∧ item.serviceId = service ∧ item.observed < band

/-- What is asked of a tick for an open incident. -/
structure Handled (settings : Settings) (prom : Prometheus) (ledger : Ledger) (name : Alert)
    (band : ℚ) (service : String) : Prop where
  closes : Recovered settings prom name band service →
    (requestsIn prom service = 0 ∨ (settings.minRequests : ℚ) ≤ (requestsIn prom service : ℚ)) →
    Closes (runTick settings prom ledger) name band service
  keeps : 0 < requestsIn prom service →
    (requestsIn prom service : ℚ) < settings.minRequests →
    ∀ item ∈ runTick settings prom ledger, ¬(item.name = name ∧ item.serviceId = service)

/-- The service has a sample of the alert's own status in the window; a latency has no status. -/
def Reported (prom : Prometheus) (name : Alert) (service : String) : Prop :=
  match name.kind with
  | .errorRate digit => (requestSum prom (statusMatches digit) service).isSome
  | .latency _ => True

/-! ## The answers of the queries -/

section Queries

variable {settings : Settings} {prom : Prometheus} {service : String}

theorem withMinRequests_eq_some {vector : Samples} {value : Value} :
    withMinRequests settings prom vector service = some value ↔
      (∃ count, requestCount prom service = some count ∧
        (settings.minRequests : ℚ) ≤ (count : ℚ)) ∧ vector service = some value := by
  unfold withMinRequests
  cases requestCount prom service with
  | none => simp
  | some count =>
    dsimp only
    split
    · rename_i hmin
      simp [hmin]
    · rename_i hmin
      simp [hmin]

theorem percentOf_eq_finite {num den : Option ℚ≥0} {value : ℚ} :
    percentOf settings num den = some (.finite value) ↔
      ∃ n d, num = some n ∧ den = some d ∧ d ≠ 0 ∧ value = 100 * (n : ℚ) / d := by
  have hseconds := settings.seconds_pos.ne'
  unfold percentOf
  cases num with
  | none => simp
  | some n =>
    cases den with
    | none => simp
    | some d =>
      by_cases hd : d = 0
      · simp [hd]
      · have hd' : (d : ℚ) ≠ 0 := by exact_mod_cast hd
        have hrates : 100 * ((n : ℚ) / settings.seconds) / ((d : ℚ) / settings.seconds) =
            100 * (n : ℚ) / d := by
          field_simp
        simp [hd, hrates, eq_comm]

/-- **What a query answers**: the true value, for a service with enough requests and a sample of
the alert's own. -/
theorem buildQueries_eq_finite {name : Alert} {value : ℚ} :
    buildQueries settings prom name service = some (.finite value) ↔
      (∃ count, requestCount prom service = some count ∧
        (settings.minRequests : ℚ) ≤ (count : ℚ)) ∧
      Reported prom name service ∧ trueValue settings prom name service = some value := by
  unfold buildQueries Reported trueValue
  cases name.kind with
  | errorRate digit =>
    dsimp only
    rw [errorRateQuery, withMinRequests_eq_some, percentOf_eq_finite]
    refine and_congr_right ?_
    rintro ⟨count, hcount, -⟩
    have hrequests : requestsIn prom service = count := by rw [requestsIn, hcount]; rfl
    rw [hrequests]
    cases hstatus : requestSum prom (statusMatches digit) service with
    | none => simp
    | some n =>
      by_cases hzero : count = 0
      · simp [hcount, hzero]
      · simp [hcount, hzero, eq_comm]
  | latency quantile =>
    dsimp only
    rw [latencyQuery, withMinRequests_eq_some, true_and]
    refine and_congr_right fun _ => ?_
    cases quantileOf settings prom quantile service with
    | none => simp
    | some sample => cases sample <;> simp

theorem exists_series {matches_ : List Char → Bool} {sum : ℚ≥0}
    (h : requestSum prom matches_ service = some sum) : service ∈ services prom := by
  unfold requestSum at h
  split at h
  · cases h
  · unfold sumSamples at h
    split at h
    · cases h
    · rename_i hne
      rw [services, List.mem_dedup, List.mem_append]
      left
      by_contra hnot
      refine hne ?_
      have hempty : (prom.requests.filter fun s =>
          s.serviceId = service && matches_ s.statusCode) = [] := by
        rw [List.filter_eq_nil_iff]
        intro s hs hmatch
        simp only [Bool.and_eq_true, decide_eq_true_eq] at hmatch
        exact hnot (List.mem_map.mpr ⟨s, hs, hmatch.1⟩)
      rw [hempty]
      rfl

theorem mem_query {vector : Samples} {value : ℚ} :
    (service, value) ∈ query prom vector ↔
      service ∈ services prom ∧ service ≠ "" ∧ vector service = some (.finite value) := by
  unfold query
  rw [List.mem_filterMap]
  constructor
  · rintro ⟨s, hs, hvalue⟩
    split at hvalue
    · rename_i q hq
      split at hvalue
      · cases hvalue
      · cases hvalue
        exact ⟨hs, ‹_›, hq⟩
    · cases hvalue
  · rintro ⟨hs, hne, hvalue⟩
    exact ⟨service, hs, by simp [hvalue, hne]⟩

theorem requestCount_empty : requestCount prom "" = none := rfl

/-- The active services are those with requests. -/
theorem mem_activeServices : service ∈ activeServices prom ↔ 0 < requestsIn prom service := by
  unfold activeServices requestsIn
  rw [List.mem_map]
  constructor
  · rintro ⟨⟨s, q⟩, hmem, rfl⟩
    obtain ⟨hquery, hpos⟩ := List.mem_filter.mp hmem
    obtain ⟨-, -, hvalue⟩ := mem_query.mp hquery
    obtain ⟨count, hcount, heq⟩ := Option.map_eq_some_iff.mp hvalue
    cases heq
    rw [hcount]
    simpa using hpos
  · intro hpos
    cases hcount : requestCount prom service with
    | none =>
      rw [hcount] at hpos
      exact absurd hpos (lt_irrefl _)
    | some count =>
      rw [hcount] at hpos
      have hne : service ≠ "" := by
        rintro rfl
        rw [requestCount_empty] at hcount
        cases hcount
      refine ⟨(service, count), List.mem_filter.mpr ⟨mem_query.mpr
        ⟨exists_series hcount, hne, by rw [countVector, hcount]; rfl⟩, ?_⟩, rfl⟩
      simpa using hpos

end Queries

/-! ## The batch -/

section Batch

variable {settings : Settings} {prom : Prometheus} {ledger : Ledger} {name : Alert} {row : Row}

theorem name_of_mem_alertItems {item : BandItem}
    (h : item ∈ alertItems settings prom ledger name row) : item.name = name := by
  unfold alertItems at h
  rcases List.mem_append.mp h with h | h
  · obtain ⟨sample, -, rfl⟩ := List.mem_map.mp h
    rfl
  · split at h
    · obtain ⟨service, -, rfl⟩ := List.mem_map.mp h
      rfl
    · cases h

theorem mem_alerts (name : Alert) : name ∈ alerts := by cases name <;> decide

/-- The items of an alert in the batch are those made for its row. -/
theorem mem_runTick (hrow : ledger.rows name = some row) (hbands : row.bands ≠ [])
    (hrole : row.anyRoleEnabled = true) {item : BandItem} (hname : item.name = name) :
    item ∈ runTick settings prom ledger ↔ item ∈ alertItems settings prom ledger name row := by
  unfold runTick wanted
  rw [List.mem_flatMap]
  constructor
  · rintro ⟨⟨name', row'⟩, hwanted, hitem⟩
    obtain rfl : name' = name := (name_of_mem_alertItems hitem).symm.trans hname
    obtain ⟨name'', -, hentry⟩ := List.mem_filterMap.mp hwanted
    split at hentry
    · rename_i found hfound
      split at hentry
      · cases hentry
        rw [hrow] at hfound
        cases hfound
        exact hitem
      · cases hentry
    · cases hentry
  · intro hitem
    refine ⟨(name, row), List.mem_filterMap.mpr ⟨name, mem_alerts name, ?_⟩, hitem⟩
    simp [hrow, hbands, hrole]

/-- **The items of a service**: one with the value where the query answers, and one of zero for an
open incident of a service that has no requests. -/
theorem mem_alertItems {band : ℚ} {rest : List ℚ} (hbands : row.bands = band :: rest)
    (hband : 0 < band) {service : String} {observed : ℚ}
    (hopen : service ∈ ledger.resettable row.id) :
    ⟨name, service, observed⟩ ∈ alertItems settings prom ledger name row ↔
      (∃ value, buildQueries settings prom name service = some (.finite value) ∧
        observed = decimal value) ∨
      ((∀ value, buildQueries settings prom name service ≠ some (.finite value)) ∧
        requestsIn prom service = 0 ∧ observed = 0) := by
  have hne : service ≠ "" := by simpa using (List.mem_filter.mp hopen).2
  have hquery : ∀ value, (service, value) ∈ query prom (buildQueries settings prom name) ↔
      buildQueries settings prom name service = some (.finite value) := by
    intro value
    rw [mem_query]
    refine ⟨fun h => h.2.2, fun h => ⟨?_, hne, h⟩⟩
    obtain ⟨⟨count, hcount, -⟩, -⟩ := buildQueries_eq_finite.mp h
    exact exists_series hcount
  unfold alertItems
  dsimp only
  have hpositive : row.bands.head?.any (0 < ·) = true := by simpa [hbands] using hband
  rw [if_pos hpositive, List.mem_append]
  refine or_congr ?_ ?_
  · rw [List.mem_map]
    constructor
    · rintro ⟨⟨s, value⟩, hmem, heq⟩
      cases heq
      exact ⟨value, (hquery value).mp hmem, rfl⟩
    · rintro ⟨value, hvalue, rfl⟩
      exact ⟨(service, value), (hquery value).mpr hvalue, rfl⟩
  · rw [List.mem_map]
    constructor
    · rintro ⟨s, hs, heq⟩
      cases heq
      rw [List.mem_dedup, List.mem_filter] at hs
      simp only [decide_eq_true_eq] at hs
      refine ⟨fun value hvalue => hs.2.1 ?_, ?_, rfl⟩
      · exact List.mem_map.mpr ⟨_, (hquery value).mpr hvalue, rfl⟩
      · have := hs.2.2
        rw [mem_activeServices, not_lt] at this
        exact le_antisymm this zero_le
    · rintro ⟨hnone, hquiet, rfl⟩
      refine ⟨service, ?_, rfl⟩
      rw [List.mem_dedup, List.mem_filter]
      simp only [decide_eq_true_eq]
      refine ⟨hopen, fun hmem => ?_, ?_⟩
      · obtain ⟨⟨s, value⟩, hvalue, rfl⟩ := List.mem_map.mp hmem
        exact hnone value ((hquery value).mp hvalue)
      · rw [mem_activeServices, hquiet]
        exact lt_irrefl _

end Batch

/-! ## When an incident closes -/

/-- A value below the lowest band reaches the batch below it: the service has a sample of the
alert's status, and the value stays below the band at four decimals. -/
def Reaches (settings : Settings) (prom : Prometheus) (name : Alert) (band : ℚ)
    (service : String) : Prop :=
  ∀ value count, trueValue settings prom name service = some value → value < band →
    requestCount prom service = some count → (settings.minRequests : ℚ) ≤ (count : ℚ) →
    Reported prom name service ∧ decimal value < band

theorem requestsIn_of_count {prom : Prometheus} {service : String} {count : ℚ≥0}
    (h : requestCount prom service = some count) : requestsIn prom service = count := by
  rw [requestsIn, h]
  rfl

/-- Of a service without requests there is no error rate, and a latency is answered. -/
theorem answered_of_quiet {settings : Settings} {prom : Prometheus} {name : Alert}
    {service : String} {value : ℚ} {count : ℚ≥0}
    (hvalue : trueValue settings prom name service = some value)
    (hcount : requestCount prom service = some count)
    (hmin : (settings.minRequests : ℚ) ≤ (count : ℚ)) (hquiet : requestsIn prom service = 0) :
    buildQueries settings prom name service = some (.finite value) := by
  refine buildQueries_eq_finite.mpr ⟨⟨count, hcount, hmin⟩, ?_, hvalue⟩
  unfold trueValue at hvalue
  unfold Reported
  cases hkind : name.kind with
  | errorRate digit =>
    rw [hkind] at hvalue
    simp only [hquiet, if_true] at hvalue
    cases hvalue
  | latency quantile => trivial

/-- A recovered service that no query answers for has no requests. -/
theorem quiet_of_unanswered {settings : Settings} {prom : Prometheus} {name : Alert} {band : ℚ}
    {service : String} (hreaches : Reaches settings prom name band service)
    (hrecovered : Recovered settings prom name band service)
    (henough : requestsIn prom service = 0 ∨
      (settings.minRequests : ℚ) ≤ requestsIn prom service)
    (hnone : ∀ value, buildQueries settings prom name service ≠ some (.finite value)) :
    requestsIn prom service = 0 := by
  by_contra hsome
  have hmin := henough.resolve_left hsome
  cases hcount : requestCount prom service with
  | none => exact hsome (by rw [requestsIn, hcount]; rfl)
  | some count =>
    rw [requestsIn_of_count hcount] at hmin
    cases hvalue : trueValue settings prom name service with
    | none => exact hsome (hrecovered.2 hvalue)
    | some value =>
      have hreported := (hreaches value count hvalue (hrecovered.1 value hvalue) hcount hmin).1
      exact hnone value (buildQueries_eq_finite.mpr ⟨⟨count, hcount, hmin⟩, hreported, hvalue⟩)

/-- **When open incidents are handled.** -/
theorem incident_closes_iff {settings : Settings} {prom : Prometheus} {ledger : Ledger}
    {name : Alert} {row : Row} {band : ℚ} {rest : List ℚ} {service : String}
    (hrow : ledger.rows name = some row) (hbands : row.bands = band :: rest) (hband : 0 < band)
    (hrole : row.anyRoleEnabled = true) (hopen : service ∈ ledger.resettable row.id) :
    Handled settings prom ledger name band service ↔ Reaches settings prom name band service := by
  have hitems : ∀ observed, (⟨name, service, observed⟩ : BandItem) ∈
      runTick settings prom ledger ↔ _ := fun observed =>
    (mem_runTick hrow (hbands ▸ List.cons_ne_nil band rest) hrole rfl).trans
      (mem_alertItems hbands hband hopen)
  constructor
  · rintro ⟨hcloses, -⟩ value count hvalue hbelow hcount hmin
    have hrequests := requestsIn_of_count hcount
    have hrecovered : Recovered settings prom name band service := by
      refine ⟨fun value' hvalue' => ?_, fun hnone => ?_⟩
      · rw [hvalue] at hvalue'
        exact Option.some.inj hvalue' ▸ hbelow
      · rw [hvalue] at hnone
        cases hnone
    obtain ⟨⟨name', service', observed⟩, hitem, hname, hservice, hlow⟩ :=
      hcloses hrecovered (.inr (by rw [hrequests]; exact hmin))
    dsimp only at hname hservice hlow
    subst hname hservice
    rcases (hitems observed).mp hitem with ⟨q, hq, rfl⟩ | ⟨hnone, hquiet, -⟩
    · obtain ⟨-, hreported, htrue⟩ := buildQueries_eq_finite.mp hq
      rw [hvalue] at htrue
      cases htrue
      exact ⟨hreported, hlow⟩
    · exact absurd (answered_of_quiet hvalue hcount hmin hquiet) (hnone value)
  · intro hreaches
    refine ⟨fun hrecovered henough => ?_, fun hpos hfew => ?_⟩
    · by_cases hanswered : ∃ value,
          buildQueries settings prom name service = some (.finite value)
      · obtain ⟨value, hanswer⟩ := hanswered
        obtain ⟨⟨count, hcount, hmin⟩, -, hvalue⟩ := buildQueries_eq_finite.mp hanswer
        have hlow := (hreaches value count hvalue (hrecovered.1 value hvalue) hcount hmin).2
        exact ⟨_, (hitems _).mpr (.inl ⟨value, hanswer, rfl⟩), rfl, rfl, hlow⟩
      · have hnone := not_exists.mp hanswered
        have hquiet := quiet_of_unanswered hreaches hrecovered henough hnone
        exact ⟨_, (hitems 0).mpr (.inr ⟨hnone, hquiet, rfl⟩), rfl, rfl, hband⟩
    · rintro ⟨name', service', observed⟩ hitem ⟨hname, hservice⟩
      dsimp only at hname hservice
      subst hname hservice
      rcases (hitems observed).mp hitem with ⟨q, hq, -⟩ | ⟨-, hquiet, -⟩
      · obtain ⟨⟨count, hcount, hmin⟩, -, -⟩ := buildQueries_eq_finite.mp hq
        rw [requestsIn_of_count hcount] at hfew
        exact absurd hmin (not_le.mpr hfew)
      · exact absurd hquiet hpos.ne'

/-! ## A service with a hundred requests -/

/-- Five minutes, twenty requests. -/
def usual : Settings := ⟨300, by norm_num, 20⟩

/-- A hundred successful requests of a service, and what else there is. -/
def hundred (others : List RequestSeries) : Prometheus where
  requests := ⟨"asr", ['2', '0', '0'], some 100⟩ :: others
  buckets := []
  quantile _ _ := .notFinite

/-- An open incident of the service, with bands from 5 % on. -/
def openIncident : Ledger where
  rows _ := some ⟨1, [5, 10], true⟩
  incidents _ := ["asr"]

theorem resettable_openIncident : "asr" ∈ openIncident.resettable 1 := by decide

theorem requestCount_failing : requestCount (hundred [⟨"asr", ['5', '0', '0'], some 0⟩]) "asr" =
    some 100 := by
  simp [requestCount, requestSum, hundred, sumSamples, List.reduceOption]

theorem incident_closes_failing :
    Handled usual (hundred [⟨"asr", ['5', '0', '0'], some 0⟩]) openIncident .errorRate5xx 5
      "asr" := by
  refine (incident_closes_iff rfl rfl (by norm_num) rfl resettable_openIncident).mpr ?_
  intro value count hvalue _ _ _
  have hstatus : requestSum (hundred [⟨"asr", ['5', '0', '0'], some 0⟩]) (statusMatches '5')
      "asr" = some 0 := by
    simp [requestSum, hundred, sumSamples, statusMatches, List.reduceOption]
  have hzero : value = 0 := by
    simp only [trueValue, Alert.kind, requestsIn_of_count requestCount_failing, hstatus] at hvalue
    simpa using hvalue.symm
  refine ⟨?_, ?_⟩
  · simp [Reported, Alert.kind, hstatus]
  · rw [hzero]
    norm_num [decimal, halfEven]

/-- Without a failed request in the window nothing closes the incident. -/
theorem incident_stays_open :
    requestsIn (hundred []) "asr" = 100 ∧
    trueValue usual (hundred []) .errorRate5xx "asr" = some 0 ∧
    (∀ item ∈ runTick usual (hundred []) openIncident,
      ¬(item.name = .errorRate5xx ∧ item.serviceId = "asr")) ∧
    ¬Handled usual (hundred []) openIncident .errorRate5xx 5 "asr" := by
  have hcount : requestCount (hundred []) "asr" = some 100 := by
    simp [requestCount, requestSum, hundred, sumSamples, List.reduceOption]
  have hstatus : requestSum (hundred []) (statusMatches '5') "asr" = none := by
    simp [requestSum, hundred, sumSamples, statusMatches]
  have hrequests := requestsIn_of_count hcount
  have hvalue : trueValue usual (hundred []) .errorRate5xx "asr" = some 0 := by
    simp [trueValue, Alert.kind, hrequests, hstatus]
  have hitems : ∀ item ∈ runTick usual (hundred []) openIncident,
      ¬(item.name = .errorRate5xx ∧ item.serviceId = "asr") := by
    rintro ⟨name, service, observed⟩ hitem ⟨hname, hservice⟩
    dsimp only at hname hservice
    subst hname hservice
    rw [mem_runTick rfl (List.cons_ne_nil _ _) rfl rfl,
      mem_alertItems rfl (by norm_num) resettable_openIncident] at hitem
    rcases hitem with ⟨value, hanswer, -⟩ | ⟨-, hquiet, -⟩
    · have hreported := (buildQueries_eq_finite.mp hanswer).2.1
      simp [Reported, Alert.kind, hstatus] at hreported
    · rw [hrequests] at hquiet
      norm_num at hquiet
  refine ⟨hrequests, hvalue, hitems, fun hhandled => ?_⟩
  obtain ⟨item, hitem, hname, hservice, -⟩ := hhandled.closes
    ⟨fun value h => by
      rw [hvalue] at h
      obtain rfl := Option.some.inj h
      norm_num, fun h => by
      rw [hvalue] at h
      cases h⟩
    (.inr (by rw [hrequests]; norm_num [usual]))
  exact hitems item hitem ⟨hname, hservice⟩

end Ai4iCore.Notification.MonitorTick
