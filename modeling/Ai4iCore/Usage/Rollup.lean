import Ai4iCore.Base.Relational
import Ai4iCore.Base.Table
import Ai4iCore.Billing.Usage

/-!
# The daily rollup of usage events

`_rollup_day` (pyjob, jobs/daily_usage_consolidation.py): the usage events of one IST day are
grouped by their dimensions, the groups are upserted into `daily_usage`, and what is left of
the day from an earlier run is deleted. The three have to agree on what a dimension key is:
`GROUP BY` and the unique index (`NULLS NOT DISTINCT`) both take two nulls for equal, and the
delete goes by `updated_at`, which this transaction has set on every row it wrote.

`rollup_exact` says what the day's rows are afterwards: one for each key among the day's
events, with the sums of that key's events, whatever the table held before, as long as the day
has no row of the backfill.
-/

namespace Ai4iCore.Usage

open Relational

/-! ## Days -/

/-- Microseconds of a day. -/
def dayMicros : Int := 86400000000

/-- 5:30 hours. -/
def istOffset : Int := 19800000000

/-- `(occurred_at AT TIME ZONE 'Asia/Kolkata')::date`, in days since 1970-01-01. -/
def istDay (t : Int) : Int := (t + istOffset) / dayMicros

/-- `_day_start`: IST midnight. -/
def dayStart (day : Int) : Int := day * dayMicros - istOffset

/-- The window of the aggregate is the IST day. -/
theorem window_iff (day t : Int) : (dayStart day ≤ t ∧ t < dayStart (day + 1)) ↔ istDay t = day := by
  unfold dayStart istDay dayMicros
  omega

/-! ## Tables -/

/-- The dimensions of the rollup, `usage_date` apart. `none` is NULL, and equal to itself as
it is in `GROUP BY` and in the unique index. -/
structure Dimensions where
  tenantId : Option Int
  applicationId : Option Int
  apiKeyId : Option Int
  tierId : Option String
  serviceId : Option String
  inferenceTypeId : Option Int
  billingMonth : Int × Int
  deriving DecidableEq

/-- A row of `usage_events`. -/
structure Event where
  correlationId : String
  occurredAt : Int
  tenantId : Option Int
  applicationId : Option Int
  apiKeyId : Option Int
  tierId : Option String
  serviceId : Option String
  inferenceTypeId : Option Int
  taskType : Option String
  unitOfMeasurement : Option String
  statusCode : Option Int
  totalUnits : ℚ
  cachedInputUnits : ℚ
  outputUnits : ℚ
  inputUnitsCost : ℚ
  cachedInputUnitsCost : ℚ
  outputUnitsCost : ℚ
  /-- `ck_usage_events_units` -/
  units : 0 ≤ cachedInputUnits ∧ 0 ≤ outputUnits ∧ cachedInputUnits + outputUnits ≤ totalUnits

def Event.dimensions (e : Event) : Dimensions where
  tenantId := e.tenantId
  applicationId := e.applicationId
  apiKeyId := e.apiKeyId
  tierId := e.tierId
  serviceId := e.serviceId
  inferenceTypeId := e.inferenceTypeId
  billingMonth := Billing.billingMonth e.occurredAt

/-- The six summed columns. -/
inductive Amount
  | totalUnits
  | cachedInputUnits
  | outputUnits
  | inputUnitsCost
  | cachedInputUnitsCost
  | outputUnitsCost
  deriving DecidableEq, Repr

def Event.amount (e : Event) : Amount → ℚ
  | .totalUnits => e.totalUnits
  | .cachedInputUnits => e.cachedInputUnits
  | .outputUnits => e.outputUnits
  | .inputUnitsCost => e.inputUnitsCost
  | .cachedInputUnitsCost => e.cachedInputUnitsCost
  | .outputUnitsCost => e.outputUnitsCost

/-- `MEASURES`. -/
structure Measures where
  requestCount : Int
  successCount : Int
  failedCount : Int
  amount : Amount → ℚ

/-- `NAMES`. -/
structure Names where
  tenantName : Option String
  allocatedBudget : Option ℚ
  applicationName : Option String
  tierName : Option String
  serviceName : Option String
  modelName : Option String
  taskType : Option String
  unit : Option String
  deriving DecidableEq

/-- `daily_usage_source_enum`. -/
inductive Source
  | rollup
  | backfill
  deriving DecidableEq, Repr

/-- A row of `daily_usage`. -/
structure Row where
  usageDate : Int
  dimensions : Dimensions
  names : Names
  measures : Measures
  source : Source
  createdAt : Int
  updatedAt : Int

/-- `uq_daily_usage_dimensions`. -/
def Row.key (row : Row) : Int × Dimensions := (row.usageDate, row.dimensions)

structure Tier where
  id : String
  name : String

structure Service where
  serviceId : String
  name : String
  modelId : String

structure Model where
  modelId : String
  name : String

/-- The tables the aggregate joins, with their unique columns. -/
structure Catalogue where
  tiers : List Tier
  services : List Service
  models : List Model
  tiers_unique : (tiers.map Tier.id).Nodup
  services_unique : (services.map Service.serviceId).Nodup
  models_unique : (models.map Model.modelId).Nodup

/-- What `_auth_names` finds. -/
structure AuthNames where
  tenants : Int → Option (String × Option ℚ)
  applications : Int → Option String

/-- The database at rest. A row carries the start of the transaction that wrote it last, which
lies behind the clock. -/
structure Database where
  events : List Event
  daily : List Row
  catalogue : Catalogue
  auth : AuthNames
  clock : Int
  unique : (daily.map Row.key).Nodup
  past : ∀ row ∈ daily, row.updatedAt ≤ clock

/-! ## The aggregate -/

/-- A request row: a status and no units. -/
def isRequestRow (e : Event) : Bool := e.statusCode.isSome && e.totalUnits == 0

/-- A usage row from before request rows existed. -/
def isPreCutoverRow (e : Event) : Bool := e.statusCode.isSome && decide (0 < e.totalUnits)

/-- `status_code >= 400`. -/
def isFailed (e : Event) : Bool := e.statusCode.any fun code => 400 ≤ code

/-- `max(…)` over text: nulls do not count. -/
def maxText (l : List (Option String)) : Option String :=
  (l.filterMap id).foldl
    (fun m s => m.elim (some s) fun t => some (if t < s then s else t)) none

def requestCount (events : List Event) : Nat :=
  (events.filter isRequestRow).length +
    countDistinct Event.correlationId isPreCutoverRow events

def failedCount (events : List Event) : Nat :=
  (events.filter fun e => isFailed e && e.totalUnits == 0).length +
    countDistinct Event.correlationId (fun e => isFailed e && decide (0 < e.totalUnits)) events

/-- The aggregates of one group. -/
def measuresOf (events : List Event) : Measures where
  requestCount := requestCount events
  successCount := requestCount events - failedCount events
  failedCount := failedCount events
  amount a := (events.map fun e => e.amount a).sum

/-- A row of `_AGGREGATE`. -/
structure Group where
  dimensions : Dimensions
  taskType : Option String
  unit : Option String
  measures : Measures
  tierName : Option String
  serviceName : Option String
  modelName : Option String

/-- The rows of `usage_events` in a window. -/
def eventsBetween (events : List Event) (start stop : Int) : List Event :=
  events.filter fun e => start ≤ e.occurredAt && e.occurredAt < stop

/-- `_AGGREGATE`. -/
def aggregate (events : List Event) (catalogue : Catalogue) (start stop : Int) : List Group :=
  let agg := groupBy Event.dimensions (eventsBetween events start stop)
  -- `LEFT JOIN tiers`, `LEFT JOIN mm_services`, `LEFT JOIN mm_models`
  let withTier := leftJoin (fun g t => g.1.tierId = some t.id) agg catalogue.tiers
  let withService := leftJoin (fun g s => g.1.1.serviceId = some s.serviceId) withTier
    catalogue.services
  let withModel := leftJoin (fun g m => g.2.map Service.modelId = some m.modelId) withService
    catalogue.models
  withModel.map fun g =>
    let (((dimensions, events), tier), service) := g.1
    { dimensions
      taskType := maxText (events.map Event.taskType)
      unit := maxText (events.map Event.unitOfMeasurement)
      measures := measuresOf events
      tierName := tier.map Tier.name
      serviceName := service.map Service.name
      modelName := g.2.map Model.name }

/-! ## The rollup -/

/-- The names of a row to upsert. -/
def namesOf (auth : AuthNames) (g : Group) : Names where
  tenantName := (g.dimensions.tenantId.bind auth.tenants).map Prod.fst
  allocatedBudget := (g.dimensions.tenantId.bind auth.tenants).bind Prod.snd
  applicationName := g.dimensions.applicationId.bind auth.applications
  tierName := g.tierName
  serviceName := g.serviceName
  modelName := g.modelName
  taskType := g.taskType
  unit := g.unit

/-- The row a group is inserted as; `source` has its default. -/
def Group.row (auth : AuthNames) (day now : Int) (g : Group) : Row where
  usageDate := day
  dimensions := g.dimensions
  names := namesOf auth g
  measures := g.measures
  source := .rollup
  createdAt := now
  updatedAt := now

/-- `_UPSERT` of one row. -/
def upsertGroup (auth : AuthNames) (day now : Int) (rows : List Row) (g : Group) : List Row :=
  Table.upsert Row.key rows (day, g.dimensions)
    (fun row => { row with names := namesOf auth g, measures := g.measures, updatedAt := now })
    (g.row auth day now)

/-- `_DELETE_STALE`. -/
def isStale (day now : Int) (row : Row) : Bool :=
  row.usageDate == day && row.source == .rollup && decide (row.updatedAt < now)

/-- The rows of `daily_usage` after the transaction. -/
def rollupRows (db : Database) (day now : Int) : List Row :=
  ((aggregate db.events db.catalogue (dayStart day) (dayStart (day + 1))).foldl
    (upsertGroup db.auth day now) db.daily).filter fun row => !isStale day now row

section Upsert

variable {auth : AuthNames} {day now : Int} {rows : List Row} {g : Group}

theorem nodup_upsertGroup (h : (rows.map Row.key).Nodup) :
    ((upsertGroup auth day now rows g).map Row.key).Nodup :=
  Table.nodup_upsert h (fun _ => rfl) rfl

theorem mem_keys_upsertGroup {k : Int × Dimensions} :
    k ∈ (upsertGroup auth day now rows g).map Row.key ↔
      k ∈ rows.map Row.key ∨ k = (day, g.dimensions) :=
  Table.mem_map_key_upsert (fun _ => rfl) rfl

/-- What a row that was just upserted looks like. -/
structure Written (day now : Int) (auth : AuthNames) (g : Group) (row : Row) : Prop where
  usageDate : row.usageDate = day
  dimensions : row.dimensions = g.dimensions
  names : row.names = namesOf auth g
  measures : row.measures = g.measures
  updatedAt : row.updatedAt = now

/-- After one upsert a row is the written one or an older one of another key. -/
theorem mem_upsertGroup {row : Row} (h : row ∈ upsertGroup auth day now rows g) :
    Written day now auth g row ∨ (row ∈ rows ∧ row.key ≠ (day, g.dimensions)) := by
  obtain ⟨old, -, hkey, rfl⟩ | rfl | hold := Table.mem_upsert h
  · exact .inl ⟨congrArg Prod.fst hkey, congrArg Prod.snd hkey, rfl, rfl, rfl⟩
  · exact .inl ⟨rfl, rfl, rfl, rfl, rfl⟩
  · exact .inr hold

/-- The day has no row of the backfill. -/
def NoBackfill (day : Int) (rows : List Row) : Prop :=
  ∀ row ∈ rows, row.usageDate = day → row.source = .rollup

instance (day : Int) (rows : List Row) : Decidable (NoBackfill day rows) :=
  inferInstanceAs (Decidable (∀ row ∈ rows, _))

theorem noBackfill_upsertGroup (h : NoBackfill day rows) :
    NoBackfill day (upsertGroup auth day now rows g) := by
  intro row hrow hday
  obtain ⟨old, hold, -, rfl⟩ | rfl | ⟨hold, -⟩ := Table.mem_upsert hrow
  · exact h old hold hday
  · rfl
  · exact h row hold hday

/-- The rows of the other days. -/
def otherDays (day : Int) (rows : List Row) : List Row :=
  rows.filter fun row => row.usageDate != day

theorem otherDays_upsertGroup :
    otherDays day (upsertGroup auth day now rows g) = otherDays day rows := by
  refine Table.filter_upsert (fun _ => rfl) rfl fun row hkey => ?_
  have hday : row.usageDate = day := congrArg Prod.fst hkey
  rw [hday, bne_self_eq_false]

/-! ### All groups -/

variable {groups : List Group}

/-- After all upserts a row is one of the written ones or an older one of no group's key. -/
theorem mem_upsertGroups {row : Row} (h : row ∈ groups.foldl (upsertGroup auth day now) rows) :
    (∃ g ∈ groups, Written day now auth g row) ∨
      (row ∈ rows ∧ ∀ g ∈ groups, row.key ≠ (day, g.dimensions)) := by
  induction groups generalizing rows with
  | nil => exact .inr ⟨h, fun _ hg => absurd hg List.not_mem_nil⟩
  | cons g groups ih =>
    rw [List.foldl_cons] at h
    obtain ⟨g', hg', hwritten⟩ | ⟨hrow, hkeys⟩ := ih h
    · exact .inl ⟨g', List.mem_cons_of_mem _ hg', hwritten⟩
    · obtain hwritten | ⟨hold, hkey⟩ := mem_upsertGroup hrow
      · exact .inl ⟨g, List.mem_cons_self, hwritten⟩
      · exact .inr ⟨hold, List.forall_mem_cons.mpr ⟨hkey, hkeys⟩⟩

/-- The keys after all upserts: those that were there, and one for each group. -/
theorem mem_keys_upsertGroups {k : Int × Dimensions} :
    k ∈ (groups.foldl (upsertGroup auth day now) rows).map Row.key ↔
      k ∈ rows.map Row.key ∨ ∃ g ∈ groups, k = (day, g.dimensions) := by
  induction groups generalizing rows with
  | nil => simp
  | cons g groups ih =>
    rw [List.foldl_cons, ih, mem_keys_upsertGroup, or_assoc, List.exists_mem_cons_iff]

theorem nodup_upsertGroups (h : (rows.map Row.key).Nodup) :
    ((groups.foldl (upsertGroup auth day now) rows).map Row.key).Nodup := by
  induction groups generalizing rows with
  | nil => exact h
  | cons g groups ih =>
    rw [List.foldl_cons]
    exact ih (nodup_upsertGroup h)

theorem noBackfill_upsertGroups (h : NoBackfill day rows) :
    NoBackfill day (groups.foldl (upsertGroup auth day now) rows) := by
  induction groups generalizing rows with
  | nil => exact h
  | cons g groups ih =>
    rw [List.foldl_cons]
    exact ih (noBackfill_upsertGroup h)

theorem otherDays_upsertGroups :
    otherDays day (groups.foldl (upsertGroup auth day now) rows) = otherDays day rows := by
  induction groups generalizing rows with
  | nil => rfl
  | cons g groups ih => rw [List.foldl_cons, ih, otherDays_upsertGroup]

end Upsert

/-! ### The groups of a day -/

/-- The events of an IST day. -/
def dayEvents (day : Int) (events : List Event) : List Event :=
  events.filter fun e => istDay e.occurredAt = day

theorem eventsBetween_day (events : List Event) (day : Int) :
    eventsBetween events (dayStart day) (dayStart (day + 1)) = dayEvents day events := by
  refine List.filter_congr fun e _ => ?_
  rw [Bool.eq_iff_iff, Bool.and_eq_true, decide_eq_true_iff, decide_eq_true_iff,
    decide_eq_true_iff]
  exact window_iff day e.occurredAt

/-- The joins add names to the groups and neither drop nor repeat one. -/
theorem aggregate_eq (events : List Event) (catalogue : Catalogue) (start stop : Int) :
    ∃ f : Dimensions × List Event → Group,
      aggregate events catalogue start stop =
        (groupBy Event.dimensions (eventsBetween events start stop)).map f ∧
      ∀ g, (f g).dimensions = g.1 ∧ (f g).measures = measuresOf g.2 := by
  unfold aggregate
  dsimp only
  rw [leftJoin_unique (fun g : Dimensions × List Event => g.1.tierId) catalogue.tiers_unique,
    leftJoin_unique (fun g : (Dimensions × List Event) × Option Tier => g.1.1.serviceId)
      catalogue.services_unique,
    leftJoin_unique
      (fun g : ((Dimensions × List Event) × Option Tier) × Option Service =>
        g.2.map Service.modelId) catalogue.models_unique]
  simp only [List.map_map]
  exact ⟨_, rfl, fun g => ⟨rfl, rfl⟩⟩

/-- The groups `_rollup_day` upserts. -/
def dayGroups (db : Database) (day : Int) : List Group :=
  aggregate db.events db.catalogue (dayStart day) (dayStart (day + 1))

/-- One group for each key among the day's events. -/
theorem dimensions_dayGroups (db : Database) (day : Int) :
    (dayGroups db day).map Group.dimensions =
      ((dayEvents day db.events).map Event.dimensions).dedup := by
  obtain ⟨f, heq, hf⟩ := aggregate_eq db.events db.catalogue (dayStart day) (dayStart (day + 1))
  rw [dayGroups, heq, List.map_map, ← eventsBetween_day, ← groupBy_fst]
  exact List.map_congr_left fun g _ => (hf g).1

/-- A group has the aggregates of its key's events. -/
theorem measures_dayGroups {db : Database} {day : Int} {g : Group} (hg : g ∈ dayGroups db day) :
    g.measures = measuresOf ((dayEvents day db.events).filter
      fun e => e.dimensions = g.dimensions) := by
  obtain ⟨f, heq, hf⟩ := aggregate_eq db.events db.catalogue (dayStart day) (dayStart (day + 1))
  rw [dayGroups, heq] at hg
  obtain ⟨k, hk, rfl⟩ := List.mem_map.mp hg
  rw [(hf k).2, (hf k).1, mem_groupBy hk, eventsBetween_day]

/-! ## After the rollup -/

section Rollup

variable {db : Database} {day now : Int}

theorem unique_rollupRows (db : Database) (day now : Int) :
    ((rollupRows db day now).map Row.key).Nodup :=
  (nodup_upsertGroups db.unique).sublist (List.filter_sublist.map _)

theorem past_rollupRows (hnow : db.clock < now) {row : Row} (hrow : row ∈ rollupRows db day now) :
    row.updatedAt ≤ now := by
  obtain ⟨g, -, hwritten⟩ | ⟨hold, -⟩ := mem_upsertGroups (List.mem_filter.mp hrow).1
  · exact hwritten.updatedAt.le
  · exact (db.past row hold).trans hnow.le

/-- A row of the day is the written one of a group: what was there before and is in no group
is older than the transaction, and deleted. -/
theorem written_of_mem (hbackfill : NoBackfill day db.daily) (hnow : db.clock < now) {row : Row}
    (hrow : row ∈ rollupRows db day now) (hday : row.usageDate = day) :
    ∃ g ∈ dayGroups db day, Written day now db.auth g row := by
  obtain ⟨hmem, hfresh⟩ := List.mem_filter.mp hrow
  obtain hwritten | ⟨hold, -⟩ := mem_upsertGroups hmem
  · exact hwritten
  · have hstale : isStale day now row = true := by
      have hbefore : row.updatedAt < now := (db.past row hold).trans_lt hnow
      simp [isStale, hday, hbackfill row hold hday, hbefore]
    rw [hstale] at hfresh
    cases hfresh

/-- Every group has its row. -/
theorem exists_mem_of_group (now : Int) {g : Group} (hg : g ∈ dayGroups db day) :
    ∃ row ∈ rollupRows db day now, row.key = (day, g.dimensions) := by
  have hkey : (day, g.dimensions) ∈
      ((dayGroups db day).foldl (upsertGroup db.auth day now) db.daily).map Row.key :=
    mem_keys_upsertGroups.mpr (.inr ⟨g, hg, rfl⟩)
  obtain ⟨row, hrow, hkey⟩ := List.mem_map.mp hkey
  obtain ⟨g', -, hwritten⟩ | ⟨-, hnot⟩ := mem_upsertGroups hrow
  · refine ⟨row, List.mem_filter.mpr ⟨hrow, ?_⟩, hkey⟩
    simp [isStale, hwritten.updatedAt]
  · exact absurd hkey (hnot g hg)

end Rollup

/-- `_rollup_day`. The transaction starts `elapsed` microseconds after the clock has moved on;
`lockHeld` says that another run holds the advisory lock, and then this one is skipped. -/
def rollupDay (db : Database) (day : Int) (elapsed : Nat) (lockHeld : Bool) : Database :=
  if lockHeld then db
  else
    { db with
      daily := rollupRows db day (db.clock + 1 + elapsed)
      clock := db.clock + 1 + elapsed
      unique := unique_rollupRows db day _
      past := fun _ hrow => past_rollupRows (by omega) hrow }

theorem rollupDay_daily (db : Database) (day : Int) (elapsed : Nat) :
    (rollupDay db day elapsed false).daily = rollupRows db day (db.clock + 1 + elapsed) := by
  simp [rollupDay]

/-- The rollup writes to `daily_usage` only. -/
theorem rollupDay_frame (db : Database) (day : Int) (elapsed : Nat) (lockHeld : Bool) :
    (rollupDay db day elapsed lockHeld).events = db.events ∧
      (rollupDay db day elapsed lockHeld).catalogue = db.catalogue ∧
      (rollupDay db day elapsed lockHeld).auth = db.auth := by
  unfold rollupDay
  split <;> exact ⟨rfl, rfl, rfl⟩

/-- The rows of the day. -/
def dayRows (day : Int) (rows : List Row) : List Row :=
  rows.filter fun row => row.usageDate = day

/-- The day's events with the given dimensions. -/
def eventsOf (day : Int) (dimensions : Dimensions) (events : List Event) : List Event :=
  (dayEvents day events).filter fun e => e.dimensions = dimensions

/-- What an exact rollup of a day leaves. -/
structure Exact (day : Int) (events : List Event) (before after : List Row) : Prop where
  /-- one row for each key that occurs among the day's events -/
  keys : ((dayRows day after).map Row.dimensions).Perm
    ((dayEvents day events).map Event.dimensions).dedup
  source : ∀ row ∈ dayRows day after, row.source = .rollup
  amounts : ∀ row ∈ dayRows day after, ∀ a, row.measures.amount a =
    ((eventsOf day row.dimensions events).map fun e => e.amount a).sum
  totals : ∀ a, ((dayRows day after).map fun row => row.measures.amount a).sum =
    ((dayEvents day events).map fun e => e.amount a).sum
  /-- request rows count one each, older usage rows with a status once per correlation id -/
  requests : ∀ row ∈ dayRows day after, row.measures.requestCount =
    ((eventsOf day row.dimensions events).filter fun e =>
      e.statusCode.isSome && e.totalUnits == 0).length +
    (((eventsOf day row.dimensions events).filter fun e =>
      e.statusCode.isSome && e.totalUnits != 0).map Event.correlationId).dedup.length
  failed : ∀ row ∈ dayRows day after, row.measures.failedCount ≤ row.measures.requestCount
  counts : ∀ row ∈ dayRows day after,
    row.measures.successCount + row.measures.failedCount = row.measures.requestCount
  others : otherDays day after = otherDays day before

theorem Event.totalUnits_nonneg (e : Event) : 0 ≤ e.totalUnits :=
  (add_nonneg e.units.1 e.units.2.1).trans e.units.2.2

/-- The units of an event are not negative, so that a row is a request row or has units. -/
theorem isPreCutoverRow_eq (e : Event) :
    isPreCutoverRow e = (e.statusCode.isSome && e.totalUnits != 0) := by
  have hpos : decide (0 < e.totalUnits) = (e.totalUnits != 0) := by
    rw [Bool.eq_iff_iff, decide_eq_true_iff, bne_iff_ne]
    exact ⟨fun h => h.ne', fun h => lt_of_le_of_ne e.totalUnits_nonneg h.symm⟩
  rw [isPreCutoverRow, hpos]

theorem failedCount_le_requestCount (events : List Event) :
    failedCount events ≤ requestCount events := by
  have hstatus : ∀ e : Event, isFailed e = true → e.statusCode.isSome = true := by
    intro e he
    obtain ⟨code, hcode, -⟩ := (Option.any_eq_true _ _).mp he
    rw [hcode]
    rfl
  refine Nat.add_le_add ?_ (countDistinct_mono _ fun e _ he => ?_)
  · refine (List.monotone_filter_right events fun e he => ?_).length_le
    obtain ⟨hfailed, hunits⟩ := Bool.and_eq_true_iff.mp he
    rw [isRequestRow, hstatus e hfailed, hunits]
    rfl
  · obtain ⟨hfailed, hunits⟩ := Bool.and_eq_true_iff.mp he
    rw [isPreCutoverRow, hstatus e hfailed, hunits]
    rfl

section Exactness

variable {db : Database} {day now : Int}

/-- A row of the day has the aggregates of its key's events. -/
theorem measures_of_mem (hbackfill : NoBackfill day db.daily) (hnow : db.clock < now) {row : Row}
    (hrow : row ∈ dayRows day (rollupRows db day now)) :
    row.measures = measuresOf (eventsOf day row.dimensions db.events) := by
  obtain ⟨hmem, hday⟩ := List.mem_filter.mp hrow
  obtain ⟨g, hg, hwritten⟩ := written_of_mem hbackfill hnow hmem (of_decide_eq_true hday)
  rw [hwritten.measures, hwritten.dimensions, measures_dayGroups hg, eventsOf]

theorem keys_rollupRows (hbackfill : NoBackfill day db.daily) (hnow : db.clock < now) :
    ((dayRows day (rollupRows db day now)).map Row.dimensions).Perm
      ((dayEvents day db.events).map Event.dimensions).dedup := by
  have hunique : ((dayRows day (rollupRows db day now)).map Row.dimensions).Nodup := by
    -- on one day the keys are told apart by their dimensions
    have hkeys : ((dayRows day (rollupRows db day now)).map Row.key).Nodup :=
      (unique_rollupRows db day now).sublist (List.filter_sublist.map _)
    have hpair : (dayRows day (rollupRows db day now)).map Row.key =
        ((dayRows day (rollupRows db day now)).map Row.dimensions).map (Prod.mk day) := by
      rw [List.map_map]
      refine List.map_congr_left fun row hrow => ?_
      exact Prod.ext (of_decide_eq_true (List.mem_filter.mp hrow).2) rfl
    rw [hpair] at hkeys
    exact List.Nodup.of_map _ hkeys
  refine (List.perm_ext_iff_of_nodup hunique (List.nodup_dedup _)).mpr fun k => ?_
  rw [← dimensions_dayGroups, List.mem_map, List.mem_map]
  constructor
  · rintro ⟨row, hrow, rfl⟩
    obtain ⟨hmem, hday⟩ := List.mem_filter.mp hrow
    obtain ⟨g, hg, hwritten⟩ := written_of_mem hbackfill hnow hmem (of_decide_eq_true hday)
    exact ⟨g, hg, hwritten.dimensions.symm⟩
  · rintro ⟨g, hg, rfl⟩
    obtain ⟨row, hmem, hkey⟩ := exists_mem_of_group now hg
    obtain ⟨hday, hdimensions⟩ := Prod.mk.inj hkey
    exact ⟨row, List.mem_filter.mpr ⟨hmem, decide_eq_true hday⟩, hdimensions⟩

theorem others_rollupRows (db : Database) (day now : Int) :
    otherDays day (rollupRows db day now) = otherDays day db.daily := by
  have hupserts : otherDays day
      ((dayGroups db day).foldl (upsertGroup db.auth day now) db.daily) = otherDays day db.daily :=
    otherDays_upsertGroups
  rw [← hupserts, otherDays, otherDays, rollupRows, List.filter_filter]
  refine List.filter_congr fun row _ => ?_
  by_cases hday : row.usageDate = day
  · simp [hday]
  · simp [hday, isStale]

theorem exact_rollupRows (hbackfill : NoBackfill day db.daily) (hnow : db.clock < now) :
    Exact day db.events db.daily (rollupRows db day now) where
  keys := keys_rollupRows hbackfill hnow
  source row hrow := by
    obtain ⟨hmem, hday⟩ := List.mem_filter.mp hrow
    exact noBackfill_upsertGroups hbackfill row (List.mem_filter.mp hmem).1
      (of_decide_eq_true hday)
  amounts row hrow a := by rw [measures_of_mem hbackfill hnow hrow, measuresOf]
  totals a := by
    have hrows : (dayRows day (rollupRows db day now)).map (fun row => row.measures.amount a) =
        ((dayRows day (rollupRows db day now)).map Row.dimensions).map fun k =>
          ((eventsOf day k db.events).map fun e => e.amount a).sum := by
      rw [List.map_map]
      refine List.map_congr_left fun row hrow => ?_
      rw [measures_of_mem hbackfill hnow hrow]
      rfl
    rw [hrows, ((keys_rollupRows hbackfill hnow).map _).sum_eq]
    exact sum_fiberwise Event.dimensions (fun e => e.amount a) (dayEvents day db.events)
  requests row hrow := by
    rw [measures_of_mem hbackfill hnow hrow, ← funext isPreCutoverRow_eq]
    exact Nat.cast_add _ _
  failed row hrow := by
    rw [measures_of_mem hbackfill hnow hrow]
    exact Int.ofNat_le.mpr (failedCount_le_requestCount _)
  counts row hrow := by
    rw [measures_of_mem hbackfill hnow hrow]
    exact Int.sub_add_cancel _ _
  others := others_rollupRows db day now

/-! ### A second run -/

/-- A row without the time of its last write. -/
def Row.untimed (row : Row) : Row := { row with updatedAt := 0 }

/-- The rows hold what the groups would write. -/
def Current (auth : AuthNames) (day : Int) (groups : List Group) (rows : List Row) : Prop :=
  ∀ g ∈ groups, (day, g.dimensions) ∈ rows.map Row.key ∧
    ∀ row ∈ rows, row.key = (day, g.dimensions) →
      row.names = namesOf auth g ∧ row.measures = g.measures

theorem upsertGroup_again {auth : AuthNames} {groups : List Group} {rows : List Row}
    (h : Current auth day groups rows) {g : Group} (hg : g ∈ groups) :
    (upsertGroup auth day now rows g).map Row.untimed = rows.map Row.untimed := by
  obtain ⟨hkey, hsame⟩ := h g hg
  obtain ⟨row, hrow, hrowKey⟩ := List.mem_map.mp hkey
  unfold upsertGroup Table.upsert
  split
  · rw [Table.modify, List.map_map]
    refine List.map_congr_left fun row hrow => ?_
    show Row.untimed (if row.key = (day, g.dimensions) then _ else row) = row.untimed
    split
    · rename_i hk
      obtain ⟨hnames, hmeasures⟩ := hsame row hrow hk
      rw [← hnames, ← hmeasures]
      rfl
    · rfl
  · rename_i hnone
    exact absurd (List.find?_eq_none.mp hnone row hrow) (by simp [hrowKey])

/-- What `Current` says does not depend on the times. -/
theorem Current.of_untimed {auth : AuthNames} {groups : List Group} {rows rows' : List Row}
    (h : Current auth day groups rows) (heq : rows'.map Row.untimed = rows.map Row.untimed) :
    Current auth day groups rows' := by
  have hfind : ∀ row ∈ rows', ∃ old ∈ rows, old.untimed = row.untimed := by
    intro row hrow
    exact List.mem_map.mp (heq ▸ List.mem_map_of_mem hrow)
  have hkeys : rows'.map Row.key = rows.map Row.key := by
    have hmap : (rows'.map Row.untimed).map Row.key = (rows.map Row.untimed).map Row.key := by
      rw [heq]
    rw [List.map_map, List.map_map] at hmap
    exact hmap
  intro g hg
  obtain ⟨hkey, hsame⟩ := h g hg
  refine ⟨hkeys ▸ hkey, fun row hrow hrowKey => ?_⟩
  obtain ⟨old, hold, huntimed⟩ := hfind row hrow
  have holdKey : old.untimed.key = row.untimed.key := congrArg Row.key huntimed
  have hnames : old.untimed.names = row.untimed.names := congrArg Row.names huntimed
  have hmeasures : old.untimed.measures = row.untimed.measures := congrArg Row.measures huntimed
  obtain ⟨holdNames, holdMeasures⟩ := hsame old hold (holdKey.trans hrowKey)
  exact ⟨hnames.symm.trans holdNames, hmeasures.symm.trans holdMeasures⟩

theorem upsertGroups_again {auth : AuthNames} {groups : List Group} {rows : List Row}
    (h : Current auth day groups rows) :
    (groups.foldl (upsertGroup auth day now) rows).map Row.untimed = rows.map Row.untimed := by
  induction groups generalizing rows with
  | nil => rfl
  | cons g groups ih =>
    have hstep : (upsertGroup auth day now rows g).map Row.untimed = rows.map Row.untimed :=
      upsertGroup_again h List.mem_cons_self
    have hrest : Current auth day groups (upsertGroup auth day now rows g) :=
      fun g' hg' => h.of_untimed hstep g' (List.mem_cons_of_mem _ hg')
    rw [List.foldl_cons, ih hrest, hstep]

/-- After a rollup the rows hold what its groups would write. -/
theorem current_rollupRows (hbackfill : NoBackfill day db.daily) (hnow : db.clock < now) :
    Current db.auth day (dayGroups db day) (rollupRows db day now) := by
  have hgroups : ((dayGroups db day).map Group.dimensions).Nodup := by
    rw [dimensions_dayGroups]
    exact List.nodup_dedup _
  intro g hg
  refine ⟨?_, fun row hrow hkey => ?_⟩
  · obtain ⟨row, hrow, hkey⟩ := exists_mem_of_group now hg
    exact List.mem_map.mpr ⟨row, hrow, hkey⟩
  · obtain ⟨hday, hdimensions⟩ := Prod.mk.inj hkey
    obtain ⟨g', hg', hwritten⟩ := written_of_mem hbackfill hnow hrow hday
    obtain rfl : g' = g :=
      List.inj_on_of_nodup_map hgroups hg' hg (hwritten.dimensions.symm.trans hdimensions)
    exact ⟨hwritten.names, hwritten.measures⟩

/-- A later run with the same events rewrites every row of the day with what it holds, and
finds none to delete. -/
theorem rollupRows_again (db' : Database) (hbackfill : NoBackfill day db.daily)
    (hnow : db.clock < now) (hevents : db'.events = db.events)
    (hcatalogue : db'.catalogue = db.catalogue) (hauth : db'.auth = db.auth)
    (hdaily : db'.daily = rollupRows db day now) (later : Int) :
    (rollupRows db' day later).map Row.untimed = db'.daily.map Row.untimed := by
  have hgroups : dayGroups db' day = dayGroups db day := by
    rw [dayGroups, dayGroups, hevents, hcatalogue]
  have hcurrent : Current db'.auth day (dayGroups db' day) db'.daily := by
    rw [hgroups, hauth, hdaily]
    exact current_rollupRows hbackfill hnow
  have hkept : rollupRows db' day later =
      (dayGroups db' day).foldl (upsertGroup db'.auth day later) db'.daily := by
    refine List.filter_eq_self.mpr fun row hrow => ?_
    obtain ⟨g, -, hwritten⟩ | ⟨hold, hnot⟩ := mem_upsertGroups hrow
    · simp [isStale, hwritten.updatedAt]
    · have hday : row.usageDate ≠ day := by
        intro hday
        rw [hdaily] at hold
        obtain ⟨g, hg, hwritten⟩ := written_of_mem hbackfill hnow hold hday
        have hg' : g ∈ dayGroups db' day := by rwa [hgroups]
        exact hnot g hg' (Prod.ext hday hwritten.dimensions)
      simp [isStale, hday]
  rw [hkept]
  exact upsertGroups_again hcurrent

end Exactness

/-- **The rollup of a day is exact**, whatever `daily_usage` held before, and doing it again
changes no more than `updated_at`. -/
theorem rollup_exact (db : Database) (day : Int) (elapsed : Nat)
    (hbackfill : NoBackfill day db.daily) :
    Exact day db.events db.daily (rollupDay db day elapsed false).daily ∧
      ∀ elapsed', (rollupDay (rollupDay db day elapsed false) day elapsed' false).daily.map
        Row.untimed = (rollupDay db day elapsed false).daily.map Row.untimed := by
  have hnow : db.clock < db.clock + 1 + elapsed := by omega
  constructor
  · rw [rollupDay_daily]
    exact exact_rollupRows hbackfill hnow
  · intro elapsed'
    obtain ⟨hevents, hcatalogue, hauth⟩ := rollupDay_frame db day elapsed false
    rw [rollupDay_daily (rollupDay db day elapsed false)]
    exact rollupRows_again (rollupDay db day elapsed false) hbackfill hnow hevents hcatalogue hauth
      (rollupDay_daily db day elapsed) _

/-- A request of an unknown application, at noon IST on the first day. -/
def failedRequest : Event where
  correlationId := "c1"
  occurredAt := 23400000000
  tenantId := some 1
  applicationId := none
  apiKeyId := none
  tierId := none
  serviceId := none
  inferenceTypeId := none
  taskType := none
  unitOfMeasurement := none
  statusCode := some 500
  totalUnits := 0
  cachedInputUnits := 0
  outputUnits := 0
  inputUnitsCost := 0
  cachedInputUnitsCost := 0
  outputUnitsCost := 0
  units := by decide +kernel

/-- A chunk of an older request, with its units and a status. -/
def oldChunk (occurredAt : Int) : Event :=
  { failedRequest with
    correlationId := "c2", occurredAt, statusCode := some 200
    totalUnits := 10, inputUnitsCost := 2
    units := by decide +kernel }

/-- A row of an earlier run whose key no event has any more. -/
def leftover (usageDate : Int) : Row where
  usageDate
  dimensions := { failedRequest.dimensions with tenantId := some 2 }
  names := ⟨none, none, none, none, none, none, none, none⟩
  measures := measuresOf []
  source := .rollup
  createdAt := 5
  updatedAt := 5

def sampleDatabase : Database where
  events := [failedRequest, oldChunk 30000000000, oldChunk 31000000000]
  daily := [leftover 0, leftover 1]
  catalogue := ⟨[], [], [], .nil, .nil, .nil⟩
  auth := ⟨fun _ => none, fun _ => none⟩
  clock := 10
  unique := by decide
  past := by decide

theorem rollup_exact_sample :
    (rollupDay sampleDatabase 0 0 false).daily.map (fun row =>
      (row.usageDate, row.measures.requestCount, row.measures.amount .totalUnits)) =
        [(1, 0, 0), (0, 2, 20)] ∧
    Exact 0 sampleDatabase.events sampleDatabase.daily (rollupDay sampleDatabase 0 0 false).daily :=
  ⟨by decide +kernel, (rollup_exact sampleDatabase 0 0 (by decide +kernel)).1⟩

end Ai4iCore.Usage
