import Mathlib.Algebra.BigOperators.Pi
import Mathlib.Algebra.BigOperators.Ring.Finset
import Ai4iCore.Base.Intervals
import Ai4iCore.Usage.Period

/-!
# Metering with and without the rollup

`MeteringUsageRepository.aggregate` (pay_per_use/metering_usage.py): requests, failures and units
over a range, by group. With the rollup enabled the whole past days that `daily_usage` has rows
for are read there, and everything else from `usage_events`.

Units and request rows add up however the range is cut. Older rows that stand in for their
request are counted by distinct correlation id, within a row of the rollup or within what is read
live, so a correlation id that occurs in two of these is counted twice where the live figures
count it once. That is the only way in which the figures differ (`aggregate_agrees_iff`).
-/

namespace Ai4iCore.Usage

open Relational

namespace Metering

/-! ## Figures and groups -/

inductive AggFigure
  | requests
  | failed
  | units
  | cachedUnits
  | outputUnits
  deriving DecidableEq, Repr

/-- `UsageAgg`. -/
abbrev UsageAgg := AggFigure → ℚ

/-- `_REQUESTS`. -/
def requests (events : List Event) : Nat :=
  (events.filter isRequestRow).length +
    countDistinct Event.correlationId isPreCutoverRow events

/-- `_FAILED`. -/
def failed (events : List Event) : Nat :=
  (events.filter fun e => isRequestRow e && isFailed e).length +
    countDistinct Event.correlationId (fun e => isPreCutoverRow e && isFailed e) events

/-- The selected columns over rows of `usage_events`. -/
def aggOf (events : List Event) : UsageAgg
  | .requests => requests events
  | .failed => failed events
  | .units => (events.map Event.totalUnits).sum
  | .cachedUnits => (events.map Event.cachedInputUnits).sum
  | .outputUnits => (events.map Event.outputUnits).sum

/-- The selected columns of a row of `daily_usage`. -/
def rowAgg (m : Measures) : UsageAgg
  | .requests => m.requestCount
  | .failed => m.failedCount
  | .units => m.amount .totalUnits
  | .cachedUnits => m.amount .cachedInputUnits
  | .outputUnits => m.amount .outputUnits

/-- The keys of `_GROUPS`. -/
inductive GroupColumn
  | tenantId
  | serviceId
  | inferenceTypeId
  | day
  deriving DecidableEq, Repr

inductive GroupValue
  | id (value : Option Int)
  | text (value : Option String)
  | day (value : Int)
  deriving DecidableEq, Repr

abbrev GroupKey := List GroupValue

/-- The expression of a group on either table: both have the dimensions, and an IST day. -/
def GroupColumn.value (day : Int) (k : Dimensions) : GroupColumn → GroupValue
  | .tenantId => .id k.tenantId
  | .serviceId => .text k.serviceId
  | .inferenceTypeId => .id k.inferenceTypeId
  | .day => .day day

def groupKey (groupBy : List GroupColumn) (day : Int) (k : Dimensions) : GroupKey :=
  groupBy.map (GroupColumn.value day k)

/-- `_filters`. -/
structure Filters where
  tenantId : Option Int
  typeIds : Option (List Int)
  deriving DecidableEq, Repr

def Filters.keeps (f : Filters) (k : Dimensions) : Bool :=
  (f.tenantId.all fun id => k.tenantId = some id) &&
    f.typeIds.all fun ids => k.inferenceTypeId.any fun id => id ∈ ids

/-! ## The two queries -/

/-- The loop of `_rollup_days` from `day` on, which stops before today. -/
def daysFrom (today stop : Int) : Nat → Int → List Int
  | 0, _ => []
  | n + 1, day =>
    if dayStart (day + 1) ≤ stop ∧ day < today then day :: daysFrom today stop n (day + 1) else []

/-- The first IST day that starts in the range. -/
def firstWholeDay (start : Int) : Int :=
  if dayStart (istDay start) < start then istDay start + 1 else istDay start

/-- `_rollup_days`. -/
def rollupDays (rollupEnabled : Bool) (today start stop : Int) : List Int :=
  if rollupEnabled then
    daysFrom today stop (today - firstWholeDay start).toNat (firstWholeDay start)
  else []

/-- The rows that the rollup answers with: a day, a group and its figures. -/
def rollupRows (db : Database) (days : List Int) (groupBy : List GroupColumn) (f : Filters) :
    List (Int × GroupKey × UsageAgg) :=
  (Relational.groupBy (fun row : Row => (row.usageDate, groupKey groupBy row.usageDate row.dimensions))
    (db.daily.filter fun row => decide (row.usageDate ∈ days) && f.keeps row.dimensions)).map
    fun g => (g.1.1, g.1.2, (g.2.map fun row => rowAgg row.measures).sum)

/-- The rows of the query on `usage_events`; without a group it has one row, which is left out
over no events. -/
def liveRows (db : Database) (intervals : List (Int × Int)) (groupBy : List GroupColumn)
    (f : Filters) : List (GroupKey × UsageAgg) :=
  let events := db.events.filter fun e =>
    decide (Intervals.Covered intervals e.occurredAt) && f.keeps e.dimensions
  if groupBy = [] then if events = [] then [] else [([], aggOf events)]
  else
    (Relational.groupBy (fun e : Event => groupKey groupBy (istDay e.occurredAt) e.dimensions)
      events).map fun g => (g.1, aggOf g.2)

/-- `result.setdefault(key, UsageAgg()).add(row)`. -/
def addRow (result : List (GroupKey × UsageAgg)) (row : GroupKey × UsageAgg) :
    List (GroupKey × UsageAgg) :=
  Table.upsert Prod.fst result row.1 (fun old => (old.1, old.2 + row.2)) (row.1, 0 + row.2)

/-- What the rollup does not answer. -/
def liveIntervals (days rolled : List Int) (start stop : Int) : List (Int × Int) :=
  match days.head?, days.getLast? with
  | some first, some last =>
    (start, dayStart first) :: (dayStart (last + 1), stop) ::
      (days.filter fun d => d ∉ rolled).map fun d => (dayStart d, dayStart (d + 1))
  | _, _ => [(start, stop)]

/-- `aggregate`. -/
def aggregate (db : Database) (rollupEnabled : Bool) (today start stop : Int)
    (groupBy : List GroupColumn) (f : Filters) : List (GroupKey × UsageAgg) :=
  let days := rollupDays rollupEnabled today start stop
  let rows := if days = [] then [] else rollupRows db days groupBy f
  let intervals := Intervals.merge (liveIntervals days (rows.map Prod.fst) start stop)
  let live := if intervals = [] then [] else liveRows db intervals groupBy f
  (rows.map Prod.snd ++ live).foldl addRow []

/-- The figures of a group; a group that is not there has none. -/
def figures (result : List (GroupKey × UsageAgg)) (key : GroupKey) : UsageAgg :=
  ((Table.get Prod.fst result key).map Prod.snd).getD 0

/-! ## The result -/

theorem figures_addRow (result : List (GroupKey × UsageAgg)) (row : GroupKey × UsageAgg)
    (key : GroupKey) :
    figures (addRow result row) key = figures result key + if row.1 = key then row.2 else 0 := by
  unfold addRow Table.upsert
  split
  · rename_i old hold
    have hmodify : Table.get Prod.fst
        (Table.modify Prod.fst result row.1 fun old => (old.1, old.2 + row.2)) key =
          (Table.get Prod.fst result key).map fun old =>
            if key = row.1 then (old.1, old.2 + row.2) else old :=
      Table.get_modify fun _ => rfl
    unfold figures
    rw [hmodify]
    by_cases hkey : row.1 = key
    · subst hkey
      rw [hold]
      simp
    · cases Table.get Prod.fst result key with
      | none => simp [hkey]
      | some r => simp [hkey, Ne.symm hkey]
  · rename_i hnone
    have hinsert : Table.get Prod.fst (result ++ [row]) key =
        if row.1 = key then some row else Table.get Prod.fst result key :=
      Table.get_append_singleton hnone
    unfold figures
    rw [zero_add, hinsert]
    by_cases hkey : row.1 = key
    · subst hkey
      rw [hnone]
      simp
    · simp [hkey]

/-- The rows of a group are added up. -/
theorem figures_foldl (rows result : List (GroupKey × UsageAgg)) (key : GroupKey) :
    figures (rows.foldl addRow result) key =
      figures result key + ((rows.filter fun row => row.1 = key).map Prod.snd).sum := by
  induction rows generalizing result with
  | nil => simp
  | cons row rows ih =>
    rw [List.foldl_cons, ih, figures_addRow, List.filter_cons, add_assoc]
    by_cases hkey : row.1 = key <;> simp [hkey]

/-! ## The queries -/

section Queries

variable {db : Database} {groupBy : List GroupColumn} {f : Filters}

theorem aggOf_nil : aggOf [] = 0 := by
  funext a
  cases a <;> rfl

/-- The daily rows of a query that are in a group. -/
def keyRows (db : Database) (days : List Int) (groupBy : List GroupColumn) (f : Filters)
    (key : GroupKey) : List Row :=
  db.daily.filter fun row => (decide (row.usageDate ∈ days) && f.keeps row.dimensions) &&
    decide (groupKey groupBy row.usageDate row.dimensions = key)

/-- The events of a range that are in a group. -/
def keyEvents (db : Database) (covered : Int → Bool) (groupBy : List GroupColumn) (f : Filters)
    (key : GroupKey) : List Event :=
  db.events.filter fun e => (covered e.occurredAt && f.keeps e.dimensions) &&
    decide (groupKey groupBy (istDay e.occurredAt) e.dimensions = key)

theorem rollupRows_sum (days : List Int) (key : GroupKey) :
    ((((rollupRows db days groupBy f).map Prod.snd).filter fun row => row.1 = key).map
      Prod.snd).sum =
      ((keyRows db days groupBy f key).map fun row => rowAgg row.measures).sum := by
  have hsum := sum_groupBy
    (fun row : Row => (row.usageDate, groupKey groupBy row.usageDate row.dimensions))
    (fun k => decide (k.2 = key)) (fun row => rowAgg row.measures)
    (db.daily.filter fun row => decide (row.usageDate ∈ days) && f.keeps row.dimensions)
  rw [List.filter_filter] at hsum
  rw [rollupRows, List.map_map, List.filter_map, List.map_map]
  rw [keyRows]
  simp only [Bool.and_comm _ (decide (groupKey groupBy _ _ = key))]
  exact hsum

theorem liveRows_sum (intervals : List (Int × Int)) (key : GroupKey) :
    (((liveRows db intervals groupBy f).filter fun row => row.1 = key).map Prod.snd).sum =
      aggOf (keyEvents db (fun t => Intervals.Covered intervals t) groupBy f key) := by
  rw [liveRows]
  generalize hevents : (db.events.filter fun e =>
    decide (Intervals.Covered intervals e.occurredAt) && f.keeps e.dimensions) = events
  have hkey : keyEvents db (fun t => Intervals.Covered intervals t) groupBy f key =
      events.filter fun e => groupKey groupBy (istDay e.occurredAt) e.dimensions = key := by
    rw [← hevents, List.filter_filter, keyEvents]
    simp only [Bool.and_comm (decide (groupKey groupBy _ _ = key))]
  rw [hkey]
  split
  · -- one row for all events, whose key is empty
    rename_i hgroup
    subst hgroup
    split
    · rename_i hnone
      rw [hnone]
      exact aggOf_nil.symm
    · by_cases hempty : ([] : GroupKey) = key
      · subst hempty
        simp [groupKey]
      · simp [groupKey, hempty, aggOf_nil]
  · have hgroup := sum_group (fun e : Event => groupKey groupBy (istDay e.occurredAt) e.dimensions)
      aggOf aggOf_nil events key
    rw [List.filter_map, List.map_map]
    exact hgroup

end Queries

/-! ## The days of the rollup -/

/-- The days of the loop follow each other, and end before `stop` and before today. -/
theorem daysFrom_eq (today stop : Int) (n : Nat) (day : Int) :
    ∃ m : Nat, daysFrom today stop n day = (List.range m).map (fun i : Nat => day + (i : Int)) ∧
      (0 < m → dayStart (day + m) ≤ stop) := by
  induction n generalizing day with
  | zero => exact ⟨0, rfl, fun h => absurd h (lt_irrefl 0)⟩
  | succ n ih =>
    unfold daysFrom
    split
    · rename_i hday
      obtain ⟨m, hdays, hstop⟩ := ih (day + 1)
      refine ⟨m + 1, ?_, fun _ => ?_⟩
      · rw [hdays, List.range_succ_eq_map, List.map_cons, List.map_map]
        refine congrArg₂ List.cons (by simp) (List.map_congr_left fun i _ => ?_)
        show day + 1 + (i : Int) = day + ((i + 1 : Nat) : Int)
        omega
      · rcases Nat.eq_zero_or_pos m with hm | hm
        · subst hm
          exact hday.1
        · have hnext := hstop hm
          have hsame : day + 1 + (m : Int) = day + ((m + 1 : Nat) : Int) := by omega
          rwa [hsame] at hnext
    · exact ⟨0, rfl, fun h => absurd h (lt_irrefl 0)⟩

theorem le_dayStart_firstWholeDay (start : Int) : start ≤ dayStart (firstWholeDay start) := by
  unfold firstWholeDay
  split
  · unfold dayStart istDay dayMicros istOffset
    omega
  · omega

/-- The rows of whole days that are not rolled up cover their days. -/
theorem covered_days {days rolled : List Int} {t : Int} :
    Intervals.Covered ((days.filter fun d => d ∉ rolled).map fun d =>
      (dayStart d, dayStart (d + 1))) t ↔ istDay t ∈ days ∧ istDay t ∉ rolled := by
  constructor
  · rintro ⟨i, hi, ht⟩
    obtain ⟨d, hd, rfl⟩ := List.mem_map.mp hi
    obtain ⟨hd, hrolled⟩ := List.mem_filter.mp hd
    rw [(window_iff d t).mp ht]
    exact ⟨hd, of_decide_eq_true hrolled⟩
  · rintro ⟨hd, hrolled⟩
    refine ⟨_, List.mem_map.mpr ⟨istDay t, ?_, rfl⟩, (window_iff (istDay t) t).mpr rfl⟩
    exact List.mem_filter.mpr ⟨hd, decide_eq_true hrolled⟩

/-- The instants of consecutive days. -/
theorem mem_consecutive_iff {first t : Int} {m : Nat} :
    istDay t ∈ (List.range m).map (fun i : Nat => first + (i : Int)) ↔
      dayStart first ≤ t ∧ t < dayStart (first + m) := by
  rw [List.mem_map]
  constructor
  · rintro ⟨i, hi, hday⟩
    have hi := List.mem_range.mp hi
    revert hday
    unfold dayStart istDay dayMicros istOffset
    omega
  · intro ht
    refine ⟨(istDay t - first).toNat, List.mem_range.mpr ?_, ?_⟩
    · revert ht
      unfold dayStart istDay dayMicros istOffset
      omega
    · revert ht
      unfold dayStart istDay dayMicros istOffset
      omega

/-- What is left of a range without some of the days in its middle. -/
theorem covered_around {start stop first t : Int} {m : Nat} {rolled : List Int}
    (hstart : start ≤ dayStart first) (hstop : dayStart (first + (m + 1 : Nat)) ≤ stop) :
    Intervals.Covered
        (liveIntervals ((List.range (m + 1)).map fun i : Nat => first + (i : Int)) rolled start stop)
        t ↔
      (start ≤ t ∧ t < stop) ∧
        ¬ (istDay t ∈ (List.range (m + 1)).map (fun i : Nat => first + (i : Int)) ∧
          istDay t ∈ rolled) := by
  have hlast : first + (m : Int) + 1 = first + ((m + 1 : Nat) : Int) := by omega
  have hintervals : liveIntervals ((List.range (m + 1)).map fun i : Nat => first + (i : Int)) rolled
      start stop = (start, dayStart first) :: (dayStart (first + (m + 1 : Nat)), stop) ::
        (((List.range (m + 1)).map fun i : Nat => first + (i : Int)).filter
          fun d => d ∉ rolled).map fun d => (dayStart d, dayStart (d + 1)) := by
    have hhead : ((List.range (m + 1)).map fun i : Nat => first + (i : Int)).head? = some first := by
      rw [List.range_succ_eq_map, List.map_cons, List.head?_cons]
      simp
    have hend : ((List.range (m + 1)).map fun i : Nat => first + (i : Int)).getLast? =
        some (first + m) := by
      rw [List.range_succ, List.map_append, List.map_singleton, List.getLast?_concat]
    rw [liveIntervals, hhead, hend]
    dsimp only
    rw [hlast]
  have hordered : dayStart first ≤ dayStart (first + (m + 1 : Nat)) := dayStart_mono (by omega)
  rw [hintervals, Intervals.covered_cons, Intervals.covered_cons, covered_days,
    mem_consecutive_iff]
  by_cases hrolled : istDay t ∈ rolled
  · simp only [hrolled, not_true_eq_false, and_false, and_true, or_false]
    omega
  · simp only [hrolled, not_false_eq_true, and_false, and_true]
    omega

/-- What the rollup does not answer is the range without the rolled days of the loop. -/
theorem covered_liveIntervals (rollupEnabled : Bool) (today start stop t : Int)
    (rolled : List Int) :
    Intervals.Covered
        (liveIntervals (rollupDays rollupEnabled today start stop) rolled start stop) t ↔
      (start ≤ t ∧ t < stop) ∧
        ¬ (istDay t ∈ rollupDays rollupEnabled today start stop ∧ istDay t ∈ rolled) := by
  have hnone : Intervals.Covered (liveIntervals [] rolled start stop) t ↔
      (start ≤ t ∧ t < stop) ∧ ¬ (istDay t ∈ ([] : List Int) ∧ istDay t ∈ rolled) := by
    simp [liveIntervals, Intervals.Covered]
  cases rollupEnabled with
  | false => exact hnone
  | true =>
    have hdays : rollupDays true today start stop = daysFrom today stop
      (today - firstWholeDay start).toNat (firstWholeDay start) := rfl
    obtain ⟨m, hloop, hstop⟩ := daysFrom_eq today stop (today - firstWholeDay start).toNat
      (firstWholeDay start)
    rw [hdays, hloop]
    cases m with
    | zero => exact hnone
    | succ m => exact covered_around (le_dayStart_firstWholeDay start) (hstop (Nat.succ_pos m))

/-- A day of the loop is whole in the range. -/
theorem mem_range_of_rollupDays {rollupEnabled : Bool} {today start stop t : Int}
    (h : istDay t ∈ rollupDays rollupEnabled today start stop) : start ≤ t ∧ t < stop := by
  cases rollupEnabled with
  | false => exact absurd h List.not_mem_nil
  | true =>
    obtain ⟨m, hloop, hstop⟩ := daysFrom_eq today stop (today - firstWholeDay start).toNat
      (firstWholeDay start)
    change istDay t ∈ daysFrom today stop _ _ at h
    rw [hloop] at h
    obtain ⟨hlow, hhigh⟩ := mem_consecutive_iff.mp h
    refine ⟨(le_dayStart_firstWholeDay start).trans hlow, hhigh.trans_le (hstop ?_)⟩
    rcases Nat.eq_zero_or_pos m with hm | hm
    · subst hm
      exact absurd h List.not_mem_nil
    · exact hm

/-! ## The parts of a group -/

section Parts

variable {db : Database} {rollupEnabled : Bool} {today start stop : Int}
  {groupBy : List GroupColumn} {f : Filters} {key : GroupKey}

/-- The days that the rollup has answered. -/
def answeredDays (db : Database) (days : List Int) (groupBy : List GroupColumn) (f : Filters) :
    List Int :=
  (rollupRows db days groupBy f).map Prod.fst

theorem mem_answeredDays {days : List Int} {d : Int} :
    d ∈ answeredDays db days groupBy f ↔
      ∃ row ∈ db.daily, row.usageDate = d ∧ d ∈ days ∧ f.keeps row.dimensions = true := by
  have hkeys : answeredDays db days groupBy f =
      (((db.daily.filter fun row => decide (row.usageDate ∈ days) && f.keeps row.dimensions).map
        fun row : Row => (row.usageDate, groupKey groupBy row.usageDate row.dimensions)).dedup).map
          Prod.fst := by
    rw [← groupBy_fst, answeredDays, rollupRows, List.map_map, List.map_map]
    rfl
  rw [hkeys, List.mem_map]
  constructor
  · rintro ⟨k, hk, rfl⟩
    obtain ⟨row, hrow, rfl⟩ := List.mem_map.mp (List.mem_dedup.mp hk)
    obtain ⟨hrow, hkept⟩ := List.mem_filter.mp hrow
    obtain ⟨hday, hkept⟩ := Bool.and_eq_true_iff.mp hkept
    exact ⟨row, hrow, rfl, of_decide_eq_true hday, hkept⟩
  · rintro ⟨row, hrow, rfl, hday, hkept⟩
    refine ⟨_, List.mem_dedup.mpr (List.mem_map_of_mem (List.mem_filter.mpr ⟨hrow, ?_⟩)), rfl⟩
    rw [decide_eq_true hday, hkept]
    rfl

/-- The figures of a group: its rows of the rollup, and the events that are read live. -/
theorem figures_aggregate :
    figures (aggregate db rollupEnabled today start stop groupBy f) key =
      ((keyRows db (rollupDays rollupEnabled today start stop) groupBy f key).map
        fun row => rowAgg row.measures).sum +
      aggOf (keyEvents db (fun t => (start ≤ t ∧ t < stop) ∧
        ¬ (istDay t ∈ rollupDays rollupEnabled today start stop ∧
          istDay t ∈ answeredDays db (rollupDays rollupEnabled today start stop) groupBy f))
        groupBy f key) := by
  unfold aggregate
  dsimp only
  generalize hdays : rollupDays rollupEnabled today start stop = days
  have hrows : (if days = [] then [] else rollupRows db days groupBy f) =
      rollupRows db days groupBy f := by
    split
    · rename_i hnone
      subst hnone
      simp [rollupRows, Relational.groupBy]
    · rfl
  have hlive : ((((if Intervals.merge (liveIntervals days (answeredDays db days groupBy f) start stop)
      = [] then [] else liveRows db (Intervals.merge (liveIntervals days
        (answeredDays db days groupBy f) start stop)) groupBy f).filter
          fun row => row.1 = key).map Prod.snd)).sum =
      aggOf (keyEvents db (fun t => (start ≤ t ∧ t < stop) ∧
        ¬ (istDay t ∈ days ∧ istDay t ∈ answeredDays db days groupBy f)) groupBy f key) := by
    have hcovered : (fun t => decide (Intervals.Covered (Intervals.merge
        (liveIntervals days (answeredDays db days groupBy f) start stop)) t)) =
        fun t => decide ((start ≤ t ∧ t < stop) ∧
          ¬ (istDay t ∈ days ∧ istDay t ∈ answeredDays db days groupBy f)) := by
      funext t
      refine decide_eq_decide.mpr ?_
      rw [Intervals.covered_merge, ← hdays]
      exact covered_liveIntervals rollupEnabled today start stop t _
    rw [← hcovered, ← liveRows_sum]
    split
    · rename_i hnone
      rw [hnone, liveRows_sum]
      have hempty : keyEvents db (fun t => Intervals.Covered ([] : List (Int × Int)) t) groupBy f
          key = [] := by
        refine List.filter_eq_nil_iff.mpr fun e _ => ?_
        simp [Intervals.Covered]
      rw [hempty, aggOf_nil]
      rfl
    · rfl
  rw [hrows, figures_foldl, List.filter_append, List.map_append, List.sum_append, rollupRows_sum]
  have hzero : figures [] key = 0 := rfl
  rw [hzero, zero_add, ← hlive]
  rfl

/-- The events of a group in the range. -/
def rangeEvents (db : Database) (start stop : Int) (groupBy : List GroupColumn) (f : Filters)
    (key : GroupKey) : List Event :=
  keyEvents db (fun t => start ≤ t ∧ t < stop) groupBy f key

/-- Without the rollup the figures are those of the events. -/
theorem figures_live :
    figures (aggregate db false today start stop groupBy f) key =
      aggOf (rangeEvents db start stop groupBy f key) := by
  have hdays : rollupDays false today start stop = [] := rfl
  have hrows : keyRows db [] groupBy f key = [] := by
    refine List.filter_eq_nil_iff.mpr fun row _ => ?_
    simp
  rw [figures_aggregate, hdays, hrows, List.map_nil, List.sum_nil, zero_add, rangeEvents]
  simp only [List.not_mem_nil, false_and, not_false_eq_true, and_true]

/-- Every day is rolled up, or `daily_usage` has no row of it. -/
def RolledOrAbsent (db : Database) : Prop :=
  ∀ day, dayRows day db.daily = [] ∨ RolledUp db day

/-- Where an event of the range is counted: in its row of the rollup, or with what is read
live. -/
def part (db : Database) (today start stop : Int) (e : Event) : Option (Int × Dimensions) :=
  if istDay e.occurredAt ∈ rollupDays true today start stop ∧
      db.daily.any fun row => row.usageDate = istDay e.occurredAt then
    some (istDay e.occurredAt, e.dimensions)
  else none

theorem part_eq_some_iff {e : Event} {c : Int × Dimensions} :
    part db today start stop e = some c ↔
      (istDay e.occurredAt ∈ rollupDays true today start stop ∧
        ∃ row ∈ db.daily, row.usageDate = istDay e.occurredAt) ∧
      (istDay e.occurredAt, e.dimensions) = c := by
  unfold part
  rw [Option.ite_none_right_eq_some, List.any_eq_true]
  simp only [decide_eq_true_eq, Option.some.injEq]

theorem mem_rangeEvents {e : Event} :
    e ∈ rangeEvents db start stop groupBy f key ↔
      e ∈ db.events ∧ (start ≤ e.occurredAt ∧ e.occurredAt < stop) ∧
        f.keeps e.dimensions = true ∧
        groupKey groupBy (istDay e.occurredAt) e.dimensions = key := by
  rw [rangeEvents, keyEvents, List.mem_filter]
  simp only [Bool.and_eq_true, decide_eq_true_eq, and_assoc]

theorem mem_keyRows {days : List Int} {row : Row} :
    row ∈ keyRows db days groupBy f key ↔
      row ∈ db.daily ∧ row.usageDate ∈ days ∧ f.keeps row.dimensions = true ∧
        groupKey groupBy row.usageDate row.dimensions = key := by
  rw [keyRows, List.mem_filter]
  simp only [Bool.and_eq_true, decide_eq_true_eq, and_assoc]

/-- A day with rows is rolled up. -/
theorem RolledOrAbsent.rolledUp (h : RolledOrAbsent db) {row : Row} (hrow : row ∈ db.daily) :
    RolledUp db row.usageDate := by
  rcases h row.usageDate with hnone | hrolled
  · have hmem : row ∈ dayRows row.usageDate db.daily :=
      List.mem_filter.mpr ⟨hrow, decide_eq_true rfl⟩
    rw [hnone] at hmem
    cases hmem
  · exact hrolled

/-- An event of a day that is rolled up has its row. -/
theorem exists_row_of_rolledUp {e : Event} (h : RolledUp db (istDay e.occurredAt))
    (he : e ∈ db.events) :
    ∃ row ∈ db.daily, row.usageDate = istDay e.occurredAt ∧ row.dimensions = e.dimensions := by
  have hkey : e.dimensions ∈ (dayRows (istDay e.occurredAt) db.daily).map Row.dimensions := by
    refine h.keys.mem_iff.mpr (List.mem_dedup.mpr (List.mem_map_of_mem ?_))
    exact List.mem_filter.mpr ⟨he, decide_eq_true rfl⟩
  obtain ⟨row, hrow, hdimensions⟩ := List.mem_map.mp hkey
  obtain ⟨hrow, hday⟩ := List.mem_filter.mp hrow
  exact ⟨row, hrow, of_decide_eq_true hday, hdimensions⟩

/-- A row of a day that is rolled up has its events. -/
theorem exists_event_of_rolledUp {row : Row} (h : RolledUp db row.usageDate) (hrow : row ∈ db.daily) :
    ∃ e ∈ db.events, istDay e.occurredAt = row.usageDate ∧ e.dimensions = row.dimensions := by
  have hkey : row.dimensions ∈ dayKeys row.usageDate db.events := by
    refine h.keys.mem_iff.mp (List.mem_map_of_mem ?_)
    exact List.mem_filter.mpr ⟨hrow, decide_eq_true rfl⟩
  obtain ⟨e, he, hdimensions⟩ := List.mem_map.mp (List.mem_dedup.mp hkey)
  obtain ⟨he, hday⟩ := List.mem_filter.mp he
  exact ⟨e, he, of_decide_eq_true hday, hdimensions⟩

/-- The events that are read live are those of no row. -/
theorem keyEvents_live (h : RolledOrAbsent db) :
    keyEvents db (fun t => (start ≤ t ∧ t < stop) ∧
        ¬ (istDay t ∈ rollupDays true today start stop ∧
          istDay t ∈ answeredDays db (rollupDays true today start stop) groupBy f)) groupBy f key =
      (rangeEvents db start stop groupBy f key).filter
        fun e => part db today start stop e = none := by
  rw [keyEvents, rangeEvents, keyEvents, List.filter_filter]
  refine List.filter_congr fun e he => ?_
  by_cases hkept : f.keeps e.dimensions = true
  · -- a day that has rows has one of this event, so the filter does not hide the day
    have hanswered : (istDay e.occurredAt ∈ rollupDays true today start stop ∧
        istDay e.occurredAt ∈ answeredDays db (rollupDays true today start stop) groupBy f) ↔
        part db today start stop e ≠ none := by
      rw [Option.ne_none_iff_exists', mem_answeredDays]
      constructor
      · rintro ⟨hday, row, hrow, hdate, -, -⟩
        exact ⟨_, part_eq_some_iff.mpr ⟨⟨hday, row, hrow, hdate⟩, rfl⟩⟩
      · rintro ⟨c, hc⟩
        obtain ⟨⟨hday, row, hrow, hdate⟩, -⟩ := part_eq_some_iff.mp hc
        have hrolled : RolledUp db (istDay e.occurredAt) := hdate ▸ h.rolledUp hrow
        obtain ⟨own, hown, hownDate, hownDimensions⟩ := exists_row_of_rolledUp hrolled he
        exact ⟨hday, own, hown, hownDate, hday, by rw [hownDimensions, hkept]⟩
    have hcovered : decide ((start ≤ e.occurredAt ∧ e.occurredAt < stop) ∧
        ¬ (istDay e.occurredAt ∈ rollupDays true today start stop ∧
          istDay e.occurredAt ∈
            answeredDays db (rollupDays true today start stop) groupBy f)) =
        (decide (part db today start stop e = none) &&
          decide (start ≤ e.occurredAt ∧ e.occurredAt < stop)) := by
      rw [← Bool.decide_and]
      refine decide_eq_decide.mpr ?_
      rw [hanswered, not_not, and_comm]
    rw [hcovered, Bool.and_assoc, Bool.and_assoc, Bool.and_assoc]
  · rw [Bool.not_eq_true] at hkept
    simp [hkept]

/-- A failed row has a status. -/
theorem isFailed_and (e : Event) (p : Bool) :
    (isFailed e && p) = (e.statusCode.isSome && p && isFailed e) := by
  unfold isFailed
  cases e.statusCode with
  | none => rfl
  | some code => exact Bool.and_comm _ _

theorem rowAgg_measuresOf (events : List Event) : rowAgg (measuresOf events) = aggOf events := by
  have hfailed : failedCount events = failed events := by
    unfold failedCount failed
    simp only [isFailed_and]
    rfl
  funext a
  cases a with
  | requests => rfl
  | failed =>
    show ((failedCount events : Int) : ℚ) = (failed events : ℚ)
    rw [hfailed]
    rfl
  | units => rfl
  | cachedUnits => rfl
  | outputUnits => rfl

/-- The rows of a group are the parts of its events, what is read live apart. -/
theorem keyRows_perm (h : RolledOrAbsent db) :
    ((keyRows db (rollupDays true today start stop) groupBy f key).map
      fun row => some row.key).Perm
      ((((rangeEvents db start stop groupBy f key).map (part db today start stop)).dedup).filter
        fun c => c ≠ none) := by
  have hkeys : ((keyRows db (rollupDays true today start stop) groupBy f key).map
      fun row => some row.key).Nodup := by
    have hunique : ((keyRows db (rollupDays true today start stop) groupBy f key).map
        Row.key).Nodup := db.unique.sublist (List.filter_sublist.map _)
    have hmap : (keyRows db (rollupDays true today start stop) groupBy f key).map
        (fun row => some row.key) = ((keyRows db (rollupDays true today start stop) groupBy f
          key).map Row.key).map some := by
      rw [List.map_map]
      rfl
    rw [hmap]
    exact hunique.map (Option.some_injective _)
  refine (List.perm_ext_iff_of_nodup hkeys ((List.nodup_dedup _).filter _)).mpr fun c => ?_
  rw [List.mem_filter, List.mem_dedup, List.mem_map, List.mem_map]
  constructor
  · rintro ⟨row, hrow, rfl⟩
    obtain ⟨hrow, hday, hkept, hgroup⟩ := mem_keyRows.mp hrow
    obtain ⟨e, he, hdate, hdimensions⟩ := exists_event_of_rolledUp (h.rolledUp hrow) hrow
    rw [← hdate] at hday hgroup
    rw [← hdimensions] at hkept hgroup
    refine ⟨⟨e, mem_rangeEvents.mpr ⟨he, mem_range_of_rollupDays hday, hkept, hgroup⟩, ?_⟩, rfl⟩
    exact part_eq_some_iff.mpr ⟨⟨hday, row, hrow, hdate.symm⟩, Prod.ext hdate hdimensions⟩
  · rintro ⟨⟨e, he, rfl⟩, hsome⟩
    obtain ⟨c, hc⟩ := Option.ne_none_iff_exists'.mp (of_decide_eq_true hsome)
    obtain ⟨he, -, hkept, hgroup⟩ := mem_rangeEvents.mp he
    obtain ⟨⟨hday, other, hother, hdate⟩, rfl⟩ := part_eq_some_iff.mp hc
    have hrolled : RolledUp db (istDay e.occurredAt) := hdate ▸ h.rolledUp hother
    obtain ⟨row, hrow, hdate, hdimensions⟩ := exists_row_of_rolledUp hrolled he
    rw [← hdate] at hday hgroup
    rw [← hdimensions] at hkept hgroup
    refine ⟨row, mem_keyRows.mpr ⟨hrow, hday, hkept, hgroup⟩, ?_⟩
    rw [hc]
    exact congrArg some (Prod.ext hdate hdimensions)

/-- A row of a group has the figures of the events that are counted in it. -/
theorem rowAgg_keyRows (h : RolledOrAbsent db) {row : Row}
    (hrow : row ∈ keyRows db (rollupDays true today start stop) groupBy f key) :
    rowAgg row.measures = aggOf ((rangeEvents db start stop groupBy f key).filter
      fun e => part db today start stop e = some row.key) := by
  obtain ⟨hrow, hday, hkept, hgroup⟩ := mem_keyRows.mp hrow
  have hmem : row ∈ dayRows row.usageDate db.daily :=
    List.mem_filter.mpr ⟨hrow, decide_eq_true rfl⟩
  rw [(h.rolledUp hrow).measures hmem, rowAgg_measuresOf]
  refine congrArg aggOf ?_
  rw [eventsOf, dayEvents, rangeEvents, keyEvents, List.filter_filter, List.filter_filter]
  refine List.filter_congr fun e he => ?_
  rw [Bool.eq_iff_iff]
  simp only [Bool.and_eq_true, decide_eq_true_eq]
  rw [part_eq_some_iff]
  constructor
  · rintro ⟨hdimensions, hdate⟩
    rw [← hdate] at hday hgroup
    rw [← hdimensions] at hkept hgroup
    refine ⟨⟨⟨hday, row, hrow, hdate.symm⟩, Prod.ext hdate hdimensions⟩, ?_⟩
    exact ⟨⟨mem_range_of_rollupDays hday, hkept⟩, hgroup⟩
  · rintro ⟨⟨-, hkey⟩, -⟩
    obtain ⟨hdate, hdimensions⟩ := Prod.mk.inj hkey
    exact ⟨hdimensions, hdate⟩

/-- With the rollup the figures are counted part by part. -/
theorem figures_parts (h : RolledOrAbsent db) :
    figures (aggregate db true today start stop groupBy f) key =
      (((rangeEvents db start stop groupBy f key).map (part db today start stop)).dedup.map
        fun c => aggOf ((rangeEvents db start stop groupBy f key).filter
          fun e => part db today start stop e = c)).sum := by
  have hrows : (keyRows db (rollupDays true today start stop) groupBy f key).map
      (fun row => rowAgg row.measures) =
      ((keyRows db (rollupDays true today start stop) groupBy f key).map
        fun row => some row.key).map fun c =>
          aggOf ((rangeEvents db start stop groupBy f key).filter
            fun e => part db today start stop e = c) := by
    rw [List.map_map]
    exact List.map_congr_left fun row hrow => rowAgg_keyRows h hrow
  have hnone : none ∉ (rangeEvents db start stop groupBy f key).map (part db today start stop) →
      aggOf ((rangeEvents db start stop groupBy f key).filter
        fun e => part db today start stop e = none) = 0 := by
    intro hnone
    have hempty : (rangeEvents db start stop groupBy f key).filter
        (fun e => part db today start stop e = none) = [] :=
      List.filter_eq_nil_iff.mpr fun e he hpart =>
        hnone (of_decide_eq_true hpart ▸ List.mem_map_of_mem he)
    rw [hempty, aggOf_nil]
  rw [figures_aggregate, keyEvents_live h, hrows, ((keyRows_perm h).map _).sum_eq,
    sum_dedup_of_ne _ _ none hnone]

/-! ## The same figures -/

/-- The older rows of one group that share a correlation id are counted in one part. -/
def CountedOnce (db : Database) (today start stop : Int) (groupBy : List GroupColumn)
    (f : Filters) : Prop :=
  ∀ key, ∀ e ∈ rangeEvents db start stop groupBy f key,
    ∀ e' ∈ rangeEvents db start stop groupBy f key,
      isPreCutoverRow e = true → isPreCutoverRow e' = true →
      e.correlationId = e'.correlationId →
      part db today start stop e = part db today start stop e'

section Sum

variable {ι : Type} [DecidableEq ι] (part : Event → ι) (events : List Event)

/-- A count over the parts of some events: rows of one kind are counted, and of another kind the
distinct correlation ids of each part. -/
theorem sum_counts (p q : Event → Bool) :
    ((events.map part).dedup.map fun c =>
      ((((events.filter fun e => part e = c).filter p).length +
        countDistinct Event.correlationId q (events.filter fun e => part e = c) : Nat) : ℚ)).sum =
      (events.filter p).length +
        (((events.map part).dedup.map fun c =>
          countDistinct Event.correlationId q (events.filter fun e => part e = c)).sum : Nat) := by
  have hcast : ∀ F : ι → Nat, ((events.map part).dedup.map fun c => (F c : ℚ)).sum =
      (((events.map part).dedup.map F).sum : Nat) := by
    intro F
    rw [Nat.cast_list_sum, List.map_map]
    rfl
  rw [hcast, List.sum_map_add, sum_length_filter, Nat.cast_add]

theorem sum_aggOf_apply (a : AggFigure) :
    ((events.map part).dedup.map fun c => aggOf (events.filter fun e => part e = c)).sum a =
      ((events.map part).dedup.map fun c => aggOf (events.filter fun e => part e = c) a).sum := by
  rw [Pi.list_sum_apply, List.map_map]
  rfl

/-- Requests come out the same part by part when no correlation id of an older row is in two
parts. -/
theorem sum_requests_iff :
    ((events.map part).dedup.map fun c => aggOf (events.filter fun e => part e = c)).sum
        .requests = aggOf events .requests ↔
      ∀ e ∈ events, ∀ e' ∈ events, isPreCutoverRow e = true → isPreCutoverRow e' = true →
        e.correlationId = e'.correlationId → part e = part e' := by
  have hsum := sum_counts part events isRequestRow isPreCutoverRow
  rw [sum_aggOf_apply, ← sum_countDistinct_eq_iff part Event.correlationId isPreCutoverRow events]
  show ((events.map part).dedup.map fun c =>
    ((requests (events.filter fun e => part e = c) : Nat) : ℚ)).sum = (requests events : ℚ) ↔ _
  unfold requests
  rw [hsum, Nat.cast_add, add_right_inj, Nat.cast_inj]

/-- Then failures do so, too. -/
theorem sum_failed
    (h : ∀ e ∈ events, ∀ e' ∈ events, isPreCutoverRow e = true → isPreCutoverRow e' = true →
      e.correlationId = e'.correlationId → part e = part e') :
    ((events.map part).dedup.map fun c => aggOf (events.filter fun e => part e = c)).sum .failed =
      aggOf events .failed := by
  have hsum := sum_counts part events (fun e => isRequestRow e && isFailed e)
    fun e => isPreCutoverRow e && isFailed e
  have hdistinct := (sum_countDistinct_eq_iff part Event.correlationId
    (fun e => isPreCutoverRow e && isFailed e) events).mpr fun e he e' he' hp hp' =>
      h e he e' he' (Bool.and_eq_true_iff.mp hp).1 (Bool.and_eq_true_iff.mp hp').1
  rw [sum_aggOf_apply]
  show ((events.map part).dedup.map fun c =>
    ((failed (events.filter fun e => part e = c) : Nat) : ℚ)).sum = (failed events : ℚ)
  unfold failed
  rw [hsum, hdistinct, Nat.cast_add]

/-- All figures come out the same part by part when no correlation id of an older row is in two
parts. -/
theorem sum_aggOf_eq_iff :
    ((events.map part).dedup.map fun c => aggOf (events.filter fun e => part e = c)).sum =
        aggOf events ↔
      ∀ e ∈ events, ∀ e' ∈ events, isPreCutoverRow e = true → isPreCutoverRow e' = true →
        e.correlationId = e'.correlationId → part e = part e' := by
  constructor
  · intro h
    exact (sum_requests_iff part events).mp (congrFun h .requests)
  · intro h
    funext a
    cases a with
    | requests => exact (sum_requests_iff part events).mpr h
    | failed => exact sum_failed part events h
    | units =>
      rw [sum_aggOf_apply]
      exact sum_fiberwise part Event.totalUnits events
    | cachedUnits =>
      rw [sum_aggOf_apply]
      exact sum_fiberwise part Event.cachedInputUnits events
    | outputUnits =>
      rw [sum_aggOf_apply]
      exact sum_fiberwise part Event.outputUnits events

end Sum

/-- **Metering with the rollup is live metering** exactly when no correlation id of an older row
of a group is counted in two places. -/
theorem aggregate_agrees_iff (h : RolledOrAbsent db) :
    (∀ key, figures (aggregate db true today start stop groupBy f) key =
      figures (aggregate db false today start stop groupBy f) key) ↔
      CountedOnce db today start stop groupBy f := by
  refine forall_congr' fun key => ?_
  rw [figures_parts h, figures_live]
  exact sum_aggOf_eq_iff (part db today start stop) (rangeEvents db start stop groupBy f key)

end Parts

/-! ## A request over midnight -/

section Rollups

variable {db : Database} {day : Int} {elapsed : Nat}

theorem dayRows_rollupDay_of_ne {other : Int} (hne : other ≠ day) :
    dayRows other (rollupDay db day elapsed false).daily = dayRows other db.daily := by
  have hother : ∀ rows : List Row, dayRows other rows = dayRows other (otherDays day rows) := by
    intro rows
    rw [dayRows, dayRows, otherDays, List.filter_filter]
    refine List.filter_congr fun row _ => ?_
    by_cases hdate : row.usageDate = other
    · simp [hdate, hne]
    · simp [hdate]
  rw [rollupDay_daily, hother, others_rollupRows, ← hother]

/-- A nightly rollup of one more day. -/
theorem RolledOrAbsent.rollupDay (h : RolledOrAbsent db) (hbackfill : NoBackfill day db.daily) :
    RolledOrAbsent (rollupDay db day elapsed false) := by
  have hevents : (Usage.rollupDay db day elapsed false).events = db.events :=
    (rollupDay_frame db day elapsed false).1
  intro other
  by_cases hday : other = day
  · subst hday
    exact .inr ⟨db, elapsed, hevents.symm, hbackfill, rfl⟩
  · rw [dayRows_rollupDay_of_ne hday]
    refine (h other).imp_right ?_
    rintro ⟨before, elapsed', hbefore, hnone, hrows⟩
    refine ⟨before, elapsed', hbefore.trans hevents.symm, hnone, ?_⟩
    rw [dayRows_rollupDay_of_ne hday]
    exact hrows

theorem rolledOrAbsent_cleared (db : Database) : RolledOrAbsent db.cleared := fun _ => .inl rfl

end Rollups

/-- The figures of a day whose events share a row. -/
theorem aggregate_agrees_iff_zero :
    figures (aggregate rolledDay true 1 (dayStart 0) (dayStart 1) [] ⟨none, none⟩) [] =
      figures (aggregate rolledDay false 1 (dayStart 0) (dayStart 1) [] ⟨none, none⟩) [] := by
  have hrolled : RolledOrAbsent rolledDay :=
    (rolledOrAbsent_cleared sampleDatabase).rollupDay (noBackfill_cleared sampleDatabase 0)
  have hparts : ∀ e ∈ rolledDay.events, ∀ e' ∈ rolledDay.events,
      part rolledDay 1 (dayStart 0) (dayStart 1) e =
        part rolledDay 1 (dayStart 0) (dayStart 1) e' := by decide +kernel
  have hcounted : CountedOnce rolledDay 1 (dayStart 0) (dayStart 1) [] ⟨none, none⟩ :=
    fun _ e he e' he' _ _ _ => hparts e (mem_rangeEvents.mp he).1 e' (mem_rangeEvents.mp he').1
  exact (aggregate_agrees_iff hrolled).mpr hcounted []

/-- Two chunks of one request, before and after midnight. -/
def overMidnight : Database :=
  { sampleDatabase with events := [oldChunk 66000000000, oldChunk 67000000000] }.cleared

/-- Both days rolled up. -/
def bothDays : Database := rollupDay (rollupDay overMidnight 0 0 false) 1 0 false

/-- The request is counted twice with the rollup and once without. -/
theorem aggregate_differs :
    RolledOrAbsent bothDays ∧
      figures (aggregate bothDays true 2 (dayStart 0) (dayStart 2) [] ⟨none, none⟩) []
        .requests = 2 ∧
      figures (aggregate bothDays false 2 (dayStart 0) (dayStart 2) [] ⟨none, none⟩) []
        .requests = 1 := by
  refine ⟨?_, by decide +kernel, by decide +kernel⟩
  exact ((rolledOrAbsent_cleared _).rollupDay (noBackfill_cleared _ 0)).rollupDay (by decide +kernel)

end Metering

end Ai4iCore.Usage
