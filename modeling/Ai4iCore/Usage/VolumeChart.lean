import Ai4iCore.Base.Tally
import Ai4iCore.Usage.Metering

/-!
# The request-volume chart

`request_volume_chart` and `request_total` of the Usage Dashboard
(services/metering_service_usage_events.py): the requests of a range by bucket and all together.
Daily and weekly buckets add up what the total adds up. Hourly buckets read `usage_events` alone
and there are as many as the length of the range in seconds, which is rounded: when it is rounded
down to whole hours, what happens in the fraction has no bucket (`volume_chart_conserves_iff`).
-/

namespace Ai4iCore.Usage

open Relational

namespace Metering

/-! ## Ranges -/

/-- A preset window, the keys of `_WINDOW_SECONDS`. -/
inductive Preset
  | lastHour
  | lastDay
  | lastWeek
  | lastMonth
  deriving DecidableEq, Repr

/-- `_WINDOW_SECONDS`. -/
def Preset.seconds : Preset → Int
  | .lastHour => 3600
  | .lastDay => 86400
  | .lastWeek => 604800
  | .lastMonth => 2592000

/-- The instants of an `AbsoluteRange`, in microseconds. -/
structure AbsoluteRange where
  start : Int
  stop : Int
  deriving DecidableEq, Repr

/-- The `time_range` of a chart: a preset, or a period with its `absolute_range`. -/
inductive TimeRange
  | preset (window : Preset)
  | period (p : UsagePeriod)
  deriving DecidableEq, Repr

/-- `_bounds`; a preset ends now. -/
def TimeRange.bounds (now : Int) : TimeRange → AbsoluteRange
  | .preset window => ⟨now - window.seconds * 1000000, now⟩
  | .period p => ⟨p.start, p.stop⟩

/-- `duration_seconds`. -/
def AbsoluteRange.durationSeconds (r : AbsoluteRange) : Nat :=
  (max 1 (Rounding.halfEven (((r.stop - r.start : Int) : ℚ) / 1000000))).toNat

/-! ## Steps -/

inductive ChartStep
  | hour
  | day
  | week
  deriving DecidableEq, Repr

def ChartStep.text : ChartStep → String
  | .hour => "1h"
  | .day => "1d"
  | .week => "1w"

/-- `_step_seconds` of the text of a step. -/
def ChartStep.seconds : ChartStep → Nat
  | .hour => 3600
  | .day => 86400
  | .week => 604800

/-- `step_for_duration`. -/
def stepForDuration (seconds : Nat) : ChartStep :=
  if seconds ≤ 86400 then .hour else if seconds ≤ 31 * 86400 then .day else .week

namespace AbsoluteRange

variable (r : AbsoluteRange)

/-- `_range_chart_buckets`: the step, the full buckets and the seconds of the tail. -/
def step : ChartStep := stepForDuration r.durationSeconds

def full : Nat := r.durationSeconds / r.step.seconds

def tail : Nat := r.durationSeconds % r.step.seconds

def buckets : Nat := r.full + if r.tail = 0 then 0 else 1

/-- `stamps`. -/
def stamps : List Int :=
  ((List.range r.full).map fun i : Nat =>
    (r.start + i * r.step.seconds * 1000000).tdiv 1000000) ++
      if r.tail = 0 then [] else [(r.stop - r.tail * 1000000).tdiv 1000000]

/-- The bucket that holds the IST midnight of a day. -/
def dayIndex (day : Int) : Int :=
  min (r.buckets - 1) (max 0 ((dayStart day - r.start) / (r.step.seconds * 1000000)))

/-- The bucket of an instant. -/
def bucketIndex (t : Int) : Int :=
  if r.step.seconds < 86400 then (t - r.start) / (r.step.seconds * 1000000) else r.dayIndex (istDay t)

end AbsoluteRange

/-! ## The chart -/

inductive SeriesKey
  | successful
  | failed
  deriving DecidableEq, Repr

def SeriesKey.text : SeriesKey → String
  | .successful => "successful"
  | .failed => "failed"

def SeriesKey.label : SeriesKey → String
  | .successful => "Successful"
  | .failed => "Failed"

/-- The requests of a series among some requests, of which some have failed. -/
def SeriesKey.count (requests failed : ℚ) : SeriesKey → ℚ
  | .successful => requests - failed
  | .failed => failed

structure GraphPoint where
  ts : Int
  value : ℚ
  deriving DecidableEq, Repr

structure GraphSeries where
  key : String
  label : String
  points : List GraphPoint
  deriving DecidableEq, Repr

structure Graph where
  step : String
  series : List GraphSeries
  deriving DecidableEq, Repr

section Chart

variable (db : Database) (rollupEnabled : Bool) (today : Int) (r : AbsoluteRange) (f : Filters)

/-- The rows of the range and the filters. -/
def selectedEvents : List Event :=
  db.events.filter fun e =>
    decide (r.start ≤ e.occurredAt ∧ e.occurredAt < r.stop) && f.keeps e.dimensions

/-- `request_buckets`. -/
def requestBuckets (stepSeconds : Nat) : List (Int × Nat × Nat) :=
  (groupBy (fun e : Event => (e.occurredAt - r.start) / (stepSeconds * 1000000))
    (selectedEvents db r f)).map fun g => (g.1, requests g.2, failed g.2)

/-- The day of a key of the groups by day. -/
def keyDay : GroupKey → Int
  | [.day day] => day
  | _ => 0

/-- What is added to the counts of a series: bucket by bucket, or day by day. -/
def additions (key : SeriesKey) : List (Nat × ℚ) :=
  if r.step.seconds < 86400 then
    ((requestBuckets db r f r.step.seconds).filter fun b => 0 ≤ b.1 ∧ b.1 < (r.buckets : Int)).map
      fun b => (b.1.toNat, key.count b.2.1 b.2.2)
  else
    (aggregate db rollupEnabled today r.start r.stop [.day] f).map
      fun row => ((r.dayIndex (keyDay row.1)).toNat, key.count (row.2 .requests) (row.2 .failed))

/-- The counts of a series. -/
def chartCounts (key : SeriesKey) : List ℚ :=
  Tally.addAll (List.replicate r.buckets 0) (additions db rollupEnabled today r f key)

def graphSeries (key : SeriesKey) : GraphSeries where
  key := key.text
  label := key.label
  points := (r.stamps.zip (chartCounts db rollupEnabled today r f key)).map fun p => ⟨p.1, p.2⟩

/-- `request_volume_chart`. -/
def requestVolumeChart : Option Graph :=
  if (chartCounts db rollupEnabled today r f .successful).all (· = 0) ∧
      (chartCounts db rollupEnabled today r f .failed).all (· = 0) then none
  else some
    { step := r.step.text
      series := [graphSeries db rollupEnabled today r f .successful,
        graphSeries db rollupEnabled today r f .failed] }

structure RequestTotal where
  total : ℚ
  successful : ℚ
  failed : ℚ

/-- The counts of `request_total`. -/
def requestTotal : RequestTotal :=
  let cur := figures (aggregate db rollupEnabled today r.start r.stop [] f) []
  let successful := cur .requests - cur .failed
  ⟨cur .requests, successful, max 0 (cur .requests - successful)⟩

end Chart

def RequestTotal.count (t : RequestTotal) : SeriesKey → ℚ
  | .successful => t.successful
  | .failed => t.failed

/-- The sum over the buckets of a series; without a graph there is nothing to sum. -/
def Graph.sum (graph : Option Graph) (key : SeriesKey) : ℚ :=
  match graph with
  | none => 0
  | some g => (((g.series.filter fun s => s.key = key.text).flatMap GraphSeries.points).map
      GraphPoint.value).sum

/-! ## Counted requests -/

/-- The rows with a status are request rows: none is from before the cut-over. -/
def RequestRowsOnly (events : List Event) : Prop :=
  ∀ e ∈ events, e.statusCode.isSome = true → isRequestRow e = true

instance (events : List Event) : Decidable (RequestRowsOnly events) :=
  inferInstanceAs (Decidable (∀ e ∈ events, _ → _))

/-- A request that a series counts. -/
def SeriesKey.counts : SeriesKey → Event → Bool
  | .successful, e => isRequestRow e && !isFailed e
  | .failed, e => isRequestRow e && isFailed e

/-- The requests that the total counts. -/
def countedRequests (db : Database) (r : AbsoluteRange) (f : Filters) : List Event :=
  (selectedEvents db r f).filter isRequestRow

section Counts

variable {events : List Event}

theorem isPreCutoverRow_eq_false (h : RequestRowsOnly events) {e : Event} (he : e ∈ events) :
    isPreCutoverRow e = false := by
  by_contra hpre
  obtain ⟨hstatus, hunits⟩ := Bool.and_eq_true_iff.mp (Bool.not_eq_false _ ▸ hpre)
  have hzero := beq_iff_eq.mp (Bool.and_eq_true_iff.mp (h e he hstatus)).2
  have hunits := of_decide_eq_true hunits
  rw [hzero] at hunits
  exact absurd hunits (lt_irrefl 0)

theorem countDistinct_preCutover (h : RequestRowsOnly events) (p : Event → Bool) :
    countDistinct Event.correlationId (fun e => isPreCutoverRow e && p e) events = 0 := by
  have hnone : (events.filter fun e => isPreCutoverRow e && p e) = [] := by
    refine List.filter_eq_nil_iff.mpr fun e he => ?_
    simp [isPreCutoverRow_eq_false h he]
  rw [countDistinct, hnone]
  rfl

theorem requests_eq (h : RequestRowsOnly events) :
    requests events = (events.filter isRequestRow).length := by
  have hnone := countDistinct_preCutover h fun _ => true
  simp only [Bool.and_true] at hnone
  rw [requests, hnone, Nat.add_zero]

theorem failed_eq (h : RequestRowsOnly events) :
    failed events = (events.filter fun e => isRequestRow e && isFailed e).length := by
  rw [failed, countDistinct_preCutover h, Nat.add_zero]

/-- Whether an event is a request that a series counts, as a number. -/
def indicator (key : SeriesKey) (e : Event) : ℚ := if key.counts e then 1 else 0

theorem indicator_nonneg (key : SeriesKey) (e : Event) : 0 ≤ indicator key e := by
  unfold indicator
  split
  · exact zero_le_one
  · exact le_rfl

/-- The figures of a list of events are a sum over them. -/
theorem count_eq (h : RequestRowsOnly events) (key : SeriesKey) :
    key.count (requests events) (failed events) = (events.map (indicator key)).sum := by
  rw [requests_eq h, failed_eq h]
  clear h
  induction events with
  | nil => cases key <;> simp [SeriesKey.count]
  | cons e events ih =>
    rw [List.map_cons, List.sum_cons, ← ih, List.filter_cons, List.filter_cons, indicator]
    cases key <;> cases hrequest : isRequestRow e <;> cases hfailed : isFailed e <;>
      simp [SeriesKey.count, SeriesKey.counts, hrequest, hfailed] <;> ring

theorem count_aggOf (h : RequestRowsOnly events) (key : SeriesKey) :
    key.count (aggOf events .requests) (aggOf events .failed) = (events.map (indicator key)).sum :=
  count_eq h key

theorem RequestRowsOnly.of_subset {events' : List Event} (h : RequestRowsOnly events)
    (hsub : events' ⊆ events) : RequestRowsOnly events' := fun e he => h e (hsub he)

theorem sum_indicator (key : SeriesKey) (events : List Event) :
    (events.map (indicator key)).sum = ((events.filter key.counts).length : ℚ) := by
  induction events with
  | nil => rfl
  | cons e events ih =>
    rw [List.map_cons, List.sum_cons, ih, List.filter_cons, indicator]
    cases hcounts : key.counts e with
    | true => simp [add_comm]
    | false => simp

theorem isRequestRow_of_counts {key : SeriesKey} {e : Event} (h : key.counts e = true) :
    isRequestRow e = true := by
  cases key with
  | successful => exact (Bool.and_eq_true_iff.mp h).1
  | failed => exact (Bool.and_eq_true_iff.mp h).1

/-- The counted requests are in one of the two series. -/
theorem exists_counts {e : Event} (he : isRequestRow e = true) :
    ∃ key : SeriesKey, key.counts e = true := by
  cases hfailed : isFailed e with
  | true => exact ⟨.failed, by simp [SeriesKey.counts, he, hfailed]⟩
  | false => exact ⟨.successful, by simp [SeriesKey.counts, he, hfailed]⟩

end Counts

/-! ## Sums over the selected rows -/

theorem sum_filter_eq {α : Type} (p : α → Bool) (g : α → ℚ) (rows : List α) :
    ((rows.filter p).map g).sum = (rows.map fun a => if p a then g a else 0).sum := by
  have hall := sum_filter_and g (fun _ => true) p rows
  simpa only [Bool.true_and, List.filter_true] using hall

section Selected

variable {db : Database} {rollupEnabled : Bool} {today : Int} {r : AbsoluteRange} {f : Filters}
  {key : SeriesKey}

theorem mem_selectedEvents {e : Event} :
    e ∈ selectedEvents db r f ↔ e ∈ db.events ∧ (r.start ≤ e.occurredAt ∧ e.occurredAt < r.stop) ∧
      f.keeps e.dimensions = true := by
  rw [selectedEvents, List.mem_filter]
  simp only [Bool.and_eq_true, decide_eq_true_eq]

theorem RequestRowsOnly.selected (h : RequestRowsOnly db.events) :
    RequestRowsOnly (selectedEvents db r f) := h.of_subset fun _ he => List.mem_of_mem_filter he

theorem rangeEvents_eq (groupBy : List GroupColumn) (k : GroupKey) :
    rangeEvents db r.start r.stop groupBy f k = (selectedEvents db r f).filter
      fun e => groupKey groupBy (istDay e.occurredAt) e.dimensions = k := by
  rw [rangeEvents, keyEvents, selectedEvents, List.filter_filter]
  simp only [Bool.and_comm]

variable (today r f) in
/-- With request rows only, the rollup changes no figure. -/
theorem figures_eq (hrolled : rollupEnabled = true → RolledOrAbsent db)
    (hrequests : RequestRowsOnly db.events) (groupBy : List GroupColumn) (k : GroupKey) :
    figures (aggregate db rollupEnabled today r.start r.stop groupBy f) k =
      aggOf ((selectedEvents db r f).filter
        fun e => groupKey groupBy (istDay e.occurredAt) e.dimensions = k) := by
  rw [← rangeEvents_eq]
  cases rollupEnabled with
  | false => exact figures_live
  | true =>
    have hcounted : CountedOnce db today r.start r.stop groupBy f := by
      intro k e he e' he' hpre
      rw [isPreCutoverRow_eq_false hrequests (mem_rangeEvents.mp he).1] at hpre
      cases hpre
    rw [(aggregate_agrees_iff (hrolled rfl)).mpr hcounted k, figures_live]

theorem nodup_foldl_addRow {rows result : List (GroupKey × UsageAgg)}
    (h : (result.map Prod.fst).Nodup) : ((rows.foldl addRow result).map Prod.fst).Nodup := by
  induction rows generalizing result with
  | nil => exact h
  | cons row rows ih => exact ih (Table.nodup_upsert h (fun _ => rfl) rfl)

theorem figures_of_mem {result : List (GroupKey × UsageAgg)} (h : (result.map Prod.fst).Nodup)
    {row : GroupKey × UsageAgg} (hrow : row ∈ result) : figures result row.1 = row.2 := by
  rw [figures, Table.get_of_mem h hrow]
  rfl

theorem figures_of_not_mem {result : List (GroupKey × UsageAgg)} {k : GroupKey}
    (h : k ∉ result.map Prod.fst) : figures result k = 0 := by
  have hnone : Table.get Prod.fst result k = none := by
    refine List.find?_eq_none.mpr fun row hrow heq => h ?_
    exact of_decide_eq_true heq ▸ List.mem_map_of_mem hrow
  rw [figures, hnone]
  rfl

variable (today r f key) in
/-- The groups of some keys are a sum over their events. -/
theorem sum_aggregate (hrolled : rollupEnabled = true → RolledOrAbsent db)
    (hrequests : RequestRowsOnly db.events) (groupBy : List GroupColumn) (q : GroupKey → Bool) :
    (((aggregate db rollupEnabled today r.start r.stop groupBy f).filter fun row => q row.1).map
      fun row => key.count (row.2 .requests) (row.2 .failed)).sum =
      (((selectedEvents db r f).filter
        fun e => q (groupKey groupBy (istDay e.occurredAt) e.dimensions)).map
          (indicator key)).sum := by
  let keyOf : Event → GroupKey := fun e => groupKey groupBy (istDay e.occurredAt) e.dimensions
  have hselected : RequestRowsOnly (selectedEvents db r f) := hrequests.selected
  have hfigures : ∀ k, key.count
      (figures (aggregate db rollupEnabled today r.start r.stop groupBy f) k .requests)
      (figures (aggregate db rollupEnabled today r.start r.stop groupBy f) k .failed) =
        (((selectedEvents db r f).filter fun e => keyOf e = k).map (indicator key)).sum := by
    intro k
    rw [figures_eq today r f hrolled hrequests groupBy k]
    exact count_aggOf (hselected.of_subset fun _ he => List.mem_of_mem_filter he) key
  have hnodup : ((aggregate db rollupEnabled today r.start r.stop groupBy f).map
      Prod.fst).Nodup := nodup_foldl_addRow List.nodup_nil
  revert hfigures hnodup
  generalize aggregate db rollupEnabled today r.start r.stop groupBy f = result
  intro hfigures hnodup
  have hrows : ((result.filter fun row => q row.1).map
      fun row => key.count (row.2 .requests) (row.2 .failed)) =
      ((result.filter fun row => q row.1).map Prod.fst).map fun k =>
        (((selectedEvents db r f).filter fun e => keyOf e = k).map (indicator key)).sum := by
    rw [List.map_map]
    refine List.map_congr_left fun row hrow => ?_
    rw [← figures_of_mem hnodup (List.mem_of_mem_filter hrow)]
    exact hfigures row.1
  rw [hrows, ← List.sum_toFinset _ (hnodup.sublist (List.filter_sublist.map _)),
    sum_filter_mem keyOf, sum_filter_eq, sum_filter_eq]
  refine congrArg List.sum (List.map_congr_left fun e he => ?_)
  have hmem : keyOf e ∈ ((result.filter fun row => q row.1).map Prod.fst).toFinset ↔
      keyOf e ∈ result.map Prod.fst ∧ q (keyOf e) = true := by
    rw [List.mem_toFinset, List.mem_map, List.mem_map]
    constructor
    · rintro ⟨row, hrow, heq⟩
      obtain ⟨hrow, hq⟩ := List.mem_filter.mp hrow
      exact ⟨⟨row, hrow, heq⟩, heq ▸ hq⟩
    · rintro ⟨⟨row, hrow, heq⟩, hq⟩
      exact ⟨row, List.mem_filter.mpr ⟨hrow, by rw [heq]; exact hq⟩, heq⟩
  by_cases hkey : keyOf e ∈ result.map Prod.fst
  · simp only [hmem, hkey, true_and, Bool.decide_eq_true]
    rfl
  · -- a group without a row has no requests
    have hzero := hfigures (keyOf e)
    rw [figures_of_not_mem hkey] at hzero
    have hindicator : indicator key e = 0 := by
      have hle : indicator key e ≤
          (((selectedEvents db r f).filter fun e' => keyOf e' = keyOf e).map
            (indicator key)).sum := by
        refine List.single_le_sum ?_ _ (List.mem_map_of_mem (List.mem_filter.mpr ⟨he, ?_⟩))
        · intro x hx
          obtain ⟨e', -, rfl⟩ := List.mem_map.mp hx
          exact indicator_nonneg key e'
        · exact decide_eq_true rfl
      rw [← hzero] at hle
      have hnone : key.count ((0 : UsageAgg) .requests) ((0 : UsageAgg) .failed) = 0 := by
        cases key <;> simp [SeriesKey.count]
      exact le_antisymm (hnone ▸ hle) (indicator_nonneg key e)
    rw [hindicator, ite_self, ite_self]

variable (r f key) in
/-- The hourly buckets of some indices are a sum over their events. -/
theorem sum_requestBuckets (hrequests : RequestRowsOnly db.events) (stepSeconds : Nat)
    (q : Int → Bool) :
    (((requestBuckets db r f stepSeconds).filter fun b => q b.1).map
      fun b => key.count b.2.1 b.2.2).sum =
      (((selectedEvents db r f).filter
        fun e => q ((e.occurredAt - r.start) / (stepSeconds * 1000000))).map
          (indicator key)).sum := by
  have hselected : RequestRowsOnly (selectedEvents db r f) := hrequests.selected
  have hgroups := sum_groupBy
    (fun e : Event => (e.occurredAt - r.start) / (stepSeconds * 1000000)) q (indicator key)
    (selectedEvents db r f)
  rw [← hgroups, requestBuckets, List.filter_map, List.map_map]
  refine congrArg List.sum (List.map_congr_left fun g hg => ?_)
  have hrows := mem_groupBy (List.mem_of_mem_filter hg)
  refine count_eq (hselected.of_subset fun e he => ?_) key
  rw [hrows] at he
  exact List.mem_of_mem_filter he

end Selected

/-! ## Buckets -/

section Buckets

variable (r : AbsoluteRange)

theorem durationSeconds_pos : 0 < r.durationSeconds := by
  unfold AbsoluteRange.durationSeconds
  omega

/-- The step is an hour up to a day, and a day or more beyond. -/
theorem step_seconds_lt_iff : r.step.seconds < 86400 ↔ r.durationSeconds ≤ 86400 := by
  unfold AbsoluteRange.step stepForDuration
  split
  · rename_i hday
    exact ⟨fun _ => hday, fun _ => by decide⟩
  · rename_i hday
    refine ⟨fun h => ?_, fun h => absurd h hday⟩
    split at h
    · exact absurd h (by decide)
    · exact absurd h (by decide)

theorem step_of_le (h : r.durationSeconds ≤ 86400) : r.step.seconds = 3600 := by
  unfold AbsoluteRange.step stepForDuration
  rw [if_pos h]
  rfl

theorem full_add_tail : r.full * r.step.seconds + r.tail = r.durationSeconds := by
  unfold AbsoluteRange.full AbsoluteRange.tail
  rw [Nat.mul_comm]
  exact Nat.div_add_mod _ _

theorem buckets_pos : 0 < r.buckets := by
  have hpos := durationSeconds_pos r
  have hsum := full_add_tail r
  unfold AbsoluteRange.buckets
  split
  · rename_i htail
    rcases Nat.eq_zero_or_pos r.full with hfull | hfull
    · rw [hfull, htail, Nat.zero_mul] at hsum
      omega
    · omega
  · omega

theorem length_stamps : r.stamps.length = r.buckets := by
  unfold AbsoluteRange.stamps AbsoluteRange.buckets
  split <;> simp

theorem dayIndex_bounds (day : Int) : 0 ≤ r.dayIndex day ∧ r.dayIndex day < r.buckets := by
  have hpos := buckets_pos r
  unfold AbsoluteRange.dayIndex
  omega

/-- The range ends at most half a second after its rounded length. -/
theorem stop_le : r.stop ≤ r.start + r.durationSeconds * 1000000 + 500000 := by
  have hround := (Rounding.nearest_halfEven (((r.stop - r.start : Int) : ℚ) / 1000000)).1
  have hle : Rounding.halfEven (((r.stop - r.start : Int) : ℚ) / 1000000) ≤ r.durationSeconds := by
    unfold AbsoluteRange.durationSeconds
    omega
  have hcast : (Rounding.halfEven (((r.stop - r.start : Int) : ℚ) / 1000000) : ℚ) ≤
      ((r.durationSeconds : Int) : ℚ) := by exact_mod_cast hle
  have hlength : ((r.stop - r.start : Int) : ℚ) ≤ ((r.durationSeconds * 1000000 + 500000 : Int) : ℚ) := by
    push_cast at hcast hround ⊢
    linarith
  have hlength : r.stop - r.start ≤ r.durationSeconds * 1000000 + 500000 := by
    exact_mod_cast hlength
  omega

/-- An instant of the range has a bucket, unless the range rounds down to whole hours and the
instant is in the rest. -/
theorem bucketIndex_bounds_iff {t : Int} (hstart : r.start ≤ t) (hstop : t < r.stop) :
    (0 ≤ r.bucketIndex t ∧ r.bucketIndex t < r.buckets) ↔
      (r.durationSeconds ≤ 86400 → 3600 ∣ r.durationSeconds →
        t < r.start + r.durationSeconds * 1000000) := by
  unfold AbsoluteRange.bucketIndex
  split
  · rename_i hstep
    have hday := (step_seconds_lt_iff r).mp hstep
    have hsum := full_add_tail r
    have hend := stop_le r
    have hlength := r.buckets.eq_zero_or_pos
    have htail : r.tail = r.durationSeconds % 3600 := by
      rw [AbsoluteRange.tail, step_of_le r hday]
    unfold AbsoluteRange.buckets
    rw [step_of_le r hday] at hsum ⊢
    constructor
    · rintro ⟨-, hlt⟩ - hdvd
      rw [if_pos (htail.trans (Nat.dvd_iff_mod_eq_zero.mp hdvd))] at hlt
      omega
    · intro h
      refine ⟨by omega, ?_⟩
      split
      · rename_i hwhole
        have hlt := h hday (Nat.dvd_iff_mod_eq_zero.mpr (htail ▸ hwhole))
        omega
      · omega
  · rename_i hstep
    have hday := (step_seconds_lt_iff r).not.mp hstep
    exact ⟨fun _ h => absurd h hday, fun _ => dayIndex_bounds r _⟩

end Buckets

/-! ## The counts of the buckets -/

section Additions

variable {db : Database} {rollupEnabled : Bool} {today : Int} {r : AbsoluteRange} {f : Filters}
  {key : SeriesKey}

/-- Whether an instant has a bucket. -/
def AbsoluteRange.hasBucket (r : AbsoluteRange) (t : Int) : Bool :=
  decide (0 ≤ r.bucketIndex t ∧ r.bucketIndex t < r.buckets)

theorem lt_of_mem_additions {a : Nat × ℚ} (h : a ∈ additions db rollupEnabled today r f key) :
    a.1 < r.buckets := by
  unfold additions at h
  split at h
  · obtain ⟨b, hb, rfl⟩ := List.mem_map.mp h
    have hguard := of_decide_eq_true (List.mem_filter.mp hb).2
    show b.1.toNat < r.buckets
    omega
  · obtain ⟨row, -, rfl⟩ := List.mem_map.mp h
    have hbounds := dayIndex_bounds r (keyDay row.1)
    show (r.dayIndex (keyDay row.1)).toNat < r.buckets
    omega

variable (today r f key) in
/-- What is added at some indices is a sum over the requests that have them. -/
theorem sum_additions (hrolled : rollupEnabled = true → RolledOrAbsent db)
    (hrequests : RequestRowsOnly db.events) (q : Nat → Bool) :
    (((additions db rollupEnabled today r f key).filter fun a => q a.1).map Prod.snd).sum =
      (((selectedEvents db r f).filter fun e => r.hasBucket e.occurredAt &&
        q (r.bucketIndex e.occurredAt).toNat).map (indicator key)).sum := by
  unfold additions
  split
  · rename_i hstep
    have hindex : ∀ t, r.bucketIndex t = (t - r.start) / (r.step.seconds * 1000000) :=
      fun t => if_pos hstep
    simp only [AbsoluteRange.hasBucket, hindex]
    have hbuckets := sum_requestBuckets r f key hrequests r.step.seconds
      fun index => decide (0 ≤ index ∧ index < (r.buckets : Int)) && q index.toNat
    rw [← hbuckets, List.filter_map, List.map_map, List.filter_filter]
    refine congrArg List.sum (congrArg (List.map _) (List.filter_congr fun b _ => ?_))
    exact Bool.and_comm _ _
  · rename_i hstep
    have hindex : ∀ t, r.bucketIndex t = r.dayIndex (istDay t) := fun t => if_neg hstep
    have hbucket : ∀ t, r.hasBucket t = true := by
      intro t
      refine decide_eq_true ?_
      rw [hindex]
      exact dayIndex_bounds r _
    simp only [hbucket, hindex, Bool.true_and]
    have hdays := sum_aggregate today r f key hrolled hrequests [.day]
      fun k => q (r.dayIndex (keyDay k)).toNat
    rw [List.filter_map, List.map_map]
    exact hdays

theorem getElem?_chartCounts (hrolled : rollupEnabled = true → RolledOrAbsent db)
    (hrequests : RequestRowsOnly db.events) {i : Nat} (hi : i < r.buckets) :
    (chartCounts db rollupEnabled today r f key)[i]? =
      some (((selectedEvents db r f).filter fun e =>
        decide (r.bucketIndex e.occurredAt = i)).map (indicator key)).sum := by
  have hsum := sum_additions today r f key hrolled hrequests fun j => decide (j = i)
  have hevents : (fun e : Event => r.hasBucket e.occurredAt &&
      decide ((r.bucketIndex e.occurredAt).toNat = i)) =
      fun e => decide (r.bucketIndex e.occurredAt = i) := by
    funext e
    rw [AbsoluteRange.hasBucket, ← Bool.decide_and]
    refine decide_eq_decide.mpr ?_
    omega
  rw [chartCounts, Tally.getElem?_addAll, List.getElem?_replicate, if_pos hi, hsum, hevents,
    Option.map_some, zero_add]

theorem sum_chartCounts (hrolled : rollupEnabled = true → RolledOrAbsent db)
    (hrequests : RequestRowsOnly db.events) :
    (chartCounts db rollupEnabled today r f key).sum =
      (((selectedEvents db r f).filter fun e => r.hasBucket e.occurredAt).map
        (indicator key)).sum := by
  have hsum := sum_additions today r f key hrolled hrequests fun _ => true
  simp only [Bool.and_true, List.filter_true] at hsum
  rw [chartCounts, Tally.sum_addAll, List.sum_replicate, smul_zero, zero_add, hsum]
  intro a ha
  rw [List.length_replicate]
  exact lt_of_mem_additions ha

/-- The points of a series are its counts. -/
theorem sum_requestVolumeChart :
    Graph.sum (requestVolumeChart db rollupEnabled today r f) key =
      (chartCounts db rollupEnabled today r f key).sum := by
  have hpoints : ∀ key : SeriesKey,
      (graphSeries db rollupEnabled today r f key).points.map GraphPoint.value =
        chartCounts db rollupEnabled today r f key := by
    intro key
    have hlength : r.stamps.length = (chartCounts db rollupEnabled today r f key).length := by
      rw [length_stamps, chartCounts, Tally.length_addAll, List.length_replicate]
    rw [graphSeries, List.map_map]
    exact List.map_snd_zip hlength.ge
  unfold requestVolumeChart
  split
  · rename_i hzero
    refine (List.sum_eq_zero fun x hx => ?_).symm
    cases key with
    | successful => exact of_decide_eq_true (List.all_eq_true.mp hzero.1 x hx)
    | failed => exact of_decide_eq_true (List.all_eq_true.mp hzero.2 x hx)
  · show (((([SeriesKey.successful, .failed].map (graphSeries db rollupEnabled today r f)).filter
      fun s => s.key = key.text).flatMap GraphSeries.points).map GraphPoint.value).sum = _
    rw [← hpoints key]
    cases key <;> simp [graphSeries, SeriesKey.text]

/-- The total has all requests. -/
theorem count_requestTotal (hrolled : rollupEnabled = true → RolledOrAbsent db)
    (hrequests : RequestRowsOnly db.events) :
    (requestTotal db rollupEnabled today r f).count key =
      ((selectedEvents db r f).map (indicator key)).sum := by
  have hfigures := figures_eq today r f hrolled hrequests [] []
  have hall : ((selectedEvents db r f).filter
      fun e => groupKey [] (istDay e.occurredAt) e.dimensions = []) = selectedEvents db r f :=
    List.filter_eq_self.mpr fun e _ => decide_eq_true rfl
  rw [hall] at hfigures
  have hcount := fun key => count_aggOf (hrequests.selected (r := r) (f := f)) key
  rw [← hcount key, requestTotal, hfigures]
  cases key with
  | successful => rfl
  | failed =>
    have hnonneg : 0 ≤ aggOf (selectedEvents db r f) .failed := Nat.cast_nonneg _
    show max 0 _ = _
    rw [sub_sub_cancel]
    exact max_eq_right hnonneg

end Additions

/-! ## The chart and the total -/

/-- What makes a sum smaller that leaves out some rows. -/
theorem sum_filter_eq_sum_iff {α : Type} {g : α → ℚ} (hg : ∀ a, 0 ≤ g a) (p : α → Bool)
    (rows : List α) :
    ((rows.filter p).map g).sum = (rows.map g).sum ↔ ∀ a ∈ rows, p a = false → g a = 0 := by
  have hle : ∀ rows : List α, ((rows.filter p).map g).sum ≤ (rows.map g).sum := by
    intro rows
    refine (List.filter_sublist.map g).sum_le_sum fun x hx => ?_
    obtain ⟨a, -, rfl⟩ := List.mem_map.mp hx
    exact hg a
  induction rows with
  | nil => simp
  | cons a rows ih =>
    rw [List.forall_mem_cons.trans (and_congr_right fun _ => ih.symm), List.map_cons,
      List.sum_cons]
    cases hp : p a with
    | true => simp [hp]
    | false =>
      have htail := hle rows
      have hhead := hg a
      simp only [List.filter_cons, hp, forall_const]
      constructor
      · intro h
        simp only [Bool.false_eq_true, if_false] at h
        constructor <;> linarith
      · rintro ⟨hzero, heq⟩
        simp only [Bool.false_eq_true, if_false]
        rw [hzero, heq, zero_add]

section Conserves

variable (db : Database) (rollupEnabled : Bool) (today today' : Int) (r : AbsoluteRange)
  (f : Filters)

/-- The chart has the requests of the total, every one in one bucket, and all buckets that are
added to are there. The two reads may be on different days. -/
structure Conserves : Prop where
  sums : ∀ key, Graph.sum (requestVolumeChart db rollupEnabled today r f) key =
    (requestTotal db rollupEnabled today' r f).count key
  bucket : ∀ e ∈ countedRequests db r f,
    ∃! i : Nat, i < r.buckets ∧ r.bucketIndex e.occurredAt = i
  counts : ∀ key, ∀ i : Nat, i < r.buckets →
    (chartCounts db rollupEnabled today r f key)[i]? =
      some (((countedRequests db r f).filter fun e =>
        key.counts e && decide (r.bucketIndex e.occurredAt = i)).length : ℚ)
  written : ∀ key, ∀ a ∈ additions db rollupEnabled today r f key, a.1 < r.buckets

/-- When the range rounds down to whole hours, no request is in the rest. -/
def InTime : Prop :=
  r.durationSeconds ≤ 86400 → 3600 ∣ r.durationSeconds →
    ∀ e ∈ countedRequests db r f, e.occurredAt < r.start + r.durationSeconds * 1000000

instance : Decidable (InTime db r f) := inferInstanceAs (Decidable (_ → _ → _))

variable {db rollupEnabled today today' r f}

theorem mem_countedRequests {e : Event} :
    e ∈ countedRequests db r f ↔ e ∈ selectedEvents db r f ∧ isRequestRow e = true :=
  List.mem_filter

theorem inTime_iff :
    InTime db r f ↔ ∀ e ∈ countedRequests db r f, r.hasBucket e.occurredAt = true := by
  have hbounds : ∀ e ∈ countedRequests db r f, r.hasBucket e.occurredAt = true ↔
      (r.durationSeconds ≤ 86400 → 3600 ∣ r.durationSeconds →
        e.occurredAt < r.start + r.durationSeconds * 1000000) := by
    intro e he
    obtain ⟨hstart, hstop⟩ := (mem_selectedEvents.mp (mem_countedRequests.mp he).1).2.1
    rw [AbsoluteRange.hasBucket, decide_eq_true_eq]
    exact bucketIndex_bounds_iff r hstart hstop
  constructor
  · intro h e he
    exact (hbounds e he).mpr fun hday hdvd => h hday hdvd e he
  · intro h hday hdvd e he
    exact (hbounds e he).mp (h e he) hday hdvd

/-- The sums agree exactly when every counted request has a bucket. -/
theorem sums_iff (hrolled : rollupEnabled = true → RolledOrAbsent db)
    (hrequests : RequestRowsOnly db.events) :
    (∀ key, Graph.sum (requestVolumeChart db rollupEnabled today r f) key =
      (requestTotal db rollupEnabled today' r f).count key) ↔ InTime db r f := by
  have hsums : ∀ key, Graph.sum (requestVolumeChart db rollupEnabled today r f) key =
      (requestTotal db rollupEnabled today' r f).count key ↔
      ∀ e ∈ selectedEvents db r f, r.hasBucket e.occurredAt = false → indicator key e = 0 := by
    intro key
    rw [sum_requestVolumeChart, sum_chartCounts hrolled hrequests,
      count_requestTotal hrolled hrequests]
    exact sum_filter_eq_sum_iff (indicator_nonneg key) _ _
  rw [forall_congr' hsums, inTime_iff]
  constructor
  · intro h e he
    obtain ⟨he, hrequest⟩ := mem_countedRequests.mp he
    obtain ⟨key, hkey⟩ := exists_counts hrequest
    by_contra hbucket
    have hzero := h key e he (Bool.not_eq_true _ ▸ hbucket)
    rw [indicator, if_pos hkey] at hzero
    exact one_ne_zero hzero
  · intro h key e he hbucket
    refine if_neg fun hkey => ?_
    rw [h e (mem_countedRequests.mpr ⟨he, isRequestRow_of_counts hkey⟩)] at hbucket
    cases hbucket

end Conserves

/-- **The chart conserves the totals** exactly when no request is in a fraction of a second that
rounds the range down to whole hours. -/
theorem volume_chart_conserves_iff {db : Database} {rollupEnabled : Bool}
    (hrolled : rollupEnabled = true → RolledOrAbsent db) (hrequests : RequestRowsOnly db.events)
    (today today' now : Int) (range : TimeRange) (f : Filters) :
    Conserves db rollupEnabled today today' (range.bounds now) f ↔
      InTime db (range.bounds now) f := by
  generalize range.bounds now = r
  constructor
  · intro h
    exact (sums_iff hrolled hrequests).mp h.sums
  · intro h
    refine ⟨(sums_iff hrolled hrequests).mpr h, fun e he => ?_, fun key i hi => ?_,
      fun key a ha => lt_of_mem_additions ha⟩
    · have hbucket := of_decide_eq_true (inTime_iff.mp h e he)
      refine ⟨(r.bucketIndex e.occurredAt).toNat, ⟨?_, ?_⟩, fun i hi => ?_⟩ <;> omega
    · rw [getElem?_chartCounts hrolled hrequests hi, sum_indicator, List.filter_filter,
        countedRequests, List.filter_filter]
      refine congrArg some (congrArg (fun l : List Event => (l.length : ℚ))
        (List.filter_congr fun e _ => ?_))
      cases hcounts : key.counts e with
      | true => rw [isRequestRow_of_counts hcounts, Bool.and_true]
      | false => rfl

/-! ## A request in the first half second of a day -/

/-- Two requests, at noon and a tenth of a second after midnight. -/
def lateRequest : Database :=
  { sampleDatabase with
    events := [{ failedRequest with occurredAt := dayStart 20000 + 43200000000 },
      { failedRequest with occurredAt := dayStart 20001 + 100000, statusCode := some 200 }] }.cleared

/-- The day before one o'clock in the morning of 2024-10-05, with 2024-10-04 rolled up. -/
theorem volume_chart_conserves_rolled :
    Conserves (rollupDay lateRequest 20000 0 false) true 20001 20001
      ((TimeRange.preset .lastDay).bounds (dayStart 20001 + 3600000000)) ⟨none, none⟩ := by
  have hrolled : RolledOrAbsent (rollupDay lateRequest 20000 0 false) :=
    (rolledOrAbsent_cleared _).rollupDay (noBackfill_cleared _ 20000)
  exact (volume_chart_conserves_iff (fun _ => hrolled) (by decide +kernel) 20001 20001
    (dayStart 20001 + 3600000000) (.preset .lastDay) ⟨none, none⟩).mpr (by decide +kernel)

/-- Of yesterday and today, asked for 0.3 s after midnight, the chart has the request of yesterday
and the total has both. -/
theorem volume_chart_loses :
    (resolvePeriod id (fun s => if s = "2024-10-04" then some 20000 else some 20001)
      1728066600300000 true (some "custom") (some "2024-10-04") (some "2024-10-05")).toOption =
        some ⟨"custom", 20000, 20001, dayStart 20000, 1728066600300000⟩ ∧
    RequestRowsOnly lateRequest.events ∧
    ¬ Conserves lateRequest false 20001 20001
      ((TimeRange.period ⟨"custom", 20000, 20001, dayStart 20000, 1728066600300000⟩).bounds
        1728066600300000) ⟨none, none⟩ :=
  ⟨by decide +kernel, by decide +kernel, fun h => absurd (h.sums .successful) (by decide +kernel)⟩

end Metering

end Ai4iCore.Usage
