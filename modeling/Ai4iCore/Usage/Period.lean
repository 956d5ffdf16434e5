import Ai4iCore.Base.Checked
import Ai4iCore.Usage.Rollup

/-!
# The figures of a period

`resolve_period` (utils/usage_period.py) turns the period filter of the Usage Dashboard into IST
days and an instant range, and `period_sources` (pay_per_use/period_usage.py) says which tables
the range is read from: `usage_events` for all of it, or, with the rollup switched on,
`daily_usage` for the whole past days and `usage_events` for the rest.

The windows of the sources partition the range. The units summed over them are those of the usage
rows of the range; the cost is, where no row without units has a cost that only one of the two
tests for billed usage sees (`period_figures_rollup`).
-/

namespace Ai4iCore.Usage

open Relational

/-! ## The period -/

/-- A 422 `INVALID_PERIOD`. -/
structure InvalidPeriod where
  message : String
  deriving DecidableEq, Repr

structure UsagePeriod where
  key : String
  fromDate : Int
  toDate : Int
  start : Int
  stop : Int
  deriving DecidableEq, Repr

/-- `EARLIEST_FROM`, 2000-01-01. -/
def earliestFrom : Int := 10957

def periodKeys : List String := ["today", "yesterday", "last_7_days", "custom"]

def UsagePeriod.usesDailyUsage (p : UsagePeriod) : Bool := p.key ≠ "today"

/-- `_floored_now`, with the clock in microseconds since 1970. -/
def flooredNow (now : Nat) (today : Int) : Int :=
  let floored : Int := (now / 1000000) / 60 * 60 * 1000000
  if floored > dayStart today then floored else now

section Resolve

/- `str.strip` and `date.fromisoformat`; the date is the number of its day since 1970. -/
variable (strip : String → String) (fromIsoformat : String → Option Int)

/-- `_parse_date`. -/
def parseDate (name raw : String) : Except InvalidPeriod Int :=
  match fromIsoformat (strip raw) with
  | some day => .ok day
  | none => .error ⟨name ++ " must be a date in YYYY-MM-DD format."⟩

/-- `resolve_period` of a custom range. -/
def resolveCustom (now : Nat) (includeToday : Bool) (from_ to_ : Option String) :
    Except InvalidPeriod UsagePeriod :=
  match from_, to_ with
  | some from_, some to_ => do
    let first ← parseDate strip fromIsoformat "from" from_
    let last ← parseDate strip fromIsoformat "to" to_
    let today := istDay now
    if includeToday && last > today then
      .error ⟨"to must be today or earlier."⟩
    else if !includeToday && last ≥ today then
      .error ⟨"to must be yesterday or earlier; use period=today for today."⟩
    else if first > last then .error ⟨"from must not be after to."⟩
    else if first < earliestFrom then .error ⟨"from must be on or after 2000-01-01."⟩
    else
      let stop := if last = today then flooredNow now today else dayStart (last + 1)
      .ok ⟨"custom", first, last, dayStart first, stop⟩
  | _, _ => .error ⟨"from and to are required when period is custom."⟩

/-- `resolve_period`. -/
def resolvePeriod (now : Nat) (includeToday : Bool) (period from_ to_ : Option String) :
    Except InvalidPeriod UsagePeriod :=
  let key := strip ((period.filter (· ≠ "")).getD "today")
  let today := istDay now
  if key ∉ periodKeys then
    .error ⟨"period must be one of: today, yesterday, last_7_days, custom."⟩
  else if key ≠ "custom" then
    if from_.isSome || to_.isSome then
      .error ⟨"from and to are only allowed when period is custom."⟩
    else if key = "today" then
      .ok ⟨key, today, today, dayStart today, flooredNow now today⟩
    else if key = "yesterday" then
      .ok ⟨key, today - 1, today - 1, dayStart (today - 1), dayStart today⟩
    else if !includeToday then
      .ok ⟨key, today - 7, today - 1, dayStart (today - 7), dayStart today⟩
    else .ok ⟨key, today - 6, today, dayStart (today - 6), flooredNow now today⟩
  else resolveCustom strip fromIsoformat now includeToday from_ to_

end Resolve

/-! ## The sources -/

inductive PeriodSource
  /-- `_daily_usage_source` -/
  | dailyUsage (firstDay lastDay : Int)
  /-- `_usage_events_source` -/
  | usageEvents (start stop : Int)
  deriving DecidableEq, Repr

/-- `period_sources`. -/
def periodSources (rollupEnabled : Bool) (p : UsagePeriod) : List PeriodSource :=
  if !(p.usesDailyUsage && rollupEnabled) then [.usageEvents p.start p.stop]
  else
    let lastDayWhole : Bool := p.stop ≥ dayStart (p.toDate + 1)
    let lastRolledDay := if lastDayWhole then p.toDate else p.toDate - 1
    (if lastRolledDay ≥ p.fromDate then [.dailyUsage p.fromDate lastRolledDay] else []) ++
      (if lastDayWhole then [] else [.usageEvents (max p.start (dayStart p.toDate)) p.stop])

/-- The instants that a source has the usage of. -/
def PeriodSource.covers (t : Int) : PeriodSource → Bool
  | .dailyUsage firstDay lastDay => firstDay ≤ istDay t && istDay t ≤ lastDay
  | .usageEvents start stop => start ≤ t && t < stop

/-- The summed columns of a source. -/
inductive Figure
  | totalUnits
  | cachedInputUnits
  | outputUnits
  | cost
  deriving DecidableEq, Repr

/-- `total_cost`, a generated column. -/
def Event.totalCost (e : Event) : ℚ :=
  e.inputUnitsCost + e.cachedInputUnitsCost + e.outputUnitsCost

/-- `cost`, a generated column. -/
def Measures.cost (m : Measures) : ℚ :=
  m.amount .inputUnitsCost + m.amount .cachedInputUnitsCost + m.amount .outputUnitsCost

def Event.figure (e : Event) : Figure → ℚ
  | .totalUnits => e.totalUnits
  | .cachedInputUnits => e.cachedInputUnits
  | .outputUnits => e.outputUnits
  | .cost => e.totalCost

def Measures.figure (m : Measures) : Figure → ℚ
  | .totalUnits => m.amount .totalUnits
  | .cachedInputUnits => m.amount .cachedInputUnits
  | .outputUnits => m.amount .outputUnits
  | .cost => m.cost

/-- `(total_units > 0) | (cost > 0)`. -/
def Measures.isBilled (m : Measures) : Bool :=
  decide (0 < m.amount .totalUnits) || decide (0 < m.cost)

/-- The sum of a figure over the usage rows of a source whose dimensions are selected. -/
def PeriodSource.sum (db : Database) (select : Dimensions → Bool) (figure : Figure) :
    PeriodSource → ℚ
  | .dailyUsage firstDay lastDay =>
    ((db.daily.filter fun row =>
      decide (firstDay ≤ row.usageDate ∧ row.usageDate ≤ lastDay) &&
        (row.measures.isBilled && select row.dimensions)).map
      fun row => row.measures.figure figure).sum
  | .usageEvents start stop =>
    ((db.events.filter fun e => decide (start ≤ e.occurredAt ∧ e.occurredAt < stop) &&
      (!isRequestRow e && select e.dimensions)).map fun e => e.figure figure).sum

/-- A figure of a period: the sources are added up. -/
def periodFigure (rollupEnabled : Bool) (db : Database) (select : Dimensions → Bool)
    (figure : Figure) (p : UsagePeriod) : ℚ :=
  ((periodSources rollupEnabled p).map (PeriodSource.sum db select figure)).sum

/-! ## A day that is rolled up -/

/-- `daily_usage` has the day as the nightly rollup of its events leaves it. -/
def RolledUp (db : Database) (day : Int) : Prop :=
  ∃ (before : Database) (elapsed : Nat), before.events = db.events ∧
    NoBackfill day before.daily ∧
    dayRows day db.daily = dayRows day (rollupDay before day elapsed false).daily

/-- Every day before `today` is rolled up. -/
def RolledUpBefore (db : Database) (today : Int) : Prop := ∀ day < today, RolledUp db day

/-- The events of a day by their dimensions. -/
def dayKeys (day : Int) (events : List Event) : List Dimensions :=
  ((dayEvents day events).map Event.dimensions).dedup

section RolledUp

variable {db : Database} {day : Int}

theorem RolledUp.measures (h : RolledUp db day) {row : Row} (hrow : row ∈ dayRows day db.daily) :
    row.measures = measuresOf (eventsOf day row.dimensions db.events) := by
  obtain ⟨before, elapsed, hevents, hbackfill, hrows⟩ := h
  rw [hrows, rollupDay_daily] at hrow
  rw [← hevents]
  exact measures_of_mem hbackfill (by omega) hrow

theorem RolledUp.keys (h : RolledUp db day) :
    ((dayRows day db.daily).map Row.dimensions).Perm (dayKeys day db.events) := by
  obtain ⟨before, elapsed, hevents, hbackfill, hrows⟩ := h
  rw [hrows, rollupDay_daily, dayKeys, ← hevents]
  exact keys_rollupRows hbackfill (by omega)

/-- A sum over the rows of a day is one over the keys of its events. -/
theorem RolledUp.sum_rows {M : Type*} [AddCommMonoid M] (h : RolledUp db day)
    (F : Dimensions → Measures → M) :
    ((dayRows day db.daily).map fun row => F row.dimensions row.measures).sum =
      ((dayKeys day db.events).map fun k => F k (measuresOf (eventsOf day k db.events))).sum := by
  have hrows : (dayRows day db.daily).map (fun row => F row.dimensions row.measures) =
      ((dayRows day db.daily).map Row.dimensions).map fun k =>
        F k (measuresOf (eventsOf day k db.events)) := by
    rw [List.map_map]
    refine List.map_congr_left fun row hrow => ?_
    rw [h.measures hrow]
    rfl
  rw [hrows, (h.keys.map _).sum_eq]

/-- The database with an empty `daily_usage`. -/
def Database.cleared (db : Database) : Database :=
  { db with
    daily := []
    unique := List.nodup_nil
    past := fun _ h => absurd h List.not_mem_nil }

theorem noBackfill_cleared (db : Database) (day : Int) : NoBackfill day db.cleared.daily :=
  fun _ h => absurd h List.not_mem_nil

/-- A day without events and without rows is rolled up. -/
theorem rolledUp_of_empty (hevents : dayEvents day db.events = [])
    (hrows : dayRows day db.daily = []) : RolledUp db day := by
  refine ⟨db.cleared, 0, rfl, noBackfill_cleared db day, ?_⟩
  have hkeys := keys_rollupRows (noBackfill_cleared db day)
    (show db.cleared.clock < db.cleared.clock + 1 + (0 : Nat) by omega)
  rw [show db.cleared.events = db.events from rfl, hevents, ← rollupDay_daily] at hkeys
  rw [hrows]
  exact (List.map_eq_nil_iff.mp hkeys.eq_nil).symm

/-- When all events are of one day, its rollup rolls every day up. -/
theorem rolledUp_single (hevents : ∀ e ∈ db.events, istDay e.occurredAt = day) (other : Int) :
    RolledUp (rollupDay db.cleared day 0 false) other := by
  by_cases hday : other = day
  · subst hday
    exact ⟨db.cleared, 0, (rollupDay_frame db.cleared other 0 false).1.symm,
      noBackfill_cleared db other, rfl⟩
  · refine rolledUp_of_empty (List.filter_eq_nil_iff.mpr fun e he => ?_)
      (List.filter_eq_nil_iff.mpr fun row hrow => ?_)
    · rw [(rollupDay_frame db.cleared day 0 false).1] at he
      rw [decide_eq_true_eq, hevents e he]
      exact Ne.symm hday
    · rw [rollupDay_daily] at hrow
      intro hother
      have hother : row.usageDate = other := of_decide_eq_true hother
      have hmem : row ∈ otherDays day (rollupRows db.cleared day (db.cleared.clock + 1 + (0 : Nat))) :=
        List.mem_filter.mpr ⟨hrow, by simp [hother, hday]⟩
      rw [others_rollupRows] at hmem
      cases hmem

end RolledUp

/-! ## Billed usage -/

/-- No row without units has a cost that the two tests for billed usage tell apart: a request row
has none, and none is negative. -/
def UnbilledFree (events : List Event) : Prop :=
  ∀ e ∈ events, e.totalUnits = 0 → 0 ≤ e.totalCost ∧ (isRequestRow e = true → e.totalCost = 0)

instance (events : List Event) : Decidable (UnbilledFree events) :=
  inferInstanceAs (Decidable (∀ e ∈ events, _))

section Billed

variable {events : List Event}

theorem cost_measuresOf (events : List Event) :
    (measuresOf events).cost = (events.map Event.totalCost).sum := by
  unfold Measures.cost Event.totalCost
  show ((events.map fun e => e.inputUnitsCost).sum + (events.map fun e => e.cachedInputUnitsCost).sum)
    + (events.map fun e => e.outputUnitsCost).sum = _
  rw [← List.sum_map_add, ← List.sum_map_add]

theorem figure_measuresOf (events : List Event) (figure : Figure) :
    (measuresOf events).figure figure = (events.map fun e => e.figure figure).sum := by
  cases figure with
  | cost => exact cost_measuresOf events
  | _ => rfl

/-- A row without units has no units of any kind. -/
theorem figure_eq_zero {e : Event} {figure : Figure} (hfigure : figure ≠ .cost)
    (hunits : e.totalUnits = 0) : e.figure figure = 0 := by
  obtain ⟨hcached, houtput, hsum⟩ := e.units
  cases figure with
  | totalUnits => exact hunits
  | cachedInputUnits =>
    show e.cachedInputUnits = 0
    linarith
  | outputUnits =>
    show e.outputUnits = 0
    linarith
  | cost => exact absurd rfl hfigure

/-- A figure that both tests for billed usage agree on. -/
def Agreed (events : List Event) (figure : Figure) : Prop := figure = .cost → UnbilledFree events

theorem Agreed.requestRow {figure : Figure} (h : Agreed events figure) {e : Event} (he : e ∈ events)
    (hrequest : isRequestRow e = true) : e.figure figure = 0 := by
  have hunits : e.totalUnits = 0 := beq_iff_eq.mp (Bool.and_eq_true_iff.mp hrequest).2
  by_cases hfigure : figure = .cost
  · subst hfigure
    exact (h rfl e he hunits).2 hrequest
  · exact figure_eq_zero hfigure hunits

/-- A group that is not billed has nothing to sum. -/
theorem Agreed.unbilled {figure : Figure} (h : Agreed events figure)
    (hbilled : (measuresOf events).isBilled = false) :
    (events.map fun e => e.figure figure).sum = 0 := by
  obtain ⟨hunits, hcost⟩ := Bool.or_eq_false_iff.mp hbilled
  have hunits := not_lt.mp (of_decide_eq_false hunits)
  have hcost := not_lt.mp (of_decide_eq_false hcost)
  -- the units of every row are zero
  have hzero : ∀ e ∈ events, e.totalUnits = 0 := by
    have hnonneg : ∀ x ∈ events.map Event.totalUnits, 0 ≤ x := by
      intro x hx
      obtain ⟨e, -, rfl⟩ := List.mem_map.mp hx
      exact e.totalUnits_nonneg
    have hsum : (events.map Event.totalUnits).sum = 0 :=
      le_antisymm hunits (List.sum_nonneg hnonneg)
    intro e he
    exact List.all_zero_of_le_zero_le_of_sum_eq_zero hnonneg hsum (List.mem_map_of_mem he)
  by_cases hfigure : figure = .cost
  · subst hfigure
    rw [cost_measuresOf] at hcost
    refine le_antisymm hcost (List.sum_nonneg fun x hx => ?_)
    obtain ⟨e, he, rfl⟩ := List.mem_map.mp hx
    exact (h rfl e he (hzero e he)).1
  · have hmap : (events.map fun e => e.figure figure) = events.map fun _ => (0 : ℚ) :=
      List.map_congr_left fun e he => figure_eq_zero hfigure (hzero e he)
    rw [hmap]
    exact List.sum_map_zero

/-- The test on the group and the test on its rows leave the same sum. -/
theorem Agreed.group {figure : Figure} (h : Agreed events figure) :
    (if (measuresOf events).isBilled then (measuresOf events).figure figure else 0) =
      (events.map fun e => if isRequestRow e then 0 else e.figure figure).sum := by
  have hrows : (events.map fun e => if isRequestRow e then 0 else e.figure figure) =
      events.map fun e => e.figure figure := by
    refine List.map_congr_left fun e he => ?_
    split
    · rename_i hrequest
      exact (h.requestRow he hrequest).symm
    · rfl
  rw [hrows, figure_measuresOf]
  split
  · rfl
  · rename_i hbilled
    exact (h.unbilled (Bool.not_eq_true _ ▸ hbilled)).symm

end Billed

/-! ## Sources over the same instants -/

section Sources

variable {db : Database} {select : Dimensions → Bool} {figure : Figure}

/-- What a row of `daily_usage` adds to a figure. -/
def rowFigure (select : Dimensions → Bool) (figure : Figure) (k : Dimensions) (m : Measures) : ℚ :=
  if m.isBilled && select k then m.figure figure else 0

/-- What a row of `usage_events` adds to a figure. -/
def eventFigure (select : Dimensions → Bool) (figure : Figure) (e : Event) : ℚ :=
  if !isRequestRow e && select e.dimensions then e.figure figure else 0

theorem dailyUsage_sum (firstDay lastDay : Int) :
    (PeriodSource.dailyUsage firstDay lastDay).sum db select figure =
      ((db.daily.filter fun row => row.usageDate ∈ Finset.Icc firstDay lastDay).map
        fun row => rowFigure select figure row.dimensions row.measures).sum := by
  rw [PeriodSource.sum, sum_filter_and]
  simp only [Finset.mem_Icc, rowFigure]

theorem usageEvents_sum (start stop : Int) :
    (PeriodSource.usageEvents start stop).sum db select figure =
      ((db.events.filter fun e => start ≤ e.occurredAt ∧ e.occurredAt < stop).map
        (eventFigure select figure)).sum := by
  rw [PeriodSource.sum, sum_filter_and]
  rfl

theorem UnbilledFree.of_subset {events events' : List Event} (h : UnbilledFree events)
    (hsub : ∀ e ∈ events', e ∈ events) : UnbilledFree events' :=
  fun e he => h e (hsub e he)

/-- The rows of a day and its events add the same to a figure. -/
theorem RolledUp.sum_figure {day : Int} (h : RolledUp db day) (hagreed : Agreed db.events figure) :
    ((dayRows day db.daily).map fun row => rowFigure select figure row.dimensions row.measures).sum =
      ((dayEvents day db.events).map (eventFigure select figure)).sum := by
  rw [h.sum_rows (rowFigure select figure), dayKeys,
    ← sum_fiberwise Event.dimensions (eventFigure select figure) (dayEvents day db.events)]
  refine congrArg List.sum (List.map_congr_left fun k _ => ?_)
  show rowFigure select figure k (measuresOf (eventsOf day k db.events)) =
    ((eventsOf day k db.events).map (eventFigure select figure)).sum
  have hkey : ∀ e ∈ eventsOf day k db.events, e.dimensions = k :=
    fun e he => of_decide_eq_true (List.mem_filter.mp he).2
  have hgroup : Agreed (eventsOf day k db.events) figure := fun hcost =>
    (hagreed hcost).of_subset fun e he => List.mem_of_mem_filter (List.mem_of_mem_filter he)
  cases hselect : select k with
  | true =>
    have hrows : (eventsOf day k db.events).map (eventFigure select figure) =
        (eventsOf day k db.events).map fun e => if isRequestRow e then 0 else e.figure figure := by
      refine List.map_congr_left fun e he => ?_
      rw [eventFigure, hkey e he, hselect, Bool.and_true]
      cases isRequestRow e <;> rfl
    rw [rowFigure, hselect, Bool.and_true, hrows]
    exact hgroup.group
  | false =>
    have hrows : (eventsOf day k db.events).map (eventFigure select figure) =
        (eventsOf day k db.events).map fun _ => (0 : ℚ) := by
      refine List.map_congr_left fun e he => ?_
      rw [eventFigure, hkey e he, hselect, Bool.and_false]
      rfl
    rw [rowFigure, hselect, Bool.and_false, hrows]
    exact List.sum_map_zero.symm

/-- Days that are rolled up are the same in either table. -/
theorem dailyUsage_eq_usageEvents {firstDay lastDay : Int}
    (h : ∀ day, firstDay ≤ day → day ≤ lastDay → RolledUp db day)
    (hagreed : Agreed db.events figure) :
    (PeriodSource.dailyUsage firstDay lastDay).sum db select figure =
      (PeriodSource.usageEvents (dayStart firstDay) (dayStart (lastDay + 1))).sum db select figure := by
  have hwindow : ∀ t, (dayStart firstDay ≤ t ∧ t < dayStart (lastDay + 1)) ↔
      istDay t ∈ Finset.Icc firstDay lastDay := by
    intro t
    rw [Finset.mem_Icc]
    unfold dayStart istDay dayMicros istOffset
    omega
  rw [dailyUsage_sum, usageEvents_sum]
  simp only [hwindow]
  rw [← sum_filter_mem Row.usageDate, ← sum_filter_mem fun e : Event => istDay e.occurredAt]
  refine Finset.sum_congr rfl fun day hday => ?_
  obtain ⟨hfirst, hlast⟩ := Finset.mem_Icc.mp hday
  exact (h day hfirst hlast).sum_figure hagreed

/-- A range of `usage_events` in two. -/
theorem usageEvents_sum_append {start middle stop : Int} (hstart : start ≤ middle)
    (hstop : middle ≤ stop) :
    (PeriodSource.usageEvents start stop).sum db select figure =
      (PeriodSource.usageEvents start middle).sum db select figure +
        (PeriodSource.usageEvents middle stop).sum db select figure := by
  rw [usageEvents_sum, usageEvents_sum, usageEvents_sum]
  refine sum_filter_or _ (fun e => ?_) fun e hbefore => ?_
  · rw [← Bool.decide_or]
    exact decide_eq_decide.mpr (by omega)
  · have hbefore := of_decide_eq_true hbefore
    exact decide_eq_false (by omega)

end Sources

/-! ## Resolved periods -/

/-- What `resolve_period` returns at an instant. -/
structure Resolved (now : Nat) (p : UsagePeriod) : Prop where
  start : p.start = dayStart p.fromDate
  ordered : p.fromDate ≤ p.toDate
  /-- the period ends with a past day, or within today -/
  stop : (p.toDate < istDay now ∧ p.stop = dayStart (p.toDate + 1)) ∨
    (p.toDate = istDay now ∧ dayStart p.toDate ≤ p.stop ∧ p.stop < dayStart (p.toDate + 1))

/-- The floored clock is within today. -/
theorem flooredNow_mem (now : Nat) :
    dayStart (istDay now) ≤ flooredNow now (istDay now) ∧
      flooredNow now (istDay now) < dayStart (istDay now + 1) := by
  unfold flooredNow dayStart istDay dayMicros istOffset
  dsimp only
  split <;> omega

section Resolve

variable {strip : String → String} {fromIsoformat : String → Option Int} {now : Nat}
  {includeToday : Bool} {period from_ to_ : Option String} {p : UsagePeriod}

theorem resolveCustom_ok
    (h : resolveCustom strip fromIsoformat now includeToday from_ to_ = .ok p) : Resolved now p := by
  unfold resolveCustom at h
  cases from_ with
  | none => cases h
  | some from_ =>
    cases to_ with
    | none => cases h
    | some to_ =>
      dsimp only at h
      obtain ⟨first, -, h⟩ := Checked.bind_ok h
      obtain ⟨last, -, h⟩ := Checked.bind_ok h
      split at h
      · cases h
      rename_i hafter
      split at h
      · cases h
      rename_i hpast
      split at h
      · cases h
      rename_i hordered
      split at h
      · cases h
      obtain rfl := Except.ok.inj h
      refine ⟨rfl, not_lt.mp hordered, ?_⟩
      by_cases htoday : last = istDay now
      · refine .inr ⟨htoday, ?_⟩
        rw [if_pos htoday, htoday]
        exact flooredNow_mem now
      · refine .inl ⟨?_, if_neg htoday⟩
        show last < istDay now
        cases includeToday with
        | true =>
          have hle : ¬ istDay now < last := by simpa using hafter
          omega
        | false =>
          have hlt : ¬ istDay now ≤ last := by simpa using hpast
          omega

theorem resolvePeriod_ok
    (h : resolvePeriod strip fromIsoformat now includeToday period from_ to_ = .ok p) :
    Resolved now p := by
  unfold resolvePeriod at h
  dsimp only at h
  split at h
  · cases h
  split at h
  · split at h
    · cases h
    split at h
    · obtain rfl := Except.ok.inj h
      exact ⟨rfl, le_refl _, .inr ⟨rfl, flooredNow_mem now⟩⟩
    split at h
    · obtain rfl := Except.ok.inj h
      exact ⟨rfl, le_refl _, .inl ⟨Int.sub_one_lt_of_le le_rfl, by simp⟩⟩
    split at h
    · obtain rfl := Except.ok.inj h
      refine ⟨rfl, ?_, .inl ⟨Int.sub_one_lt_of_le le_rfl, by simp⟩⟩
      dsimp only
      omega
    · obtain rfl := Except.ok.inj h
      refine ⟨rfl, ?_, .inr ⟨rfl, flooredNow_mem now⟩⟩
      dsimp only
      omega
  · exact resolveCustom_ok h

end Resolve

section Sources

variable {db : Database} {now : Nat} {p : UsagePeriod}

/-- The sources of a period that ends with a past day. -/
theorem periodSources_whole (hp : Resolved now p) (huses : p.usesDailyUsage = true)
    (hstop : p.stop = dayStart (p.toDate + 1)) :
    periodSources true p = [.dailyUsage p.fromDate p.toDate] := by
  unfold periodSources
  simp [huses, hstop, hp.ordered]

/-- The sources of a period that ends within today. -/
theorem periodSources_cutOff (hp : Resolved now p) (huses : p.usesDailyUsage = true)
    (hstop : p.stop < dayStart (p.toDate + 1)) :
    periodSources true p =
      (if p.fromDate ≤ p.toDate - 1 then [.dailyUsage p.fromDate (p.toDate - 1)] else []) ++
        [.usageEvents (dayStart p.toDate) p.stop] := by
  have hstart : max p.start (dayStart p.toDate) = dayStart p.toDate := by
    have hordered := hp.ordered
    rw [hp.start]
    refine max_eq_right ?_
    unfold dayStart dayMicros
    omega
  unfold periodSources
  simp [huses, not_le.mpr hstop, hstart]

theorem periodSources_today (huses : p.usesDailyUsage = false) (rollupEnabled : Bool) :
    periodSources rollupEnabled p = [.usageEvents p.start p.stop] := by
  unfold periodSources
  rw [huses]
  rfl

theorem covers_dailyUsage (firstDay lastDay t : Int) :
    (PeriodSource.dailyUsage firstDay lastDay).covers t =
      decide (dayStart firstDay ≤ t ∧ t < dayStart (lastDay + 1)) := by
  rw [PeriodSource.covers, ← Bool.decide_and]
  refine decide_eq_decide.mpr ?_
  unfold dayStart istDay dayMicros istOffset
  omega

theorem covers_usageEvents (start stop t : Int) :
    (PeriodSource.usageEvents start stop).covers t = decide (start ≤ t ∧ t < stop) := by
  rw [PeriodSource.covers, ← Bool.decide_and]

theorem dayStart_mono {day day' : Int} (h : day ≤ day') : dayStart day ≤ dayStart day' := by
  unfold dayStart dayMicros
  omega

/-- Every instant of a period is in one source, and no other instant in any. -/
theorem countP_covers (hp : Resolved now p) (t : Int) :
    (periodSources true p).countP (PeriodSource.covers t) =
      if p.start ≤ t ∧ t < p.stop then 1 else 0 := by
  have hstart := hp.start
  have hordered := dayStart_mono hp.ordered
  cases huses : p.usesDailyUsage with
  | false =>
    rw [periodSources_today huses, List.countP_singleton, covers_usageEvents]
    simp only [decide_eq_true_eq]
  | true =>
    rcases hp.stop with ⟨-, hstop⟩ | ⟨-, hstop, hstop'⟩
    · rw [periodSources_whole hp huses hstop, List.countP_singleton, covers_dailyUsage, hstart, hstop]
      simp only [decide_eq_true_eq]
    · rw [periodSources_cutOff hp huses hstop', List.countP_append, List.countP_singleton,
        covers_usageEvents]
      split
      · rename_i hdays
        have hdays := dayStart_mono hdays
        rw [List.countP_singleton, covers_dailyUsage, Int.sub_add_cancel]
        simp only [decide_eq_true_eq]
        split_ifs <;> omega
      · have hsame : p.fromDate = p.toDate := le_antisymm hp.ordered (by omega)
        rw [hstart, hsame, List.countP_nil, Nat.zero_add]
        simp only [decide_eq_true_eq]

/-- A figure of a period is that of the usage rows in its range. -/
theorem periodFigure_eq (hp : Resolved now p) {select : Dimensions → Bool} {figure : Figure}
    (hrolled : RolledUpBefore db (istDay now)) (hagreed : Agreed db.events figure) :
    periodFigure true db select figure p =
      (PeriodSource.usageEvents p.start p.stop).sum db select figure := by
  have hstart := hp.start
  have hordered := dayStart_mono hp.ordered
  unfold periodFigure
  cases huses : p.usesDailyUsage with
  | false =>
    rw [periodSources_today huses]
    exact List.sum_singleton
  | true =>
    rcases hp.stop with ⟨hpast, hstop⟩ | ⟨htoday, hstop, hstop'⟩
    · have hdays : ∀ day, p.fromDate ≤ day → day ≤ p.toDate → RolledUp db day :=
        fun day _ hlast => hrolled day (hlast.trans_lt hpast)
      rw [periodSources_whole hp huses hstop, List.map_singleton, List.sum_singleton,
        dailyUsage_eq_usageEvents hdays hagreed, hstart, hstop]
    · rw [periodSources_cutOff hp huses hstop', List.map_append, List.sum_append,
        List.map_singleton, List.sum_singleton]
      split
      · have hdays : ∀ day, p.fromDate ≤ day → day ≤ p.toDate - 1 → RolledUp db day :=
          fun day _ hlast => hrolled day (by omega)
        rw [List.map_singleton, List.sum_singleton, dailyUsage_eq_usageEvents hdays hagreed,
          Int.sub_add_cancel, hstart, ← usageEvents_sum_append hordered hstop]
      · have hsame : p.fromDate = p.toDate := le_antisymm hp.ordered (by omega)
        rw [List.map_nil, List.sum_nil, zero_add, hstart, hsame]

end Sources

/-! ## The figures of a period -/

section Figures

variable {strip : String → String} {fromIsoformat : String → Option Int} {db : Database}
  {now : Nat} {includeToday : Bool} {period from_ to_ : Option String} {p : UsagePeriod}

/-- **The figures of a period do not depend on the rollup switch**: its sources have every instant
of it once, the units are those of the usage rows of its range, and so is the cost where no row
without units has a cost that only one test for billed usage sees. -/
theorem period_figures_rollup
    (hp : resolvePeriod strip fromIsoformat now includeToday period from_ to_ = .ok p)
    (hrolled : RolledUpBefore db (istDay now)) :
    (∀ t, (periodSources true p).countP (PeriodSource.covers t) =
      if p.start ≤ t ∧ t < p.stop then 1 else 0) ∧
    (∀ select figure, figure ≠ .cost → periodFigure true db select figure p =
      (PeriodSource.usageEvents p.start p.stop).sum db select figure) ∧
    (UnbilledFree db.events → ∀ select, periodFigure true db select .cost p =
      (PeriodSource.usageEvents p.start p.stop).sum db select .cost) := by
  have hresolved := resolvePeriod_ok hp
  refine ⟨fun t => countP_covers hresolved t, fun select figure hfigure => ?_,
    fun hfree select => ?_⟩
  · exact periodFigure_eq hresolved hrolled fun hcost => absurd hcost hfigure
  · exact periodFigure_eq hresolved hrolled fun _ => hfree

end Figures

/-- A day of older rows, and its rollup. -/
def rolledDay : Database := rollupDay sampleDatabase.cleared 0 0 false

/-- The IST day 0. -/
def dayZero : UsagePeriod := ⟨"yesterday", 0, 0, dayStart 0, dayStart 1⟩

theorem period_figures_rollup_zero :
    periodFigure true rolledDay (fun _ => true) .totalUnits dayZero =
        (PeriodSource.usageEvents (dayStart 0) (dayStart 1)).sum rolledDay (fun _ => true)
          .totalUnits ∧
      periodFigure true rolledDay (fun _ => true) .cost dayZero =
        (PeriodSource.usageEvents (dayStart 0) (dayStart 1)).sum rolledDay (fun _ => true) .cost := by
  have hrolled : RolledUpBefore rolledDay (istDay (109800000000 : Nat)) := fun day _ =>
    rolledUp_single (by decide +kernel) day
  have hp : resolvePeriod id (fun _ => none) 109800000000 true (some "yesterday") none none =
      .ok dayZero := by decide +kernel
  obtain ⟨-, hunits, hcost⟩ := period_figures_rollup hp hrolled
  exact ⟨hunits _ _ (by decide), hcost (by decide +kernel) _⟩

/-- A request row with a cost, and its rollup. -/
def paidRequest : Database :=
  rollupDay
    { sampleDatabase with
      events := [{ failedRequest with inputUnitsCost := 5, units := failedRequest.units }] }.cleared
    0 0 false

/-- The request is billed where its day is read from the rollup only. -/
theorem period_figures_differ :
    resolvePeriod id (fun _ => none) 109800000000 true (some "yesterday") none none = .ok dayZero ∧
      RolledUpBefore paidRequest (istDay (109800000000 : Nat)) ∧
      periodFigure true paidRequest (fun _ => true) .cost dayZero = 5 ∧
      (PeriodSource.usageEvents (dayStart 0) (dayStart 1)).sum paidRequest (fun _ => true) .cost =
        0 := by
  refine ⟨by decide +kernel, fun day _ => ?_, by decide +kernel, by decide +kernel⟩
  exact rolledUp_single (by decide +kernel) day

end Ai4iCore.Usage
