import Ai4iCore.Base.Partitioning
import Ai4iCore.Usage.ReportPeriod

/-!
# Maintenance of the partitions of `usage_events`

`_maintain_partitions` of jobs/daily_usage_consolidation.py: every partition that is not one IST
day, named for it, is detached and renamed, days are created for today, the days ahead and every
day that has rows to restore, and the rows go back in through the parent.

No row is lost, no statement is rejected, and a second run changes nothing
(`maintenance_loses_no_row`). What can go wrong is that a date is out of Python's years.
-/

namespace Ai4iCore.Usage.Maintenance

open Ai4iCore.Task (Text)
open Partitioning
open Reporting (yearText)

/-! ## Names -/

/-- `TABLE`. -/
def tableName : Text := ['u', 's', 'a', 'g', 'e', '_', 'e', 'v', 'e', 'n', 't', 's']

/-- `DEFAULT`. -/
def defaultName : Text := tableName ++ ['_', 'd', 'e', 'f', 'a', 'u', 'l', 't']

/-- `_day_name`. -/
def dayName (day : Int) : Text :=
  tableName ++ '_' :: (yearText (Calendar.year day) ++ '_' ::
    (Calendar.padded 2 (Calendar.month day).toNat ++
      '_' :: Calendar.padded 2 (Calendar.dayOfMonth day).toNat))

def convertName (i : Nat) : Text :=
  ['u', 'e', '_', 'c', 'o', 'n', 'v', 'e', 'r', 't', '_'] ++ Nat.toDigits 10 i

/-- From 0001-01-01 to 9999-12-31. -/
def IsDate (day : Int) : Prop := -719162 ≤ day ∧ day ≤ 2932896

instance (day : Int) : Decidable (IsDate day) := inferInstanceAs (Decidable (_ ∧ _))

/-! ## The job -/

inductive MaintainError
  /-- A statement is rejected. -/
  | rejected (e : PgError)
  /-- A date is out of range. -/
  | dateOverflow
  | rowCountMismatch
  deriving DecidableEq, Repr

variable {ρ : Type}

section Job

variable (occurredAt : ρ → Int)

/-- The day of an IST day partition that is named for it. -/
def dayOf (p : Partition Text ρ) : Option Int :=
  if p.lower = dayStart (istDay p.lower) ∧ p.upper = dayStart (istDay p.lower + 1) ∧
      p.name = dayName (istDay p.lower) then
    some (istDay p.lower)
  else none

/-- The bounds of a partition are read as IST times, and a midnight is compared a day later. -/
def Readable (p : Partition Text ρ) : Prop :=
  IsDate (istDay p.lower) ∧ IsDate (istDay p.upper) ∧
    (p.lower = dayStart (istDay p.lower) → IsDate (istDay p.lower + 1))

instance (p : Partition Text ρ) : Decidable (Readable p) :=
  inferInstanceAs (Decidable (_ ∧ _ ∧ (_ → _)))

/-- `_partitions`: the days, and the names of the other partitions in their order. -/
def partitionsOf (db : Schema Text ρ) : Except MaintainError (List Int × List Text) :=
  if ∀ p ∈ db.partitions, Readable p then
    .ok (db.partitions.filterMap dayOf,
      ((db.partitions.filter fun p => (dayOf p).isNone).map Partition.name).insertionSort (· ≤ ·))
  else .error .dateOverflow

/-- `_days_with_rows`. -/
def daysWithRows (rows : List ρ) : Except MaintainError (List Int) :=
  if ∀ row ∈ rows, IsDate (istDay (occurredAt row)) then
    .ok (rows.map fun row => istDay (occurredAt row)).dedup
  else .error .dateOverflow

/-- `today` and the days ahead. -/
def daysAhead (today : Int) (ahead : Nat) : Except MaintainError (List Int) :=
  if IsDate today ∧ IsDate (today + ahead) then
    .ok ((List.range (ahead + 1)).map fun i : Nat => today + i)
  else .error .dateOverflow

/-- The loop over the partitions to convert: the schema after it, the names of the detached tables
and the days of their rows. -/
def detachAll : List Text → Nat → Schema Text ρ →
    Except MaintainError (Schema Text ρ × List Text × List Int)
  | [], _, db => .ok (db, [], [])
  | name :: names, i, db => do
    let db ← (detach name db >>= rename name (convertName i)).mapError .rejected
    let rows ← (select (convertName i) db).mapError .rejected
    let days ← daysWithRows occurredAt rows
    let (db, detached, wanted) ← detachAll names (i + 1) db
    return (db, convertName i :: detached, days ++ wanted)

/-- The bounds of a day, whose end is the next date. -/
def dayBounds (day : Int) : Except MaintainError (Int × Int) :=
  if IsDate (day + 1) then .ok (dayStart day, dayStart (day + 1)) else .error .dateOverflow

/-- `_in_days`. -/
def inDays (days : List Int) (row : ρ) : Bool :=
  days.any fun day => decide (dayStart day ≤ occurredAt row ∧ occurredAt row < dayStart (day + 1))

/-- The days are created in their order. -/
def createAll : List Int → Schema Text ρ → Except MaintainError (Schema Text ρ)
  | [], db => .ok db
  | day :: days, db => do
    let (lower, upper) ← dayBounds day
    let db ← (create occurredAt (dayName day) lower upper db).mapError .rejected
    createAll days db

/-- `INSERT .. SELECT` through the parent, which has to insert all rows. -/
def restore (rows : List ρ) (db : Schema Text ρ) : Except MaintainError (Schema Text ρ) := do
  let restored ← (insert occurredAt rows db).mapError .rejected
  if restored.rows.length = db.rows.length + rows.length then return restored
  else .error .rowCountMismatch

def restoreAll : List Text → Schema Text ρ → Except MaintainError (Schema Text ρ)
  | [], db => .ok db
  | name :: names, db => do
    let rows ← (select name db).mapError .rejected
    let db ← restore occurredAt rows db
    restoreAll names db

def dropAll : List Text → Schema Text ρ → Except MaintainError (Schema Text ρ)
  | [], db => .ok db
  | name :: names, db => do
    let db ← (drop name db).mapError .rejected
    dropAll names db

/-- The wanted days that have no partition, in their order. -/
def missing (days wanted : List Int) : List Int :=
  (wanted.filter fun day => day ∉ days).dedup.insertionSort (· ≤ ·)

/-- The rows that have left the DEFAULT partition, when there are any. -/
def restoreMoved (moved : List ρ) (db : Schema Text ρ) : Except MaintainError (Schema Text ρ) :=
  if moved.isEmpty then .ok db else restore occurredAt moved db

/-- The days are created, after the rows of the DEFAULT partition that are theirs have left it, and
the rows are restored. -/
def rearrange (toCreate : List Int) (detached : List Text) (db : Schema Text ρ) :
    Except MaintainError (Schema Text ρ) := do
  let moved := (deleteDefault (inDays occurredAt toCreate) db).2
  let db ← createAll occurredAt toCreate (deleteDefault (inDays occurredAt toCreate) db).1
  let db ← restoreMoved occurredAt moved db
  let db ← restoreAll occurredAt detached db
  dropAll detached db

/-- `_maintain_partitions` with its lock. -/
def maintain (today : Int) (ahead : Nat) (db : Schema Text ρ) :
    Except MaintainError (Schema Text ρ) := do
  let parts ← partitionsOf db
  let wanted ← daysAhead today ahead
  let converted ← detachAll occurredAt parts.2 0 db
  let wantedDefault ← daysWithRows occurredAt converted.1.defaultRows
  rearrange occurredAt (missing parts.1 (wanted ++ converted.2.2 ++ wantedDefault)) converted.2.1
    converted.1

/-- `_maintain_partitions`; a run that does not get the advisory lock does nothing. -/
def maintainPartitions (lockFree : Bool) (today : Int) (ahead : Nat) (db : Schema Text ρ) :
    Except MaintainError (Schema Text ρ) :=
  if lockFree then maintain occurredAt today ahead db else .ok db

end Job

/-! ## Names are different -/

/-- A text is cut at its first `c` in one way. -/
theorem append_cons_inj {c : Char} {xs ys rest rest' : Text} (hx : c ∉ xs) (hy : c ∉ ys)
    (h : xs ++ c :: rest = ys ++ c :: rest') : xs = ys ∧ rest = rest' := by
  induction xs generalizing ys with
  | nil =>
    cases ys with
    | nil => exact ⟨rfl, (List.cons.inj h).2⟩
    | cons y ys => exact absurd ((List.cons.inj h).1 ▸ List.mem_cons_self) hy
  | cons x xs ih =>
    cases ys with
    | nil => exact absurd ((List.cons.inj h).1 ▸ List.mem_cons_self) hx
    | cons y ys =>
      obtain ⟨rfl, hrest⟩ := List.cons.inj h
      obtain ⟨rfl, rfl⟩ := ih (fun hc => hx (List.mem_cons_of_mem _ hc))
        (fun hc => hy (List.mem_cons_of_mem _ hc)) hrest
      exact ⟨rfl, rfl⟩

theorem year_of_isDate {day : Int} (h : IsDate day) :
    1 ≤ Calendar.year day ∧ Calendar.year day ≤ 9999 := by
  have hlow : Calendar.monthStart (12 * 1) = -719162 := by decide +kernel
  have hhigh : Calendar.monthStart (12 * 9999 + 12) = 2932897 := by decide +kernel
  unfold IsDate at h
  exact Calendar.year_bounds (by omega) (by omega)

theorem read_yearText {y : Int} (h : 0 ≤ y) (h' : y ≤ 9999) :
    Calendar.read (yearText y) = y.toNat := by
  unfold yearText
  split
  · exact Calendar.read_toDigits _
  · exact Calendar.read_padded (by omega)

theorem isDigit_yearText {y : Int} {c : Char} (h : c ∈ yearText y) : c.isDigit = true := by
  unfold yearText at h
  split at h
  · exact Nat.isDigit_of_mem_toDigits (by decide) (by decide) h
  · exact Calendar.isDigit_padded h

theorem dayName_injective {day day' : Int} (h : IsDate day) (h' : IsDate day')
    (heq : dayName day = dayName day') : day = day' := by
  have hunderscore : ¬('_').isDigit = true := by decide
  obtain ⟨hlow, hhigh⟩ := year_of_isDate h
  obtain ⟨hlow', hhigh'⟩ := year_of_isDate h'
  obtain ⟨hm, hm₁⟩ := Calendar.month_bounds day
  obtain ⟨hm', hm₁'⟩ := Calendar.month_bounds day'
  obtain ⟨hd, hd₁, -⟩ := Calendar.dayOfMonth_bounds day
  obtain ⟨hd', hd₁', -⟩ := Calendar.dayOfMonth_bounds day'
  have hrest := (List.cons.inj (List.append_cancel_left heq)).2
  obtain ⟨hyear, hrest⟩ := append_cons_inj (fun hc => hunderscore (isDigit_yearText hc))
    (fun hc => hunderscore (isDigit_yearText hc)) hrest
  obtain ⟨hmonth, hday⟩ := append_cons_inj (fun hc => hunderscore (Calendar.isDigit_padded hc))
    (fun hc => hunderscore (Calendar.isDigit_padded hc)) hrest
  have hyear := congrArg Calendar.read hyear
  have hmonth := congrArg Calendar.read hmonth
  have hday := congrArg Calendar.read hday
  rw [read_yearText (by omega) hhigh, read_yearText (by omega) hhigh'] at hyear
  rw [Calendar.read_padded (by omega), Calendar.read_padded (by omega)] at hmonth hday
  have hyear : Calendar.year day = Calendar.year day' := by omega
  have hmonth : Calendar.month day = Calendar.month day' := by omega
  have hday : Calendar.dayOfMonth day = Calendar.dayOfMonth day' := by omega
  rw [← Calendar.ofDate_date day, hyear, hmonth, hday, Calendar.ofDate_date]

theorem convertName_injective {i j : Nat} (h : convertName i = convertName j) : i = j := by
  have hdigits := congrArg Calendar.read (List.append_cancel_left h)
  rwa [Calendar.read_toDigits, Calendar.read_toDigits] at hdigits

theorem convertName_ne_append (i : Nat) (rest : Text) : convertName i ≠ tableName ++ rest := by
  intro h
  rw [convertName, tableName, List.cons_append, List.cons_append, List.cons_append,
    List.cons_append] at h
  exact absurd (List.cons.inj (List.cons.inj h).2).1 (by decide)

theorem convertName_ne_dayName (i : Nat) (day : Int) : convertName i ≠ dayName day :=
  convertName_ne_append i _

theorem convertName_ne (i : Nat) : convertName i ≠ tableName ∧ convertName i ≠ defaultName :=
  ⟨fun h => convertName_ne_append i [] (h.trans (List.append_nil _).symm),
    convertName_ne_append i _⟩

theorem dayName_ne (day : Int) : dayName day ≠ tableName ∧ dayName day ≠ defaultName := by
  constructor
  · intro h
    have hnil := List.append_right_eq_self.mp h
    cases hnil
  · intro h
    have hrest := (List.cons.inj (List.append_cancel_left h)).2
    have hmem : '_' ∈ ['d', 'e', 'f', 'a', 'u', 'l', 't'] := by
      rw [← hrest]
      exact List.mem_append_right _ List.mem_cons_self
    revert hmem
    decide

/-! ## Outcomes -/

/-- The job succeeds with a result, or a date is out of range, which it is not when all dates fit. -/
def Outcome {α : Type} (fits : Prop) (post : α → Prop) : Except MaintainError α → Prop
  | .ok a => post a
  | .error e => e = .dateOverflow ∧ ¬fits

section Outcomes

variable {α β : Type} {fits : Prop}

theorem Outcome.bind {post : α → Prop} {post' : β → Prop} {x : Except MaintainError α}
    {f : α → Except MaintainError β} (h : Outcome fits post x)
    (hf : ∀ a, post a → Outcome fits post' (f a)) : Outcome fits post' (x >>= f) := by
  cases x with
  | error e => exact h
  | ok a => exact hf a h

theorem Outcome.mono {post post' : α → Prop} {x : Except MaintainError α}
    (h : Outcome fits post x) (hpost : ∀ a, post a → post' a) : Outcome fits post' x := by
  cases x with
  | error e => exact h
  | ok a => exact hpost a h

end Outcomes

section Steps

variable {occurredAt : ρ → Int} {db : Schema Text ρ} {fits : Prop}

theorem daysWithRows_spec {rows : List ρ}
    (hfits : fits → ∀ row ∈ rows, IsDate (istDay (occurredAt row))) :
    Outcome fits (fun days => (∀ row ∈ rows, istDay (occurredAt row) ∈ days) ∧
      ∀ day ∈ days, IsDate day ∧ ∃ row ∈ rows, istDay (occurredAt row) = day)
      (daysWithRows occurredAt rows) := by
  unfold daysWithRows
  split
  · rename_i hdates
    refine ⟨fun row hrow => List.mem_dedup.mpr (List.mem_map_of_mem hrow), fun day hday => ?_⟩
    obtain ⟨row, hrow, rfl⟩ := List.mem_map.mp (List.mem_dedup.mp hday)
    exact ⟨hdates row hrow, row, hrow, rfl⟩
  · rename_i hdates
    exact ⟨rfl, fun h => hdates (hfits h)⟩

/-! ## Detaching -/

/-- The tables that the rows of the detached partitions are in, and the rest of the schema. -/
structure Detached (occurredAt : ρ → Int) (db : Schema Text ρ) (names : List Text)
    (moved : List (Text × List ρ)) (r : Schema Text ρ × List Text × List Int) : Prop where
  wellFormed : WellFormed occurredAt r.1
  name : r.1.name = db.name
  rest : r.1.rest = db.rest
  partitions : r.1.partitions = db.partitions.filter fun p => p.name ∉ names
  tables : r.1.tables = db.tables ++ moved
  names : moved.map Prod.fst = r.2.1
  convert : ∀ t ∈ moved, ∃ j, t.1 = convertName j
  rows : (moved.flatMap Prod.snd ++ r.1.partitions.flatMap Partition.rows).Perm
    (db.partitions.flatMap Partition.rows)
  wanted : ∀ t ∈ moved, ∀ row ∈ t.2, istDay (occurredAt row) ∈ r.2.2
  dates : ∀ day ∈ r.2.2, IsDate day ∧
    ∃ row ∈ db.partitions.flatMap Partition.rows, istDay (occurredAt row) = day

theorem select_last {tables : List (Text × List ρ)} {name : Text} {rows : List ρ}
    (h : ∀ t ∈ tables, t.1 ≠ name) (db : Schema Text ρ) :
    select name { db with tables := tables ++ [(name, rows)] } = .ok rows := by
  have hfind : (tables.find? fun t => t.1 = name) = none :=
    List.find?_eq_none.mpr fun t ht => by simpa using h t ht
  unfold select
  dsimp only
  rw [List.find?_append, hfind, Option.none_or, List.find?_cons_of_pos (by simp)]

theorem detachAll_spec {names : List Text} {i : Nat} (hwf : WellFormed occurredAt db)
    (hnames : ∀ n ∈ names, n ∈ db.partitions.map Partition.name) (hnodup : names.Nodup)
    (hfree : ∀ j, i ≤ j → convertName j ∉ db.names)
    (hfits : fits → ∀ row ∈ db.partitions.flatMap Partition.rows,
      IsDate (istDay (occurredAt row))) :
    Outcome fits (fun r => ∃ moved, Detached occurredAt db names moved r)
      (detachAll occurredAt names i db) := by
  induction names generalizing i db with
  | nil =>
    refine ⟨[], ?_⟩
    exact
      { wellFormed := hwf
        name := rfl
        rest := rfl
        partitions := by simp
        tables := (List.append_nil _).symm
        names := rfl
        convert := fun t ht => absurd ht List.not_mem_nil
        rows := List.Perm.refl _
        wanted := fun t ht => absurd ht List.not_mem_nil
        dates := fun day hday => absurd hday List.not_mem_nil }
  | cons name names ih =>
    obtain ⟨p, hp, rfl⟩ := List.mem_map.mp (hnames name List.mem_cons_self)
    obtain ⟨hnot, hnodup⟩ := List.nodup_cons.mp hnodup
    have hnew := hfree i le_rfl
    have hmem : ∀ row ∈ p.rows, row ∈ db.partitions.flatMap Partition.rows :=
      fun row hrow => List.mem_flatMap.mpr ⟨p, hp, hrow⟩
    have hne : ∀ t ∈ db.tables, t.1 ≠ convertName i := by
      intro t ht heq
      exact hnew (heq ▸ mem_names_of_table ht)
    have hselect : select (convertName i) (detached p (convertName i) db) = .ok p.rows :=
      select_last hne { db with partitions := db.partitions.filter fun q => q.name ≠ p.name }
    have hperm := flatMap_detached hwf hp (convertName i)
    have hsub : ∀ row ∈ (detached p (convertName i) db).partitions.flatMap Partition.rows,
        row ∈ db.partitions.flatMap Partition.rows :=
      fun row hrow => hperm.mem_iff.mp (List.mem_append_right _ hrow)
    rw [detachAll, detach_rename hwf hp hnew]
    show Outcome fits _ ((select (convertName i) (detached p (convertName i) db)).mapError
      MaintainError.rejected >>= _)
    rw [hselect]
    show Outcome fits _ (daysWithRows occurredAt p.rows >>= _)
    refine (daysWithRows_spec fun h row hrow => hfits h row (hmem row hrow)).bind
      fun days hdays => ?_
    have hrest := ih (i := i + 1) (hwf.detached p hnew) ?_ hnodup ?_
      (fun h row hrow => hfits h row (hsub row hrow))
    · refine hrest.bind fun r hr => ?_
      obtain ⟨moved, hr⟩ := hr
      refine ⟨(convertName i, p.rows) :: moved, ?_⟩
      exact
        { wellFormed := hr.wellFormed
          name := hr.name
          rest := hr.rest
          partitions := by
            rw [hr.partitions]
            show (db.partitions.filter fun q => q.name ≠ p.name).filter _ = _
            rw [List.filter_filter]
            refine List.filter_congr fun q _ => ?_
            by_cases hq : q.name = p.name <;> simp [hq]
          tables := by
            rw [hr.tables]
            exact List.append_assoc _ _ _
          names := congrArg (convertName i :: ·) hr.names
          convert := by
            rintro t (_ | ⟨_, ht⟩)
            · exact ⟨i, rfl⟩
            · exact hr.convert t ht
          rows := by
            rw [List.flatMap_cons, List.append_assoc]
            exact (List.Perm.append_left _ hr.rows).trans hperm
          wanted := by
            rintro t (_ | ⟨_, ht⟩) row hrow
            · exact List.mem_append_left _ (hdays.1 row hrow)
            · exact List.mem_append_right _ (hr.wanted t ht row hrow)
          dates := by
            intro day hday
            rcases List.mem_append.mp hday with hday | hday
            · obtain ⟨hdate, row, hrow, heq⟩ := hdays.2 day hday
              exact ⟨hdate, row, hmem row hrow, heq⟩
            · obtain ⟨hdate, row, hrow, heq⟩ := hr.dates day hday
              exact ⟨hdate, row, hsub row hrow, heq⟩ }
    · intro n hn
      obtain ⟨q, hq, hname⟩ := List.mem_map.mp (hnames n (List.mem_cons_of_mem _ hn))
      refine List.mem_map.mpr ⟨q, List.mem_filter.mpr ⟨hq, decide_eq_true fun heq => ?_⟩, hname⟩
      exact hnot (heq ▸ hname ▸ hn)
    · intro j hj hmemj
      rcases List.mem_append.mp ((names_detached p (convertName i)).subset hmemj) with hmemj | hmemj
      · exact hfree j (by omega) hmemj
      · have := convertName_injective (List.mem_singleton.mp hmemj)
        omega

/-! ## Days -/

theorem dayOf_spec {p : Partition Text ρ} {day : Int} (h : dayOf p = some day) :
    p.lower = dayStart day ∧ p.upper = dayStart (day + 1) ∧ p.name = dayName day := by
  unfold dayOf at h
  split at h
  · rename_i hday
    obtain rfl := Option.some.inj h
    exact hday
  · cases h

/-- The partition of a day. -/
def dayPartition (day : Int) (rows : List ρ) : Partition Text ρ :=
  ⟨dayName day, dayStart day, dayStart (day + 1), rows⟩

theorem dayOf_dayPartition (day : Int) (rows : List ρ) : dayOf (dayPartition day rows) = some day := by
  have hday : istDay (dayPartition day rows).lower = day := Reporting.istDay_dayStart day
  rw [dayOf, hday, if_pos ⟨rfl, rfl, rfl⟩]

theorem holds_iff {p : Partition Text ρ} {day : Int} (h : dayOf p = some day) (row : ρ) :
    p.Holds occurredAt row ↔ istDay (occurredAt row) = day := by
  obtain ⟨hlower, hupper, -⟩ := dayOf_spec h
  rw [Partition.Holds, hlower, hupper]
  exact window_iff day _

/-- All partitions are days. -/
def AllDays (db : Schema Text ρ) : Prop :=
  ∀ p ∈ db.partitions, ∃ day, dayOf p = some day ∧ IsDate day ∧ IsDate (day + 1)

/-- The day has a partition. -/
def Covered (db : Schema Text ρ) (day : Int) : Prop := ∃ p ∈ db.partitions, dayOf p = some day

/-- The names that the job gives are free. -/
structure NamesFree (db : Schema Text ρ) : Prop where
  table : db.name = tableName
  default : ∀ r ∈ db.rest, r.1 = defaultName
  tables : ∀ t ∈ db.tables, ∀ day, t.1 ≠ dayName day

theorem dayName_not_mem (hall : AllDays db) (hfree : NamesFree db) {day : Int} (hdate : IsDate day)
    (hnew : ¬Covered db day) : dayName day ∉ db.names := by
  intro hmem
  unfold Schema.names at hmem
  simp only [List.mem_cons, List.mem_append, List.mem_map, Option.mem_toList] at hmem
  rcases hmem with h | (⟨p, hp, h⟩ | ⟨r, hr, h⟩) | ⟨t, ht, h⟩
  · exact (dayName_ne day).1 (h.trans hfree.table)
  · obtain ⟨day', hday', hdate', -⟩ := hall p hp
    obtain rfl := dayName_injective hdate hdate' (h.symm.trans (dayOf_spec hday').2.2)
    exact hnew ⟨p, hp, hday'⟩
  · exact (dayName_ne day).2 (h.symm.trans (hfree.default r hr))
  · exact hfree.tables t ht day h

theorem dayStart_le {day day' : Int} (h : day < day') : dayStart (day + 1) ≤ dayStart day' :=
  Reporting.strictMono_dayStart.monotone (by omega)

/-- Different days do not overlap. -/
theorem disjoint_of_not_covered (hall : AllDays db) {day : Int} (hnew : ¬Covered db day)
    {p : Partition Text ρ} (hp : p ∈ db.partitions) :
    p.upper ≤ dayStart day ∨ dayStart (day + 1) ≤ p.lower := by
  obtain ⟨day', hday', -⟩ := hall p hp
  obtain ⟨hlower, hupper, -⟩ := dayOf_spec hday'
  have hne : day' ≠ day := fun heq => hnew ⟨p, hp, heq ▸ hday'⟩
  rw [hlower, hupper]
  rcases lt_or_gt_of_ne hne with hlt | hgt
  · exact .inl (dayStart_le hlt)
  · exact .inr (dayStart_le hgt)

theorem createAll_spec {days : List Int} (hwf : WellFormed occurredAt db) (hall : AllDays db)
    (hfree : NamesFree db) (hnodup : days.Nodup) (hdates : ∀ day ∈ days, IsDate day)
    (hnew : ∀ day ∈ days, ¬Covered db day)
    (hdefault : ∀ row ∈ db.defaultRows, istDay (occurredAt row) ∉ days)
    (hfits : fits → ∀ day ∈ days, IsDate (day + 1)) :
    Outcome fits (fun r => WellFormed occurredAt r ∧ AllDays r ∧
      r = { db with partitions := db.partitions ++ days.map fun day => dayPartition day [] })
      (createAll occurredAt days db) := by
  induction days generalizing db with
  | nil => exact ⟨hwf, hall, by simp⟩
  | cons day days ih =>
    obtain ⟨hnot, hnodup⟩ := List.nodup_cons.mp hnodup
    have hdate := hdates day List.mem_cons_self
    have hday := hnew day List.mem_cons_self
    have hname := dayName_not_mem hall hfree hdate hday
    have hranges : ∀ p ∈ db.partitions, p.upper ≤ dayStart day ∨ dayStart (day + 1) ≤ p.lower :=
      fun p hp => disjoint_of_not_covered hall hday hp
    have hrows : ∀ row ∈ db.defaultRows,
        ¬(dayStart day ≤ occurredAt row ∧ occurredAt row < dayStart (day + 1)) := by
      intro row hrow hheld
      exact hdefault row hrow ((window_iff day _).mp hheld ▸ List.mem_cons_self)
    rw [createAll, dayBounds]
    split
    · rename_i hnext
      show Outcome fits _ ((create occurredAt (dayName day) (dayStart day) (dayStart (day + 1)) db
        |>.mapError MaintainError.rejected) >>= _)
      rw [create_ok hname hranges hrows]
      have hlt : dayStart day < dayStart (day + 1) := Reporting.strictMono_dayStart (by omega)
      have hcovered : ∀ d, Covered (created (dayName day) (dayStart day) (dayStart (day + 1)) db) d →
          Covered db d ∨ d = day := by
        rintro d ⟨p, hp, hd⟩
        rcases List.mem_append.mp hp with hp | hp
        · exact .inl ⟨p, hp, hd⟩
        · obtain rfl := List.mem_singleton.mp hp
          exact .inr (Option.some.inj (hd.symm.trans (dayOf_dayPartition day [])))
      have hrest := ih (hwf.created hname hlt hranges hrows) ?_ ⟨hfree.table, hfree.default, hfree.tables⟩
        hnodup (fun d hd => hdates d (List.mem_cons_of_mem _ hd)) ?_
        (fun row hrow hmem => hdefault row hrow (List.mem_cons_of_mem _ hmem))
        (fun h d hd => hfits h d (List.mem_cons_of_mem _ hd))
      · refine hrest.mono fun r hr => ⟨hr.1, hr.2.1, ?_⟩
        rw [hr.2.2, created]
        dsimp only
        rw [List.append_assoc, List.map_cons]
        rfl
      · intro p hp
        rcases List.mem_append.mp hp with hp | hp
        · exact hall p hp
        · obtain rfl := List.mem_singleton.mp hp
          exact ⟨day, dayOf_dayPartition day [], hdate, hnext⟩
      · intro d hd hcov
        rcases hcovered d hcov with hcov | rfl
        · exact hnew d (List.mem_cons_of_mem _ hd) hcov
        · exact hnot hd
    · rename_i hend
      exact ⟨rfl, fun h => hend (hfits h day List.mem_cons_self)⟩

/-! ## Restoring -/

/-- The rows are in the partitions of their days, and nothing else has changed. -/
structure Restored (occurredAt : ρ → Int) (db : Schema Text ρ) (rows : List ρ)
    (r : Schema Text ρ) : Prop where
  wellFormed : WellFormed occurredAt r
  name : r.name = db.name
  rest : r.rest = db.rest
  tables : r.tables = db.tables
  days : r.partitions.map dayOf = db.partitions.map dayOf
  rows : (r.partitions.flatMap Partition.rows).Perm (db.partitions.flatMap Partition.rows ++ rows)

theorem covered_iff {day : Int} : Covered db day ↔ some day ∈ db.partitions.map dayOf := by
  rw [List.mem_map]
  exact Iff.rfl

theorem restore_spec {rows : List ρ} (hwf : WellFormed occurredAt db)
    (hcovered : ∀ row ∈ rows, Covered db (istDay (occurredAt row))) :
    Outcome fits (Restored occurredAt db rows) (restore occurredAt rows db) := by
  have hheld : ∀ row ∈ rows, ∃ p ∈ db.partitions, p.Holds occurredAt row := by
    intro row hrow
    obtain ⟨p, hp, hday⟩ := hcovered row hrow
    exact ⟨p, hp, (holds_iff hday row).mpr rfl⟩
  have hperm := flatMap_inserted hwf hheld
  have hlength : (inserted occurredAt rows db).rows.length = db.rows.length + rows.length := by
    have hlen := hperm.length_eq
    rw [List.length_append] at hlen
    have hdefault : (inserted occurredAt rows db).defaultRows = db.defaultRows := rfl
    rw [Schema.rows, Schema.rows, List.length_append, List.length_append, hlen, hdefault]
    omega
  rw [restore, insert_ok hheld]
  show Outcome fits _ (if (inserted occurredAt rows db).rows.length = _ then _ else _)
  rw [if_pos hlength]
  exact
    { wellFormed := hwf.inserted rows
      name := rfl
      rest := rfl
      tables := rfl
      days := by
        rw [inserted]
        dsimp only
        rw [List.map_map]
        rfl
      rows := hperm }

theorem restoreAll_spec {moved : List (Text × List ρ)} (hwf : WellFormed occurredAt db)
    (hmoved : ∀ t ∈ moved, t ∈ db.tables)
    (hcovered : ∀ t ∈ moved, ∀ row ∈ t.2, Covered db (istDay (occurredAt row))) :
    Outcome fits (Restored occurredAt db (moved.flatMap Prod.snd))
      (restoreAll occurredAt (moved.map Prod.fst) db) := by
  induction moved generalizing db with
  | nil =>
    exact
      { wellFormed := hwf
        name := rfl
        rest := rfl
        tables := rfl
        days := rfl
        rows := by
          rw [List.flatMap_nil, List.append_nil] }
  | cons t moved ih =>
    have ht := hmoved t List.mem_cons_self
    have hselect : select t.1 db = .ok t.2 := by
      unfold select
      cases hfind : db.tables.find? fun u => u.1 = t.1 with
      | none => exact absurd (decide_eq_true rfl) (List.find?_eq_none.mp hfind t ht)
      | some u =>
        have hname : u.1 = t.1 := by simpa using List.find?_some hfind
        rw [List.inj_on_of_nodup_map hwf.tableNames (List.mem_of_find?_eq_some hfind) ht hname]
    rw [List.map_cons, restoreAll, hselect]
    show Outcome fits _ (restore occurredAt t.2 db >>= _)
    refine (restore_spec hwf (hcovered t List.mem_cons_self)).bind fun db₁ h₁ => ?_
    have hrest := @ih db₁ h₁.wellFormed (fun u hu => h₁.tables ▸ hmoved u (List.mem_cons_of_mem _ hu))
      (fun u hu row hrow => covered_iff.mpr
        (h₁.days ▸ covered_iff.mp (hcovered u (List.mem_cons_of_mem _ hu) row hrow)))
    refine hrest.mono fun r hr => ?_
    exact
      { wellFormed := hr.wellFormed
        name := hr.name.trans h₁.name
        rest := hr.rest.trans h₁.rest
        tables := hr.tables.trans h₁.tables
        days := hr.days.trans h₁.days
        rows := by
          rw [List.flatMap_cons, ← List.append_assoc]
          exact hr.rows.trans (List.Perm.append_right _ h₁.rows) }

/-! ## Dropping -/

theorem dropAll_spec {base moved : List (Text × List ρ)} (hwf : WellFormed occurredAt db)
    (htables : db.tables = base ++ moved) :
    dropAll (moved.map Prod.fst) db = .ok { db with tables := base } := by
  induction moved generalizing db with
  | nil =>
    rw [List.append_nil] at htables
    rw [List.map_nil, dropAll, ← htables]
  | cons t moved ih =>
    have hnames := hwf.tableNames
    rw [htables, List.map_append, List.map_cons] at hnames
    obtain ⟨-, hright, hdisjoint⟩ := List.nodup_append.mp hnames
    have hbase : base.filter (fun u => u.1 ≠ t.1) = base :=
      List.filter_eq_self.mpr fun u hu => decide_eq_true
        (hdisjoint _ (List.mem_map_of_mem hu) _ List.mem_cons_self)
    have hmoved : moved.filter (fun u => u.1 ≠ t.1) = moved := by
      refine List.filter_eq_self.mpr fun u hu => decide_eq_true fun heq => ?_
      exact (List.nodup_cons.mp hright).1 (heq ▸ List.mem_map_of_mem hu)
    have hfilter : db.tables.filter (fun u => u.1 ≠ t.1) = base ++ moved := by
      rw [htables, List.filter_append, List.filter_cons_of_neg (by simp), hbase, hmoved]
    have hmem : t.1 ∈ db.tables.map Prod.fst := by
      rw [htables]
      exact List.mem_map_of_mem (List.mem_append_right _ List.mem_cons_self)
    have hdropped : WellFormed occurredAt { db with tables := base ++ moved } :=
      hwf.dropTables (hfilter ▸ List.filter_sublist)
    rw [List.map_cons, dropAll, drop, if_pos hmem, hfilter]
    show dropAll (moved.map Prod.fst) { db with tables := base ++ moved } = _
    rw [ih hdropped rfl]

/-! ## The whole run -/

/-- What the job finds: a schema that the database lets be, with the names it does not use itself. -/
structure Ready (occurredAt : ρ → Int) (db : Schema Text ρ) : Prop where
  wellFormed : WellFormed occurredAt db
  table : db.name = tableName
  default : ∀ r ∈ db.rest, r.1 = defaultName
  partitions : ∀ p ∈ db.partitions, ∀ i, p.name ≠ convertName i
  tables : ∀ t ∈ db.tables, (∀ day, t.1 ≠ dayName day) ∧ ∀ i, t.1 ≠ convertName i

/-- All dates that the job computes are in range. -/
structure DatesFit (occurredAt : ρ → Int) (db : Schema Text ρ) (today : Int) (ahead : Nat) :
    Prop where
  rows : ∀ row ∈ db.rows, IsDate (istDay (occurredAt row)) ∧ IsDate (istDay (occurredAt row) + 1)
  partitions : ∀ p ∈ db.partitions, Readable p
  first : IsDate today
  last : IsDate (today + ahead + 1)

/-- What the job leaves. -/
structure Maintained (occurredAt : ρ → Int) (db : Schema Text ρ) (today : Int) (ahead : Nat)
    (r : Schema Text ρ) : Prop where
  wellFormed : WellFormed occurredAt r
  days : AllDays r
  wanted : ∀ i : Nat, i ≤ ahead → Covered r (today + i)
  covered : ∀ row ∈ r.rows, Covered r (istDay (occurredAt row))
  default : r.defaultRows = []
  rows : r.rows.Perm db.rows
  tables : r.tables = db.tables
  again : maintainPartitions occurredAt true today ahead r = .ok r

theorem partitionsOf_spec (hfits : fits → ∀ p ∈ db.partitions, Readable p) :
    Outcome fits (fun r => (∀ p ∈ db.partitions, Readable p) ∧
      r = (db.partitions.filterMap dayOf,
        ((db.partitions.filter fun p => (dayOf p).isNone).map Partition.name).insertionSort
          (· ≤ ·))) (partitionsOf db) := by
  unfold partitionsOf
  split
  · rename_i hread
    exact ⟨hread, rfl⟩
  · rename_i hread
    exact ⟨rfl, fun h => hread (hfits h)⟩

theorem daysAhead_spec {today : Int} {ahead : Nat}
    (hfits : fits → IsDate today ∧ IsDate (today + ahead)) :
    Outcome fits (fun days => IsDate today ∧ IsDate (today + ahead) ∧
      ∀ day, day ∈ days ↔ ∃ i : Nat, i ≤ ahead ∧ today + i = day) (daysAhead today ahead) := by
  unfold daysAhead
  split
  · rename_i hdates
    refine ⟨hdates.1, hdates.2, fun day => ?_⟩
    rw [List.mem_map]
    refine exists_congr fun i => and_congr_left fun _ => ?_
    rw [List.mem_range, Nat.lt_succ_iff]
  · rename_i hdates
    exact ⟨rfl, fun h => hdates (hfits h)⟩

theorem inDays_iff {days : List Int} {row : ρ} :
    inDays occurredAt days row = true ↔ istDay (occurredAt row) ∈ days := by
  unfold inDays
  rw [List.any_eq_true]
  constructor
  · rintro ⟨day, hday, hheld⟩
    exact (window_iff day _).mp (of_decide_eq_true hheld) ▸ hday
  · intro hday
    exact ⟨_, hday, decide_eq_true ((window_iff _ _).mpr rfl)⟩

/-- No row of the DEFAULT partition is of a day that has a partition. -/
theorem not_covered_of_default (hwf : WellFormed occurredAt db) {row : ρ}
    (hrow : row ∈ db.defaultRows) : ¬Covered db (istDay (occurredAt row)) := by
  rintro ⟨p, hp, hday⟩
  exact hwf.unheld row hrow p hp ((holds_iff hday row).mpr rfl)

/-- **A second run** finds nothing to do. -/
theorem maintain_again {today : Int} {ahead : Nat} (hall : AllDays db)
    (hahead : ∀ i : Nat, i ≤ ahead → Covered db (today + i)) (hdefault : db.defaultRows = [])
    (htoday : IsDate today) (hlast : IsDate (today + ahead)) :
    maintainPartitions occurredAt true today ahead db = .ok db := by
  have hread : ∀ p ∈ db.partitions, Readable p := by
    intro p hp
    obtain ⟨day, hday, hdate, hnext⟩ := hall p hp
    obtain ⟨hlower, hupper, -⟩ := dayOf_spec hday
    rw [Readable, hlower, hupper, Reporting.istDay_dayStart, Reporting.istDay_dayStart]
    exact ⟨hdate, hnext, fun _ => hnext⟩
  have hnone : (db.partitions.filter fun p => (dayOf p).isNone) = [] := by
    refine List.filter_eq_nil_iff.mpr fun p hp => ?_
    obtain ⟨day, hday, -⟩ := hall p hp
    simp [hday]
  have hparts : partitionsOf db = .ok (db.partitions.filterMap dayOf, []) := by
    rw [partitionsOf, if_pos hread, hnone]
    rfl
  have hwanted : daysAhead today ahead =
      .ok ((List.range (ahead + 1)).map fun i : Nat => today + (i : Int)) := if_pos ⟨htoday, hlast⟩
  have hmissing : missing (db.partitions.filterMap dayOf)
      (((List.range (ahead + 1)).map fun i : Nat => today + (i : Int)) ++ [] ++ []) = [] := by
    have hempty : ((((List.range (ahead + 1)).map fun i : Nat => today + (i : Int)) ++ [] ++
        []).filter fun day => day ∉ db.partitions.filterMap dayOf) = [] := by
      refine List.filter_eq_nil_iff.mpr fun day hday => ?_
      rw [List.append_nil, List.append_nil] at hday
      obtain ⟨i, hi, rfl⟩ := List.mem_map.mp hday
      obtain ⟨p, hp, hp'⟩ := hahead i (Nat.lt_succ_iff.mp (List.mem_range.mp hi))
      have hmem : today + (i : Int) ∈ db.partitions.filterMap dayOf :=
        List.mem_filterMap.mpr ⟨p, hp, hp'⟩
      simpa using hmem
    rw [missing, hempty]
    rfl
  have hdelete : deleteDefault (inDays occurredAt []) db = (db, []) := by
    have hkeep : (db.rest.map fun r =>
        (r.1, r.2.filter fun row => !inDays occurredAt [] row)) = db.rest := by
      cases db.rest with
      | none => rfl
      | some r =>
        have hall : (r.2.filter fun row => !inDays occurredAt [] row) = r.2 :=
          List.filter_eq_self.mpr fun _ _ => rfl
        rw [Option.map_some, hall]
    rw [deleteDefault, hkeep, hdefault]
    rfl
  rw [maintainPartitions, if_pos rfl, maintain, hparts, Checked.ok_bind, hwanted, Checked.ok_bind]
  show (daysWithRows occurredAt db.defaultRows >>= _) = _
  rw [hdefault]
  show rearrange occurredAt (missing (db.partitions.filterMap dayOf)
    (((List.range (ahead + 1)).map fun i : Nat => today + (i : Int)) ++ [] ++ [])) [] db = _
  rw [hmissing, rearrange, hdelete]
  rfl

theorem mem_missing {days wanted : List Int} {day : Int} :
    day ∈ missing days wanted ↔ day ∈ wanted ∧ day ∉ days := by
  rw [missing, (List.perm_insertionSort _ _).mem_iff, List.mem_dedup, List.mem_filter,
    decide_eq_true_iff]

theorem nodup_missing (days wanted : List Int) : (missing days wanted).Nodup :=
  (List.perm_insertionSort _ _).nodup_iff.mpr (List.nodup_dedup _)

/-- The second half of the job, when the DEFAULT partition has only rows of days to create. -/
theorem rearrange_spec {toCreate : List Int} {base moved : List (Text × List ρ)}
    (hwf : WellFormed occurredAt db) (hall : AllDays db) (hfree : NamesFree db)
    (htables : db.tables = base ++ moved) (hnodup : toCreate.Nodup)
    (hdates : ∀ day ∈ toCreate, IsDate day) (hnew : ∀ day ∈ toCreate, ¬Covered db day)
    (hdefault : ∀ row ∈ db.defaultRows, istDay (occurredAt row) ∈ toCreate)
    (hmoved : ∀ t ∈ moved, ∀ row ∈ t.2,
      Covered db (istDay (occurredAt row)) ∨ istDay (occurredAt row) ∈ toCreate)
    (hfits : fits → ∀ day ∈ toCreate, IsDate (day + 1)) :
    Outcome fits (fun r => WellFormed occurredAt r ∧ AllDays r ∧
      (∀ day, Covered r day ↔ Covered db day ∨ day ∈ toCreate) ∧ r.defaultRows = [] ∧
      r.rows.Perm (db.rows ++ moved.flatMap Prod.snd) ∧ r.tables = base)
      (rearrange occurredAt toCreate (moved.map Prod.fst) db) := by
  have hall' : (deleteDefault (inDays occurredAt toCreate) db).2 = db.defaultRows :=
    List.filter_eq_self.mpr fun row hrow => inDays_iff.mpr (hdefault row hrow)
  have hleft : (deleteDefault (inDays occurredAt toCreate) db).1.defaultRows = [] := by
    rw [defaultRows_deleteDefault, List.filter_eq_nil_iff]
    intro row hrow
    simp [inDays_iff.mpr (hdefault row hrow)]
  have hwf₁ := hwf.deleteDefault (inDays occurredAt toCreate)
  have hfree₁ : NamesFree (deleteDefault (inDays occurredAt toCreate) db).1 := by
    refine ⟨hfree.table, fun r hr => ?_, hfree.tables⟩
    obtain ⟨r', hr', rfl⟩ := Option.map_eq_some_iff.mp hr
    exact hfree.default r' hr'
  rw [rearrange, hall']
  refine (createAll_spec hwf₁ hall hfree₁ hnodup hdates hnew
    (fun row hrow => absurd (hleft ▸ hrow) List.not_mem_nil) hfits).bind fun db₂ h₂ => ?_
  obtain ⟨hwf₂, hall₂, hdb₂⟩ := h₂
  have hcovered₂ : ∀ day, Covered db₂ day ↔ Covered db day ∨ day ∈ toCreate := by
    intro day
    have hcreated : some day ∈ (toCreate.map fun day => (dayPartition day [] : Partition Text ρ)).map dayOf ↔
        day ∈ toCreate := by
      rw [List.map_map, List.mem_map]
      refine ⟨?_, fun hday => ⟨day, hday, dayOf_dayPartition day []⟩⟩
      rintro ⟨day', hday', heq⟩
      obtain rfl := Option.some.inj ((dayOf_dayPartition day' []).symm.trans heq)
      exact hday'
    rw [covered_iff, hdb₂, List.map_append, List.mem_append, hcreated]
    exact or_congr_left covered_iff.symm
  have hrows₂ : db₂.partitions.flatMap Partition.rows = db.partitions.flatMap Partition.rows := by
    rw [hdb₂, List.flatMap_append, List.flatMap_map]
    have hnil : (toCreate.flatMap fun day => ((dayPartition day [] : Partition Text ρ)).rows) = [] :=
      List.flatMap_eq_nil_iff.mpr fun _ _ => rfl
    rw [hnil, List.append_nil]
    rfl
  have hstep : Outcome fits (Restored occurredAt db₂ db.defaultRows)
      (restoreMoved occurredAt db.defaultRows db₂) := by
    unfold restoreMoved
    split
    · rename_i hempty
      rw [List.isEmpty_iff.mp hempty]
      exact ⟨hwf₂, rfl, rfl, rfl, rfl, by rw [List.append_nil]⟩
    · exact restore_spec hwf₂ fun row hrow => (hcovered₂ _).mpr (.inr (hdefault row hrow))
  refine hstep.bind fun db₃ h₃ => ?_
  have hcovered₃ : ∀ day, Covered db₃ day ↔ Covered db day ∨ day ∈ toCreate := by
    intro day
    rw [covered_iff, h₃.days, ← covered_iff, hcovered₂]
  have htables₃ : db₃.tables = base ++ moved := by
    rw [h₃.tables, hdb₂]
    exact htables
  refine (restoreAll_spec h₃.wellFormed
    (fun t ht => htables₃ ▸ List.mem_append_right _ ht)
    (fun t ht row hrow => (hcovered₃ _).mpr (hmoved t ht row hrow))).bind fun db₄ h₄ => ?_
  have hdefault₄ : db₄.defaultRows = [] := by
    have hrest : db₄.rest = (deleteDefault (inDays occurredAt toCreate) db).1.rest := by
      rw [h₄.rest, h₃.rest, hdb₂]
    rw [Schema.defaultRows, hrest]
    exact hleft
  have hdays : db₄.partitions.map dayOf = db₂.partitions.map dayOf := h₄.days.trans h₃.days
  rw [dropAll_spec h₄.wellFormed (h₄.tables.trans htables₃)]
  refine ⟨h₄.wellFormed.dropTables ?_, ?_, ?_, hdefault₄, ?_, rfl⟩
  · rw [h₄.tables, htables₃]
    exact List.sublist_append_left _ _
  · intro p hp
    have hmem : dayOf p ∈ db₂.partitions.map dayOf := hdays ▸ List.mem_map_of_mem hp
    obtain ⟨q, hq, heq⟩ := List.mem_map.mp hmem
    rw [← heq]
    exact hall₂ q hq
  · intro day
    rw [covered_iff]
    show some day ∈ db₄.partitions.map dayOf ↔ _
    rw [hdays, ← covered_iff, hcovered₂]
  · show (db₄.partitions.flatMap Partition.rows ++ db₄.defaultRows).Perm _
    rw [hdefault₄, List.append_nil]
    refine h₄.rows.trans (List.Perm.append_right _ (h₃.rows.trans ?_))
    rw [hrows₂]
    rfl

theorem Ready.convertName_not_mem (h : Ready occurredAt db) (j : Nat) :
    convertName j ∉ db.names := by
  intro hmem
  unfold Schema.names at hmem
  simp only [List.mem_cons, List.mem_append, List.mem_map, Option.mem_toList] at hmem
  rcases hmem with h' | (⟨p, hp, h'⟩ | ⟨r, hr, h'⟩) | ⟨t, ht, h'⟩
  · exact (convertName_ne j).1 (h'.trans h.table)
  · exact h.partitions p hp j h'
  · exact (convertName_ne j).2 (h'.symm.trans (h.default r hr))
  · exact (h.tables t ht).2 j h'

/-- A readable day partition is one of two dates. -/
theorem Readable.dates {p : Partition Text ρ} {day : Int} (h : Readable p) (hday : dayOf p = some day) :
    IsDate day ∧ IsDate (day + 1) := by
  obtain ⟨hlower, -, -⟩ := dayOf_spec hday
  obtain ⟨hdate, -, hnext⟩ := h
  rw [hlower, Reporting.istDay_dayStart] at hdate hnext
  exact ⟨hdate, hnext rfl⟩

/-- The days of a schema in which the other partitions are detached. -/
theorem Detached.covered_iff {names : List Text} {moved : List (Text × List ρ)}
    {r : Schema Text ρ × List Text × List Int} (h : Detached occurredAt db names moved r)
    (hnames : ∀ p ∈ db.partitions, p.name ∈ names ↔ dayOf p = none) (day : Int) :
    Covered r.1 day ↔ day ∈ db.partitions.filterMap dayOf := by
  rw [Covered, h.partitions, List.mem_filterMap]
  constructor
  · rintro ⟨p, hp, hday⟩
    exact ⟨p, (List.mem_filter.mp hp).1, hday⟩
  · rintro ⟨p, hp, hday⟩
    refine ⟨p, List.mem_filter.mpr ⟨hp, decide_eq_true fun hmem => ?_⟩, hday⟩
    rw [(hnames p hp).mp hmem] at hday
    cases hday

theorem Detached.allDays {names : List Text} {moved : List (Text × List ρ)}
    {r : Schema Text ρ × List Text × List Int} (h : Detached occurredAt db names moved r)
    (hnames : ∀ p ∈ db.partitions, p.name ∈ names ↔ dayOf p = none)
    (hread : ∀ p ∈ db.partitions, Readable p) : AllDays r.1 := by
  intro p hp
  rw [h.partitions] at hp
  obtain ⟨hp, hnot⟩ := List.mem_filter.mp hp
  cases hday : dayOf p with
  | none => exact absurd ((hnames p hp).mpr hday) (of_decide_eq_true hnot)
  | some day => exact ⟨day, rfl, (hread p hp).dates hday⟩

/-- The names of detached partitions are none of a day's. -/
theorem Detached.namesFree {names : List Text} {moved : List (Text × List ρ)}
    {r : Schema Text ρ × List Text × List Int} (h : Detached occurredAt db names moved r)
    (hready : Ready occurredAt db) : NamesFree r.1 := by
  refine ⟨h.name.trans hready.table, fun r' hr' => hready.default r' (h.rest ▸ hr'), ?_⟩
  intro t ht day
  rw [h.tables] at ht
  rcases List.mem_append.mp ht with ht | ht
  · exact (hready.tables t ht).1 day
  · obtain ⟨j, hj⟩ := h.convert t ht
    rw [hj]
    exact convertName_ne_dayName j day

/-- The partitions that are no days, by their names. -/
theorem mem_undated (h : WellFormed occurredAt db) {p : Partition Text ρ}
    (hp : p ∈ db.partitions) :
    p.name ∈ (db.partitions.filter fun p => (dayOf p).isNone).map Partition.name ↔
      dayOf p = none := by
  rw [List.mem_map]
  constructor
  · rintro ⟨q, hq, heq⟩
    obtain ⟨hq, hnone⟩ := List.mem_filter.mp hq
    obtain rfl := List.inj_on_of_nodup_map h.partitionNames hq hp heq
    exact Option.isNone_iff_eq_none.mp hnone
  · intro hnone
    exact ⟨p, List.mem_filter.mpr ⟨hp, Option.isNone_iff_eq_none.mpr hnone⟩, rfl⟩

/-- **Maintenance loses no row.** Unless a date is out of range, no statement is rejected and the
job leaves one partition for each wanted day and no others, an empty DEFAULT partition and the rows
that it found. -/
theorem maintenance_loses_no_row (hready : Ready occurredAt db) (today : Int) (ahead : Nat) :
    Outcome (DatesFit occurredAt db today ahead) (Maintained occurredAt db today ahead)
      (maintainPartitions occurredAt true today ahead db) := by
  have hwf := hready.wellFormed
  have hmemrows : ∀ row ∈ db.partitions.flatMap Partition.rows, row ∈ db.rows :=
    fun row hrow => List.mem_append_left _ hrow
  have hmemdefault : ∀ row ∈ db.defaultRows, row ∈ db.rows :=
    fun row hrow => List.mem_append_right _ hrow
  rw [maintainPartitions, if_pos rfl, maintain]
  refine (partitionsOf_spec DatesFit.partitions).bind fun parts hparts => ?_
  obtain ⟨hread, rfl⟩ := hparts
  refine (daysAhead_spec fun h => ⟨h.first, ?_⟩).bind fun wanted hwanted => ?_
  · obtain ⟨hlow, hhigh⟩ := h.first
    obtain ⟨hlow', hhigh'⟩ := h.last
    exact ⟨by omega, by omega⟩
  obtain ⟨htoday, hlast, hwanted⟩ := hwanted
  dsimp only
  -- the partitions to convert are those that are no days
  generalize hconverted : ((db.partitions.filter fun p => (dayOf p).isNone).map
    Partition.name).insertionSort (· ≤ ·) = converted
  have hperm : converted.Perm
      ((db.partitions.filter fun p => (dayOf p).isNone).map Partition.name) :=
    hconverted ▸ List.perm_insertionSort _ _
  have hnames : ∀ p ∈ db.partitions, p.name ∈ converted ↔ dayOf p = none := fun p hp =>
    hperm.mem_iff.trans (mem_undated hwf hp)
  have hnodup : converted.Nodup :=
    hperm.nodup_iff.mpr (hwf.partitionNames.sublist (List.filter_sublist.map _))
  have hsub : ∀ n ∈ converted, n ∈ db.partitions.map Partition.name := fun n hn =>
    (List.filter_sublist.map _).subset (hperm.mem_iff.mp hn)
  refine (detachAll_spec hwf hsub hnodup (fun j _ => hready.convertName_not_mem j)
    fun h row hrow => (h.rows row (hmemrows row hrow)).1).bind fun r hr => ?_
  obtain ⟨moved, hr⟩ := hr
  have hdefault : r.1.defaultRows = db.defaultRows := by
    rw [Schema.defaultRows, hr.rest]
    rfl
  refine (daysWithRows_spec fun h row hrow =>
    (h.rows row (hmemdefault row (hdefault ▸ hrow))).1).bind fun days hdays => ?_
  have hcovered := hr.covered_iff hnames
  have hall := hr.allDays hnames hread
  have hfree := hr.namesFree hready
  have hmem : ∀ day, day ∈ missing (db.partitions.filterMap dayOf) (wanted ++ r.2.2 ++ days) ↔
      (day ∈ wanted ∨ day ∈ r.2.2 ∨ day ∈ days) ∧ ¬Covered r.1 day := by
    intro day
    rw [mem_missing, List.mem_append, List.mem_append, hcovered, or_assoc]
  have hspec : Outcome (DatesFit occurredAt db today ahead) _
      (rearrange occurredAt (missing (db.partitions.filterMap dayOf) (wanted ++ r.2.2 ++ days))
        (moved.map Prod.fst) r.1) :=
    rearrange_spec hr.wellFormed hall hfree hr.tables (nodup_missing _ _) ?_
      (fun day hday => ((hmem day).mp hday).2) ?_ ?_ ?_
  · rw [hr.names] at hspec
    refine hspec.mono fun r' hr' => ?_
    obtain ⟨hwf', hall', hcovered', hdefault', hrows', htables'⟩ := hr'
    have hwantedDays : ∀ i : Nat, i ≤ ahead → Covered r' (today + i) := by
      intro i hi
      rw [hcovered', hmem]
      have hday := (hwanted (today + i)).mpr ⟨i, hi, rfl⟩
      tauto
    exact
      { wellFormed := hwf'
        days := hall'
        wanted := hwantedDays
        covered := by
          intro row hrow
          rw [Schema.rows, hdefault', List.append_nil] at hrow
          obtain ⟨p, hp, hrow⟩ := List.mem_flatMap.mp hrow
          obtain ⟨day, hday, -⟩ := hall' p hp
          have hheld := (holds_iff hday row).mp (hwf'.held p hp row hrow)
          exact ⟨p, hp, hheld ▸ hday⟩
        default := hdefault'
        rows := by
          refine hrows'.trans ?_
          rw [Schema.rows, hdefault, Schema.rows]
          refine List.perm_append_comm.trans ?_
          rw [← List.append_assoc]
          exact List.Perm.append_right _ hr.rows
        tables := htables'
        again := maintain_again hall' hwantedDays hdefault' htoday hlast }
  · intro day hday
    rcases ((hmem day).mp hday).1 with h | h | h
    · obtain ⟨i, hi, rfl⟩ := (hwanted day).mp h
      exact ⟨by unfold IsDate at *; omega, by unfold IsDate at *; omega⟩
    · exact (hr.dates day h).1
    · exact (hdays.2 day h).1
  · intro row hrow
    exact (hmem _).mpr ⟨.inr (.inr (hdays.1 row hrow)), not_covered_of_default hr.wellFormed hrow⟩
  · intro t ht row hrow
    have hday := hr.wanted t ht row hrow
    have := hmem (istDay (occurredAt row))
    tauto
  · intro hfits day hday
    rcases ((hmem day).mp hday).1 with h | h | h
    · obtain ⟨i, hi, rfl⟩ := (hwanted day).mp h
      have := hfits.last
      exact ⟨by unfold IsDate at *; omega, by unfold IsDate at *; omega⟩
    · obtain ⟨-, row, hrow, rfl⟩ := hr.dates day h
      exact (hfits.rows row (hmemrows row hrow)).2
    · obtain ⟨-, row, hrow, rfl⟩ := hdays.2 day h
      exact (hfits.rows row (hmemdefault row (hdefault ▸ hrow))).2

end Steps

/-! ## The month that the migration creates -/

/-- `usage_events` as the migration leaves it in October 2026, with a partition for the UTC month,
and a DEFAULT partition with a row of November. A row is its instant. -/
def october : Schema Text Int where
  name := tableName
  partitions :=
    [⟨tableName ++ ['_', '2', '0', '2', '6', '_', '1', '0'], 20727 * dayMicros, 20758 * dayMicros,
      [20730 * dayMicros, 20757 * dayMicros + 1]⟩]
  rest := some (defaultName, [20760 * dayMicros])
  tables := []

theorem ready_october : Ready id october where
  wellFormed :=
    { names := by decide +kernel
      ordered := by decide +kernel
      disjoint := List.pairwise_singleton _ _
      held := by decide +kernel
      unheld := by decide +kernel }
  table := rfl
  default := by
    intro r hr
    obtain rfl := Option.some.inj hr
    rfl
  partitions := by
    intro p hp i heq
    obtain rfl := List.mem_singleton.mp hp
    exact convertName_ne_append i _ heq.symm
  tables := fun t ht => absurd ht List.not_mem_nil

theorem maintenance_loses_no_row_october :
    Outcome (DatesFit id october 20750 1) (Maintained id october 20750 1)
      (maintainPartitions id true 20750 1 october) :=
  maintenance_loses_no_row ready_october 20750 1

example : ((maintainPartitions id true 20750 1 october).toOption.map fun db =>
    db.partitions.map fun p => (dayOf p, p.rows)) =
      some [(some 20730, [20730 * dayMicros]), (some 20750, []), (some 20751, []),
        (some 20757, [20757 * dayMicros + 1]), (some 20760, [20760 * dayMicros])] := by
  decide +kernel

end Ai4iCore.Usage.Maintenance
