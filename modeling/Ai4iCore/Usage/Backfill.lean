import Ai4iCore.Base.Digits
import Ai4iCore.Base.Run
import Ai4iCore.Usage.Rollup

/-!
# The backfill beside the nightly rollup

`backfill/engine.py` and `backfill/undo.py` of pyjob, which write estimated rows of past days
into `daily_usage`, beside the nightly `consolidate`. Neither job locks the other out: a backfill
refuses the days that the rollup may still reach and those that have rollup rows already, once,
in a transaction of its own, before it writes a first day.

Here every transaction of either job is a step, and any number of runs take turns, as long as no
run goes on with an older date than one that was read before. What keeps the two apart is that
the reach of the rollup only moves forward (`Inv`); what a day then holds of the backfill is the
last generation written for it (`rollup_backfill_apart`).
-/

namespace Ai4iCore.Usage

open Relational StepSystem

/-! ## The rows of a day -/

/-- The labels that the backfill reads of a series. -/
structure SeriesLabels where
  tenantId : Option String
  applicationId : Option String
  serviceId : Option String
  tokenType : Option String
  deriving DecidableEq

/-- A series of an instant query, with its value. -/
structure Series where
  metric : SeriesLabels
  value : ℚ

/-- The queries of `day_queries`. -/
inductive QueryKind
  | requests
  | successful
  | tokens
  deriving DecidableEq, Repr

def QueryKind.name : QueryKind → String
  | .requests => "requests"
  | .successful => "successful"
  | .tokens => "tokens"

structure LlmService where
  name : String
  modelName : Option String
  inputRate : ℚ
  outputRate : ℚ

structure Lookups where
  tenants : Int → Option (String × Option ℚ × Option String)
  applications : Int → Option String
  singleKeys : Int → Option Int
  tiers : String → Option String
  services : String → Option LlmService
  llmTypeId : Option Int
  llmUnit : Option String

/-- `_label_int`. -/
def labelInt (value : Option String) : Option Int :=
  value.bind fun text =>
    if UnicodeDigits.isDigit text.toList then
      ((UnicodeDigits.int text.toList).filter fun number => 0 < number).map fun number => (number : Int)
    else none

/-- What the totals of a day are grouped by. -/
structure TotalsKey where
  tenantId : Int
  applicationId : Option Int
  serviceId : Option String
  deriving DecidableEq

/-- One addition to the totals. -/
structure Growth where
  key : TotalsKey
  name : Option String
  value : ℚ

/-- The key of a series; unknown applications and services are NULL. -/
def Lookups.key (lookups : Lookups) (labels : SeriesLabels) : Option TotalsKey :=
  (labelInt labels.tenantId).map fun tenantId =>
    { tenantId
      applicationId := (labelInt labels.applicationId).filter fun id =>
        (lookups.applications id).isSome
      serviceId := labels.serviceId.filter fun id => id ≠ "" && (lookups.services id).isSome }

/-- The additions to the totals, in the order of the queries. -/
def growths (results : QueryKind → List Series) (lookups : Lookups) : List Growth :=
  [QueryKind.requests, .successful, .tokens].flatMap fun kind =>
    (results kind).filterMap fun series =>
      (lookups.key series.metric).map fun key =>
        { key
          name := if kind = .tokens then series.metric.tokenType else some kind.name
          value := series.value }

/-- `t[name]`. -/
def total (growths : List Growth) (name : String) : ℚ :=
  ((growths.filter fun g => g.name = some name).map Growth.value).sum

/-- A row before it is inserted: `_COLUMNS`. -/
structure NewRow where
  usageDate : Int
  dimensions : Dimensions
  names : Names
  measures : Measures

/-- The amounts of a row, as its columns keep them. -/
def tokenAmount (prompt completion : Int) (service : Option LlmService) : Amount → ℚ
  | .totalUnits => prompt + completion
  | .cachedInputUnits => 0
  | .outputUnits => completion
  | .inputUnitsCost => Billing.money (service.elim 0 fun s => prompt * s.inputRate)
  | .cachedInputUnitsCost => 0
  | .outputUnitsCost => Billing.money (service.elim 0 fun s => completion * s.outputRate)

/-- The row of one key, unless it has neither requests nor tokens. -/
def dayRow (day : Int) (lookups : Lookups) (key : TotalsKey) (t : List Growth) :
    Option NewRow :=
  let requests := Rounding.halfUp (total t "requests")
  let failed := max 0 (requests - Rounding.halfUp (total t "successful"))
  let prompt := Rounding.halfUp (total t "prompt")
  let completion := Rounding.halfUp (total t "completion")
  if requests = 0 ∧ prompt + completion = 0 then none
  else
    let tenant := lookups.tenants key.tenantId
    let tierId := tenant.bind fun t => t.2.2
    let service := key.serviceId.bind lookups.services
    some
      { usageDate := day
        dimensions :=
          { tenantId := some key.tenantId
            applicationId := key.applicationId
            apiKeyId := key.applicationId.bind lookups.singleKeys
            tierId := tierId.filter fun id => (lookups.tiers id).isSome
            serviceId := key.serviceId
            inferenceTypeId := lookups.llmTypeId
            billingMonth := Billing.billingMonth (day * dayMicros) }
        names :=
          { tenantName := tenant.map Prod.fst
            allocatedBudget := tenant.bind fun t => t.2.1
            applicationName := key.applicationId.bind lookups.applications
            tierName := tierId.bind lookups.tiers
            serviceName := service.map LlmService.name
            modelName := service.bind LlmService.modelName
            taskType := some "llm"
            unit := lookups.llmUnit }
        measures :=
          { requestCount := requests
            successCount := requests - failed
            failedCount := failed
            amount := tokenAmount prompt completion service } }

/-- `build_day_rows`. -/
def buildDayRows (day : Int) (results : QueryKind → List Series) (lookups : Lookups) :
    List NewRow :=
  (groupBy Growth.key (growths results lookups)).filterMap fun g => dayRow day lookups g.1 g.2

/-- The rows of `build_day_rows` are all of its day. -/
theorem usageDate_buildDayRows {day : Int} {results : QueryKind → List Series} {lookups : Lookups}
    {row : NewRow} (h : row ∈ buildDayRows day results lookups) : row.usageDate = day := by
  obtain ⟨g, -, hrow⟩ := List.mem_filterMap.mp h
  unfold dayRow at hrow
  dsimp only at hrow
  split at hrow
  · cases hrow
  · obtain rfl := Option.some.inj hrow
    rfl

/-! ## Transactions -/

inductive BackfillError
  | missingSettings
  | fromAfterTo
  | notPast
  | withinReach
  | recorded
  | running
  | uniqueViolation
  /-- Prometheus or a database cannot be read. -/
  | unavailable
  deriving DecidableEq, Repr

/-- `_INSERT` of one row: `source` is written as a literal, the times have their defaults. -/
def NewRow.row (now : Int) (row : NewRow) : Row where
  usageDate := row.usageDate
  dimensions := row.dimensions
  names := row.names
  measures := row.measures
  source := .backfill
  createdAt := now
  updatedAt := now

def isBackfill (row : Row) : Bool := row.source == .backfill

/-- `daily_usage` after `_DELETE_DAY` and `_INSERT`. -/
def replaceDay (day : Int) (rows : List NewRow) (now : Int) (daily : List Row) : List Row :=
  (daily.filter fun row => !(isBackfill row && row.usageDate == day)) ++ rows.map (NewRow.row now)

theorem past_replaceDay {db : Database} {day now : Int} {rows : List NewRow} (hnow : db.clock ≤ now)
    {row : Row} (hrow : row ∈ replaceDay day rows now db.daily) : row.updatedAt ≤ now := by
  rcases List.mem_append.mp hrow with hrow | hrow
  · exact (db.past row (List.mem_filter.mp hrow).1).trans hnow
  · obtain ⟨new, -, rfl⟩ := List.mem_map.mp hrow
    exact le_refl now

/-- `write_day`. `lockHeld` says that another backfill or undo holds the advisory lock; the
unique index refuses a row whose key is there. -/
def writeDay (db : Database) (day : Int) (rows : List NewRow) (elapsed : Nat) (lockHeld : Bool) :
    Except BackfillError Database :=
  if lockHeld then .error .running
  else
    if hunique : ((replaceDay day rows (db.clock + 1 + elapsed) db.daily).map Row.key).Nodup then
      .ok
        { db with
          daily := replaceDay day rows (db.clock + 1 + elapsed) db.daily
          clock := db.clock + 1 + elapsed
          unique := hunique
          past := fun _ hrow => past_replaceDay (by omega) hrow }
    else .error .uniqueViolation

theorem writeDay_ok {db db' : Database} {day : Int} {rows : List NewRow} {elapsed : Nat}
    {lockHeld : Bool} (h : writeDay db day rows elapsed lockHeld = .ok db') :
    db'.daily = replaceDay day rows (db.clock + 1 + elapsed) db.daily := by
  unfold writeDay at h
  split at h
  · cases h
  · split at h
    · cases h
      rfl
    · cases h

/-- `undo`: every row of the backfill is deleted. -/
def undo (db : Database) (lockHeld : Bool) : Except BackfillError Database :=
  if lockHeld then .error .running
  else
    .ok
      { db with
        daily := db.daily.filter fun row => !isBackfill row
        unique := db.unique.sublist (List.filter_sublist.map _)
        past := fun row hrow => db.past row (List.mem_filter.mp hrow).1 }

/-! ## Runs of the two jobs -/

structure Settings where
  prometheusUrl : Option String
  backfillFrom : Option Int
  backfillTo : Option Int

/-- `first_rollup_day`. -/
def firstRollupDay (today : Int) (lookbackDays : Nat) : Int := today - (1 + lookbackDays)

/-- The days that `consolidate` rolls up. -/
def rollupDays (today : Int) (lookbackDays : Nat) : List Int :=
  (List.range (lookbackDays + 1)).reverse.map fun back : Nat => today - 1 - (back : Int)

/-- The checks of `run` on its settings. -/
def checkSettings (settings : Settings) (today : Int) : Except BackfillError (Int × Int) :=
  match settings.prometheusUrl, settings.backfillFrom, settings.backfillTo with
  | some url, some first, some last =>
    if url = "" then .error .missingSettings
    else if first > last then .error .fromAfterTo
    else if last ≥ today then .error .notPast
    else .ok (first, last)
  | _, _, _ => .error .missingSettings

/-- Some of the days have rollup rows. -/
def isRecorded (first last : Int) (daily : List Row) : Bool :=
  daily.any fun row =>
    row.source == .rollup && decide (first ≤ row.usageDate) && decide (row.usageDate ≤ last)

/-- How far a backfill is. -/
inductive Phase
  | idle
  | checkingReach (first last : Int)
  | checkingRecorded (first last : Int)
  | loading (first last : Int)
  /-- `day` is written next, when it is not after `last`. -/
  | writing (lookups : Lookups) (day last : Int)
  | finished
  | failed (e : BackfillError)

/-- The database, the date that was read last, and the backfills. -/
structure State where
  db : Database
  today : Int
  phases : Nat → Phase

/-- One statement or transaction of backfill `i`, an undo, one day of a consolidation, or a
change of the other tables. Where a job reads the date, the label has it; a day of a
consolidation has the date that its run has read. -/
inductive Label
  | start (i : Nat) (today : Int)
  | checkReach (i : Nat) (today : Int)
  | checkRecorded (i : Nat)
  | load (i : Nat) (lookups : Lookups)
  | write (i : Nat) (results : QueryKind → List Series) (elapsed : Nat) (lockHeld : Bool)
  | finish (i : Nat)
  | fail (i : Nat)
  | undo (lockHeld : Bool)
  | rollup (today day : Int) (elapsed : Nat) (lockHeld : Bool)
  | change (events : List Event) (catalogue : Catalogue) (auth : AuthNames)

def State.set (s : State) (i : Nat) (p : Phase) : State :=
  { s with phases := Function.update s.phases i p }

section Step

variable (lookbackDays : Nat) (settings : Nat → Settings)

def step (s : State) : Label → Option State
  | .start i today =>
    match s.phases i with
    | .idle =>
      if s.today ≤ today then
        match checkSettings (settings i) today with
        | .error e => some ({ s with today }.set i (.failed e))
        | .ok (first, last) => some ({ s with today }.set i (.checkingReach first last))
      else none
    | _ => none
  | .checkReach i today =>
    match s.phases i with
    | .checkingReach first last =>
      if s.today ≤ today then
        if last ≥ firstRollupDay today lookbackDays then
          some ({ s with today }.set i (.failed .withinReach))
        else some ({ s with today }.set i (.checkingRecorded first last))
      else none
    | _ => none
  | .checkRecorded i =>
    match s.phases i with
    | .checkingRecorded first last =>
      if isRecorded first last s.db.daily then some (s.set i (.failed .recorded))
      else some (s.set i (.loading first last))
    | _ => none
  | .load i lookups =>
    match s.phases i with
    | .loading first last => some (s.set i (.writing lookups first last))
    | _ => none
  | .write i results elapsed lockHeld =>
    match s.phases i with
    | .writing lookups day last =>
      if day ≤ last then
        match writeDay s.db day (buildDayRows day results lookups) elapsed lockHeld with
        | .error e => some (s.set i (.failed e))
        | .ok db => some ({ s with db }.set i (.writing lookups (day + 1) last))
      else none
    | _ => none
  | .finish i =>
    match s.phases i with
    | .writing _ day last => if last < day then some (s.set i .finished) else none
    | _ => none
  | .fail i =>
    match s.phases i with
    | .finished | .failed _ => none
    | _ => some (s.set i (.failed .unavailable))
  | .undo lockHeld =>
    match undo s.db lockHeld with
    | .error _ => some s
    | .ok db => some { s with db }
  | .rollup today day elapsed lockHeld =>
    if s.today ≤ today ∧ day ∈ rollupDays today lookbackDays then
      some { s with today, db := rollupDay s.db day elapsed lockHeld }
    else none
  | .change events catalogue auth => some { s with db := { s.db with events, catalogue, auth } }

end Step

/-! ## The reach of the rollup -/

section Reach

variable {lookbackDays : Nat}

theorem firstRollupDay_mono {today today' : Int} (h : today ≤ today') :
    firstRollupDay today lookbackDays ≤ firstRollupDay today' lookbackDays := by
  unfold firstRollupDay
  omega

/-- A consolidation rolls up no day before its reach. -/
theorem firstRollupDay_le_of_mem {today day : Int} (h : day ∈ rollupDays today lookbackDays) :
    firstRollupDay today lookbackDays ≤ day := by
  obtain ⟨back, hback, rfl⟩ := List.mem_map.mp h
  have hback := List.mem_range.mp (List.mem_reverse.mp hback)
  unfold firstRollupDay
  omega

theorem isRecorded_eq_false_iff {first last : Int} {daily : List Row} :
    isRecorded first last daily = false ↔
      ∀ row ∈ daily, row.source = .rollup → first ≤ row.usageDate → last < row.usageDate := by
  unfold isRecorded
  rw [List.any_eq_false]
  refine forall₂_congr fun row _ => ?_
  simp only [Bool.and_eq_true, beq_iff_eq, decide_eq_true_eq, not_and, not_le, and_imp]

end Reach

/-! ## The rows of either source -/

theorem isBackfill_iff {row : Row} : isBackfill row = true ↔ row.source = .backfill := by
  unfold isBackfill
  exact beq_iff_eq

/-- A row that is not of the backfill is of the rollup. -/
theorem source_cases (row : Row) : row.source = .backfill ∨ row.source = .rollup := by
  cases row.source with
  | rollup => exact .inr rfl
  | backfill => exact .inl rfl

/-- What the day holds of the backfill. -/
def backfillRows (day : Int) (daily : List Row) : List Row :=
  daily.filter fun row => isBackfill row && row.usageDate == day

/-- Where a day has no row of the backfill, all of those are on other days. -/
theorem filter_isBackfill_of_noBackfill {day : Int} {rows : List Row} (h : NoBackfill day rows) :
    rows.filter isBackfill = (otherDays day rows).filter isBackfill := by
  rw [otherDays, List.filter_filter]
  refine List.filter_congr fun row hrow => ?_
  by_cases hday : row.usageDate = day
  · have hsource : isBackfill row = false := by
      unfold isBackfill
      rw [h row hrow hday]
      rfl
    rw [hsource, Bool.false_and]
  · rw [bne_iff_ne.mpr hday, Bool.and_true]

section Transactions

variable {db db' : Database} {day : Int} {elapsed : Nat} {lockHeld : Bool}

/-- A day of the rollup leaves the backfill's rows as they are, on a day that has none. -/
theorem filter_isBackfill_rollupDay (h : NoBackfill day db.daily) :
    (rollupDay db day elapsed lockHeld).daily.filter isBackfill = db.daily.filter isBackfill := by
  cases lockHeld with
  | true => rfl
  | false =>
    rw [rollupDay_daily]
    have hafter : NoBackfill day (rollupRows db day (db.clock + 1 + elapsed)) := fun row hrow =>
      noBackfill_upsertGroups h row (List.mem_filter.mp hrow).1
    rw [filter_isBackfill_of_noBackfill hafter, filter_isBackfill_of_noBackfill h,
      others_rollupRows]

/-- What a day of the rollup leaves is a row that was there, or one of the day. -/
theorem mem_rollupDay {row : Row} (h : row ∈ (rollupDay db day elapsed lockHeld).daily) :
    row ∈ db.daily ∨ row.usageDate = day := by
  cases lockHeld with
  | true => exact .inl h
  | false =>
    rw [rollupDay_daily] at h
    by_cases hday : row.usageDate = day
    · exact .inr hday
    · have hother : row ∈ otherDays day (rollupRows db day (db.clock + 1 + elapsed)) :=
        List.mem_filter.mpr ⟨h, bne_iff_ne.mpr hday⟩
      rw [others_rollupRows] at hother
      exact .inl (List.mem_filter.mp hother).1

theorem undo_ok (h : undo db lockHeld = .ok db') :
    db'.daily = db.daily.filter fun row => !isBackfill row := by
  unfold undo at h
  split at h
  · cases h
  · cases h
    rfl

variable {rows : List NewRow}

/-- After a write a row is an older one that was not replaced, or one of the new generation. -/
theorem mem_writeDay (hrows : ∀ new ∈ rows, new.usageDate = day)
    (h : writeDay db day rows elapsed lockHeld = .ok db') {row : Row} (hrow : row ∈ db'.daily) :
    row ∈ db.daily ∨ (row.source = .backfill ∧ row.usageDate = day) := by
  rw [writeDay_ok h] at hrow
  rcases List.mem_append.mp hrow with hrow | hrow
  · exact .inl (List.mem_filter.mp hrow).1
  · obtain ⟨new, hnew, rfl⟩ := List.mem_map.mp hrow
    exact .inr ⟨rfl, hrows new hnew⟩

/-- A write leaves the day with the new generation only. -/
theorem backfillRows_writeDay (hrows : ∀ new ∈ rows, new.usageDate = day)
    (h : writeDay db day rows elapsed lockHeld = .ok db') :
    backfillRows day db'.daily = rows.map (NewRow.row (db.clock + 1 + elapsed)) := by
  have hold : ∀ row, ((isBackfill row && row.usageDate == day) &&
      !(isBackfill row && row.usageDate == day)) = false := fun row => Bool.and_not_self _
  rw [writeDay_ok h, backfillRows, replaceDay, List.filter_append, List.filter_filter]
  simp only [hold]
  rw [List.filter_false, List.nil_append, List.filter_eq_self]
  intro row hrow
  obtain ⟨new, hnew, rfl⟩ := List.mem_map.mp hrow
  show (true && new.usageDate == day) = true
  rw [hrows new hnew, beq_self_eq_true]
  rfl

/-- A write leaves the backfill's rows of the other days. -/
theorem backfillRows_writeDay_of_ne (hrows : ∀ new ∈ rows, new.usageDate = day)
    (h : writeDay db day rows elapsed lockHeld = .ok db') {other : Int} (hne : other ≠ day) :
    backfillRows other db'.daily = backfillRows other db.daily := by
  rw [writeDay_ok h, backfillRows, replaceDay, List.filter_append, List.filter_filter]
  have hnew : (rows.map (NewRow.row (db.clock + 1 + elapsed))).filter
      (fun row => isBackfill row && row.usageDate == other) = [] := by
    rw [List.filter_eq_nil_iff]
    intro row hrow hother
    obtain ⟨new, hnew, rfl⟩ := List.mem_map.mp hrow
    have hday : new.usageDate = other := beq_iff_eq.mp (Bool.and_eq_true_iff.mp hother).2
    exact hne (hday.symm.trans (hrows new hnew))
  rw [hnew, List.append_nil]
  refine List.filter_congr fun row _ => ?_
  by_cases hother : row.usageDate = other
  · have hday : (row.usageDate == day) = false := by
      rw [hother]
      exact beq_false_of_ne hne
    rw [hday, Bool.and_false, Bool.not_false, Bool.and_true]
  · rw [beq_false_of_ne hother, Bool.and_false, Bool.false_and]

end Transactions

/-! ## Neither reaches a day of the other -/

/-- No day has rows of both sources. -/
def Apart (daily : List Row) : Prop :=
  ∀ row ∈ daily, row.source = .backfill →
    ∀ row' ∈ daily, row'.source = .rollup → row'.usageDate ≠ row.usageDate

def PhaseInv (lookbackDays : Nat) (s : State) : Phase → Prop
  | .checkingRecorded _ last => last < firstRollupDay s.today lookbackDays
  | .loading first last =>
    last < firstRollupDay s.today lookbackDays ∧ isRecorded first last s.db.daily = false
  | .writing _ day last =>
    last < firstRollupDay s.today lookbackDays ∧ isRecorded day last s.db.daily = false
  | _ => True

structure Inv (lookbackDays : Nat) (s : State) : Prop where
  /-- the days of the backfill are out of the rollup's reach -/
  unreached : ∀ row ∈ s.db.daily, row.source = .backfill →
    row.usageDate < firstRollupDay s.today lookbackDays
  apart : Apart s.db.daily
  phases : ∀ i, PhaseInv lookbackDays s (s.phases i)

/-- What the backfills rely on: the date does not go back, and rollup rows are only added within
reach. -/
structure Later (lookbackDays : Nat) (s s' : State) : Prop where
  today : s.today ≤ s'.today
  rollups : ∀ row ∈ s'.db.daily, row.source = .rollup →
    row ∈ s.db.daily ∨ firstRollupDay s.today lookbackDays ≤ row.usageDate

section Invariant

variable {lookbackDays : Nat} {s s' : State} {i : Nat}

theorem Later.isRecorded {first last : Int} (hlater : Later lookbackDays s s')
    (hlast : last < firstRollupDay s.today lookbackDays)
    (h : isRecorded first last s.db.daily = false) :
    isRecorded first last s'.db.daily = false := by
  rw [isRecorded_eq_false_iff] at h ⊢
  intro row hrow hsource hfirst
  rcases hlater.rollups row hrow hsource with hold | hreach
  · exact h row hold hsource hfirst
  · exact hlast.trans_le hreach

theorem PhaseInv.later {p : Phase} (h : PhaseInv lookbackDays s p)
    (hlater : Later lookbackDays s s') : PhaseInv lookbackDays s' p := by
  have hreach : firstRollupDay s.today lookbackDays ≤ firstRollupDay s'.today lookbackDays :=
    firstRollupDay_mono hlater.today
  cases p with
  | checkingRecorded first last => exact lt_of_lt_of_le h hreach
  | loading first last => exact ⟨h.1.trans_le hreach, hlater.isRecorded h.1 h.2⟩
  | writing lookups day last => exact ⟨h.1.trans_le hreach, hlater.isRecorded h.1 h.2⟩
  | _ => trivial

theorem Inv.later (hinv : Inv lookbackDays s) (hlater : Later lookbackDays s s')
    (hphases : s'.phases = s.phases)
    (hunreached : ∀ row ∈ s'.db.daily, row.source = .backfill →
      row.usageDate < firstRollupDay s'.today lookbackDays)
    (hapart : Apart s'.db.daily) : Inv lookbackDays s' where
  unreached := hunreached
  apart := hapart
  phases i := by
    rw [hphases]
    exact (hinv.phases i).later hlater

/-- A later date is read. -/
theorem Inv.tick {today : Int} (hinv : Inv lookbackDays s) (h : s.today ≤ today) :
    Inv lookbackDays { s with today } :=
  hinv.later ⟨h, fun _ hrow _ => .inl hrow⟩ rfl
    (fun row hrow hsource => (hinv.unreached row hrow hsource).trans_le (firstRollupDay_mono h))
    hinv.apart

/-- A backfill goes on. -/
theorem Inv.set {p : Phase} (hinv : Inv lookbackDays s) (hp : PhaseInv lookbackDays s p) :
    Inv lookbackDays (s.set i p) where
  unreached := hinv.unreached
  apart := hinv.apart
  phases j := by
    show PhaseInv lookbackDays s (Function.update s.phases i p j)
    by_cases hj : j = i
    · rw [hj, Function.update_self]
      exact hp
    · rw [Function.update_of_ne hj]
      exact hinv.phases j

/-- No rollup reaches a day that the backfill has written. -/
theorem Inv.noBackfill {today day : Int} (hinv : Inv lookbackDays s) (htoday : s.today ≤ today)
    (hday : day ∈ rollupDays today lookbackDays) : NoBackfill day s.db.daily := by
  intro row hrow hrowDay
  rcases source_cases row with hsource | hsource
  · have hunreached := hinv.unreached row hrow hsource
    have hreach : firstRollupDay s.today lookbackDays ≤ day :=
      (firstRollupDay_mono htoday).trans (firstRollupDay_le_of_mem hday)
    omega
  · exact hsource

theorem Inv.rollup {today day : Int} {elapsed : Nat} {lockHeld : Bool}
    (hinv : Inv lookbackDays s) (htoday : s.today ≤ today)
    (hday : day ∈ rollupDays today lookbackDays) :
    Inv lookbackDays { s with today, db := rollupDay s.db day elapsed lockHeld } := by
  have hnone := hinv.noBackfill htoday hday
  have hreach : firstRollupDay s.today lookbackDays ≤ day :=
    (firstRollupDay_mono htoday).trans (firstRollupDay_le_of_mem hday)
  have hbackfill : ∀ row ∈ (rollupDay s.db day elapsed lockHeld).daily, row.source = .backfill →
      row ∈ s.db.daily := by
    intro row hrow hsource
    have hmem : row ∈ (rollupDay s.db day elapsed lockHeld).daily.filter isBackfill :=
      List.mem_filter.mpr ⟨hrow, isBackfill_iff.mpr hsource⟩
    rw [filter_isBackfill_rollupDay hnone] at hmem
    exact (List.mem_filter.mp hmem).1
  refine hinv.later ⟨htoday, fun row hrow _ => ?_⟩ rfl ?_ ?_
  · rcases mem_rollupDay hrow with hold | hrowDay
    · exact .inl hold
    · rw [hrowDay]
      exact .inr hreach
  · intro row hrow hsource
    exact (hinv.unreached row (hbackfill row hrow hsource) hsource).trans_le
      (firstRollupDay_mono htoday)
  · intro row hrow hsource row' hrow' hsource'
    have hold := hbackfill row hrow hsource
    rcases mem_rollupDay hrow' with hold' | hrowDay
    · exact hinv.apart row hold hsource row' hold' hsource'
    · have hunreached := hinv.unreached row hold hsource
      omega

/-- A backfill writes the next of its days. -/
theorem Inv.write {lookups : Lookups} {day last : Int} {rows : List NewRow} {elapsed : Nat}
    {lockHeld : Bool} {db : Database} (hinv : Inv lookbackDays s)
    (hphase : s.phases i = .writing lookups day last) (hday : day ≤ last)
    (hrows : ∀ new ∈ rows, new.usageDate = day)
    (h : writeDay s.db day rows elapsed lockHeld = .ok db) :
    Inv lookbackDays ({ s with db }.set i (.writing lookups (day + 1) last)) := by
  have hi := hinv.phases i
  rw [hphase] at hi
  obtain ⟨hlast, hrecorded⟩ := hi
  have hrecorded := isRecorded_eq_false_iff.mp hrecorded
  have hnext : Inv lookbackDays { s with db } := by
    refine hinv.later ⟨le_refl _, fun row hrow hsource => ?_⟩ rfl ?_ ?_
    · rcases mem_writeDay hrows h hrow with hold | ⟨hnew, -⟩
      · exact .inl hold
      · rw [hsource] at hnew
        cases hnew
    · intro row hrow hsource
      rcases mem_writeDay hrows h hrow with hold | ⟨-, hrowDay⟩
      · exact hinv.unreached row hold hsource
      · rw [hrowDay]
        exact hday.trans_lt hlast
    · intro row hrow hsource row' hrow' hsource'
      rcases mem_writeDay hrows h hrow' with hold' | ⟨hnew, -⟩
      · rcases mem_writeDay hrows h hrow with hold | ⟨-, hrowDay⟩
        · exact hinv.apart row hold hsource row' hold' hsource'
        · -- the check found no rollup row on this day
          intro hsame
          have hafter := hrecorded row' hold' hsource' (by omega)
          omega
      · rw [hsource'] at hnew
        cases hnew
  refine hnext.set ?_
  have hwriting := hnext.phases i
  change PhaseInv lookbackDays { s with db } (s.phases i) at hwriting
  rw [hphase] at hwriting
  refine ⟨hwriting.1, isRecorded_eq_false_iff.mpr fun row hrow hsource hfirst => ?_⟩
  exact isRecorded_eq_false_iff.mp hwriting.2 row hrow hsource (by omega)

theorem inv_step {settings : Nat → Settings} (l : Label) (hinv : Inv lookbackDays s)
    (h : step lookbackDays settings s l = some s') : Inv lookbackDays s' := by
  unfold step at h
  cases l with
  | start i today =>
    dsimp only at h
    split at h
    · split at h
      · rename_i htoday
        split at h
        · obtain rfl := Option.some.inj h
          exact (hinv.tick htoday).set trivial
        · obtain rfl := Option.some.inj h
          exact (hinv.tick htoday).set trivial
      · cases h
    · cases h
  | checkReach i today =>
    dsimp only at h
    split at h
    · split at h
      · rename_i htoday
        split at h
        · obtain rfl := Option.some.inj h
          exact (hinv.tick htoday).set trivial
        · rename_i hreach
          obtain rfl := Option.some.inj h
          exact (hinv.tick htoday).set (not_le.mp hreach)
      · cases h
    · cases h
  | checkRecorded i =>
    dsimp only at h
    split at h
    · rename_i first last hphase
      have hi := hinv.phases i
      rw [hphase] at hi
      split at h
      · obtain rfl := Option.some.inj h
        exact hinv.set trivial
      · rename_i hrecorded
        obtain rfl := Option.some.inj h
        exact hinv.set ⟨hi, Bool.not_eq_true _ ▸ hrecorded⟩
    · cases h
  | load i lookups =>
    dsimp only at h
    split at h
    · rename_i first last hphase
      have hi := hinv.phases i
      rw [hphase] at hi
      obtain rfl := Option.some.inj h
      exact hinv.set hi
    · cases h
  | write i results elapsed lockHeld =>
    dsimp only at h
    split at h
    · rename_i lookups day last hphase
      split at h
      · rename_i hday
        split at h
        · obtain rfl := Option.some.inj h
          exact hinv.set trivial
        · rename_i db hwrite
          obtain rfl := Option.some.inj h
          exact hinv.write hphase hday (fun new hnew => usageDate_buildDayRows hnew) hwrite
      · cases h
    · cases h
  | finish i =>
    dsimp only at h
    split at h
    · split at h
      · obtain rfl := Option.some.inj h
        exact hinv.set trivial
      · cases h
    · cases h
  | fail i =>
    dsimp only at h
    split at h
    · cases h
    · cases h
    · obtain rfl := Option.some.inj h
      exact hinv.set trivial
  | undo lockHeld =>
    dsimp only at h
    split at h
    · obtain rfl := Option.some.inj h
      exact hinv
    · rename_i db hundo
      obtain rfl := Option.some.inj h
      have hold : ∀ row ∈ db.daily, row ∈ s.db.daily := by
        intro row hrow
        rw [undo_ok hundo] at hrow
        exact (List.mem_filter.mp hrow).1
      exact hinv.later ⟨le_refl _, fun row hrow _ => .inl (hold row hrow)⟩ rfl
        (fun row hrow => hinv.unreached row (hold row hrow))
        fun row hrow hsource row' hrow' => hinv.apart row (hold row hrow) hsource row'
          (hold row' hrow')
  | rollup today day elapsed lockHeld =>
    dsimp only at h
    split at h
    · rename_i hguard
      obtain rfl := Option.some.inj h
      exact hinv.rollup hguard.1 hguard.2
    · cases h
  | change events catalogue auth =>
    obtain rfl := Option.some.inj h
    exact hinv.later ⟨le_refl _, fun _ hrow _ => .inl hrow⟩ rfl hinv.unreached hinv.apart

end Invariant

/-! ## Generations -/

/-- The rows that a step leaves of the backfill on a day, when it had `rows` before: a write of
the day puts a generation in their place, an undo none. -/
def generationAfter (s s' : State) (day : Int) (rows : List Row) : Label → List Row
  | .write i results elapsed _ =>
    match s.phases i, s'.phases i with
    | .writing lookups written _, .writing .. =>
      if written = day then
        (buildDayRows day results lookups).map (NewRow.row (s.db.clock + 1 + elapsed))
      else rows
    | _, _ => rows
  | .undo false => []
  | _ => rows

section Runs

variable {lookbackDays : Nat} {settings : Nat → Settings} {s s' : State}

/-- The generation that is the last one written for the day, since the last undo. -/
def generation (lookbackDays : Nat) (settings : Nat → Settings) (day : Int) :
    State → List Label → List Row → List Row
  | _, [], rows => rows
  | s, l :: ls, rows =>
    match step lookbackDays settings s l with
    | none => rows
    | some s' => generation lookbackDays settings day s' ls (generationAfter s s' day rows l)

theorem filter_isBackfill_day (day : Int) (daily : List Row) :
    backfillRows day daily = (daily.filter isBackfill).filter fun row => row.usageDate == day := by
  rw [List.filter_filter, backfillRows]
  exact List.filter_congr fun row _ => Bool.and_comm _ _

/-- No day of a consolidation changes a row of the backfill. -/
theorem filter_isBackfill_rollup (hinv : Inv lookbackDays s) {today day : Int} {elapsed : Nat}
    {lockHeld : Bool}
    (h : step lookbackDays settings s (.rollup today day elapsed lockHeld) = some s') :
    s'.db.daily.filter isBackfill = s.db.daily.filter isBackfill := by
  unfold step at h
  dsimp only at h
  split at h
  · rename_i hguard
    obtain rfl := Option.some.inj h
    exact filter_isBackfill_rollupDay (hinv.noBackfill hguard.1 hguard.2)
  · cases h

theorem backfillRows_rollup (hinv : Inv lookbackDays s) {today rolled : Int} {elapsed : Nat}
    {lockHeld : Bool}
    (h : step lookbackDays settings s (.rollup today rolled elapsed lockHeld) = some s')
    (day : Int) : backfillRows day s'.db.daily = backfillRows day s.db.daily := by
  rw [filter_isBackfill_day, filter_isBackfill_rollup hinv h, ← filter_isBackfill_day]

theorem backfillRows_write {i : Nat} {results : QueryKind → List Series} {elapsed : Nat}
    {lockHeld : Bool}
    (h : step lookbackDays settings s (.write i results elapsed lockHeld) = some s')
    (day : Int) :
    backfillRows day s'.db.daily = generationAfter s s' day (backfillRows day s.db.daily)
      (.write i results elapsed lockHeld) := by
  unfold step at h
  dsimp only at h
  cases hphase : s.phases i with
  | writing lookups written last =>
    rw [hphase] at h
    dsimp only at h
    split at h
    · split at h
      · rename_i e hwrite
        obtain rfl := Option.some.inj h
        have hfailed : (s.set i (.failed e)).phases i = .failed e := Function.update_self _ _ _
        rw [generationAfter, hphase, hfailed]
        rfl
      · rename_i db hwrite
        obtain rfl := Option.some.inj h
        have hnext : ({ s with db }.set i (.writing lookups (written + 1) last)).phases i =
            .writing lookups (written + 1) last := Function.update_self _ _ _
        rw [generationAfter, hphase, hnext]
        dsimp only
        split
        · rename_i hday
          subst hday
          exact backfillRows_writeDay (fun new hnew => usageDate_buildDayRows hnew) hwrite
        · rename_i hday
          exact backfillRows_writeDay_of_ne (fun new hnew => usageDate_buildDayRows hnew) hwrite
            (Ne.symm hday)
    · cases h
  | _ =>
    rw [hphase] at h
    cases h

theorem backfillRows_undo {lockHeld : Bool}
    (h : step lookbackDays settings s (.undo lockHeld) = some s') (day : Int) :
    backfillRows day s'.db.daily = generationAfter s s' day (backfillRows day s.db.daily)
      (.undo lockHeld) := by
  cases lockHeld with
  | true =>
    obtain rfl := Option.some.inj h
    rfl
  | false =>
    obtain rfl := Option.some.inj h
    show backfillRows day (s.db.daily.filter fun row => !isBackfill row) = []
    rw [backfillRows, List.filter_eq_nil_iff]
    intro row hrow hbackfill
    have hnot := (List.mem_filter.mp hrow).2
    rw [(Bool.and_eq_true_iff.mp hbackfill).1] at hnot
    cases hnot

/-- The other steps of a backfill write nothing. -/
theorem daily_step {l : Label} (h : step lookbackDays settings s l = some s')
    (hwrite : ∀ i results elapsed lockHeld, l ≠ .write i results elapsed lockHeld)
    (hundo : ∀ lockHeld, l ≠ .undo lockHeld)
    (hrollup : ∀ today day elapsed lockHeld, l ≠ .rollup today day elapsed lockHeld) :
    s'.db.daily = s.db.daily := by
  cases l with
  | write i results elapsed lockHeld => exact absurd rfl (hwrite i results elapsed lockHeld)
  | undo lockHeld => exact absurd rfl (hundo lockHeld)
  | rollup today day elapsed lockHeld => exact absurd rfl (hrollup today day elapsed lockHeld)
  | _ =>
    unfold step at h
    dsimp only at h
    repeat' split at h
    all_goals
      first
        | (obtain rfl := Option.some.inj h; rfl)
        | cases h

theorem backfillRows_step {l : Label} (hinv : Inv lookbackDays s)
    (h : step lookbackDays settings s l = some s') (day : Int) :
    backfillRows day s'.db.daily = generationAfter s s' day (backfillRows day s.db.daily) l := by
  cases l with
  | write i results elapsed lockHeld => exact backfillRows_write h day
  | undo lockHeld => exact backfillRows_undo h day
  | rollup today rolled elapsed lockHeld => exact backfillRows_rollup hinv h day
  | _ => exact congrArg (backfillRows day) (daily_step h (by simp) (by simp) (by simp))

theorem backfillRows_run {ls : List Label} (hinv : Inv lookbackDays s)
    (hrun : Run (step lookbackDays settings) s ls s') (day : Int) :
    backfillRows day s'.db.daily =
      generation lookbackDays settings day s ls (backfillRows day s.db.daily) := by
  induction ls generalizing s with
  | nil =>
    obtain rfl := run_nil_iff.mp hrun
    rfl
  | cons l ls ih =>
    obtain ⟨m, hstep, hrun⟩ := run_cons_iff.mp hrun
    rw [generation, hstep]
    dsimp only
    rw [← backfillRows_step hinv hstep day]
    exact ih (inv_step l hinv hstep) hrun

/-- The database before the first backfill. -/
def start (db : Database) (today : Int) : State := ⟨db, today, fun _ => .idle⟩

/-- In every run of backfills, undos and consolidations no day holds rows of both sources, a
consolidation leaves the rows of the backfill as they are, and a day holds one generation of
them, the last one written. -/
theorem rollup_backfill_apart {db : Database} {today : Int} {ls : List Label}
    (hstart : ∀ row ∈ db.daily, row.source = .rollup)
    (hrun : Run (step lookbackDays settings) (start db today) ls s) :
    Apart s.db.daily ∧
      (∀ today day elapsed lockHeld s',
        step lookbackDays settings s (.rollup today day elapsed lockHeld) = some s' →
        s'.db.daily.filter isBackfill = s.db.daily.filter isBackfill) ∧
      ∀ day, backfillRows day s.db.daily =
        generation lookbackDays settings day (start db today) ls [] := by
  have hnone : ∀ row ∈ db.daily, row.source ≠ .backfill := by
    intro row hrow hsource
    rw [hstart row hrow] at hsource
    cases hsource
  have hinv₀ : Inv lookbackDays (start db today) :=
    { unreached := fun row hrow hsource => absurd hsource (hnone row hrow)
      apart := fun row hrow hsource => absurd hsource (hnone row hrow)
      phases := fun _ => trivial }
  have hinv : Inv lookbackDays s :=
    hrun.invariant (fun _ l _ hinv h => inv_step l hinv h) hinv₀
  refine ⟨hinv.apart, fun today day elapsed lockHeld s' h => filter_isBackfill_rollup hinv h,
    fun day => ?_⟩
  have hempty : backfillRows day (start db today).db.daily = [] := by
    rw [backfillRows, List.filter_eq_nil_iff]
    intro row hrow hbackfill
    exact hnone row hrow (isBackfill_iff.mp (Bool.and_eq_true_iff.mp hbackfill).1)
  rw [backfillRows_run hinv₀ hrun day, hempty]

end Runs

/-! ## A day that is backfilled twice -/

def fifthDay : Nat → Settings := fun _ => ⟨some "http://prometheus", some 5, some 5⟩

def noLookups : Lookups :=
  ⟨fun _ => none, fun _ => none, fun _ => none, fun _ => none, fun _ => none, none, none⟩

/-- Three requests of institution 1. -/
def threeRequests : QueryKind → List Series
  | .requests => [⟨⟨some "1", none, none, none⟩, 3⟩]
  | _ => []

def backfillTwice : List Label :=
  [.start 0 20, .checkReach 0 20, .checkRecorded 0, .load 0 noLookups,
    .write 0 threeRequests 0 false, .finish 0, .rollup 21 18 0 false,
    .start 1 21, .checkReach 1 21, .checkRecorded 1, .load 1 noLookups,
    .write 1 threeRequests 0 false, .finish 1]

theorem rollup_backfill_apart_twice :
    ((final (step 2 fifthDay) (start sampleDatabase 20) backfillTwice).db.daily.map fun row =>
      (row.usageDate, row.source, row.measures.requestCount)) =
        [(0, .rollup, 0), (1, .rollup, 0), (5, .backfill, 3)] ∧
      Apart (final (step 2 fifthDay) (start sampleDatabase 20) backfillTwice).db.daily := by
  refine ⟨by decide +kernel, ?_⟩
  have hrun : Run (step 2 fifthDay) (start sampleDatabase 20) backfillTwice
      (final (step 2 fifthDay) (start sampleDatabase 20) backfillTwice) :=
    run_final (by decide +kernel)
  exact (rollup_backfill_apart (by decide +kernel) hrun).1

end Ai4iCore.Usage
