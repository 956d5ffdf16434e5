import Ai4iCore.Base.Calendar
import Ai4iCore.Usage.Rollup

/-!
# The first usage of a tenant

`get_first_usage_at` (pay_per_use/usage_repository.py): the calendar floor of the Usage Dashboard,
the earliest `created_at` of `quota_usage`. One that lies after the end of the earliest billing
month is taken for a row of a migration, and the start of that month is returned instead.

The reader ends a month at midnight in IST. The consumer derives the month of a row from the time
in UTC, so the months of its rows end five and a half hours later, and a first usage in these hours
is taken for a migrated one (`first_usage_iff`).
-/

namespace Ai4iCore.Usage

namespace FirstUsage

abbrev Text := List Char

/-- The columns of `quota_usage` that are read. `created_at` is in microseconds since 1970. -/
structure QuotaUsage where
  tenantId : String
  billingMonth : Text
  createdAt : Int
  deriving DecidableEq, Repr

inductive DateError
  /-- A `ValueError` of `int` or `datetime`. -/
  | invalid
  /-- The `OverflowError` of `astimezone`. -/
  | overflow
  deriving DecidableEq, Repr

/-! ## The writer -/

/-- `strftime("%Y-%m")` of a year from 1000 on, by its month. -/
def monthText (k : Int) : Text :=
  Calendar.padded 4 (k / 12).toNat ++ '-' :: Calendar.padded 2 (k % 12 + 1).toNat

/-- The month of an instant in UTC. -/
def utcMonth (t : Int) : Int := Calendar.monthOf (t / dayMicros)

/-- `_resolve_billing_month` of the end of a span. -/
def resolveBillingMonth (endTime : Int) : Text := monthText (utcMonth endTime)

/-- A row that the consumer has written for a span: it is created at or after the end of the span,
in the same month. Spans end after 1970, and before the year 10000, where `fromtimestamp` ends. -/
def ConsumerWritten (row : QuotaUsage) : Prop :=
  ∃ endTime : Int, 0 ≤ endTime ∧ utcMonth endTime < 12 * 10000 ∧
    row.billingMonth = resolveBillingMonth endTime ∧ endTime ≤ row.createdAt ∧
      utcMonth row.createdAt = utcMonth endTime

/-! ## The reader -/

/-- `int` of decimal digits. -/
def intOf (text : Text) : Except DateError Nat :=
  if text ≠ [] ∧ text.all Char.isDigit then .ok (Calendar.read text) else .error .invalid

/-- `year, month = (int(p) for p in billing_month.split("-"))`. -/
def parseMonth (text : Text) : Except DateError (Nat × Nat) :=
  match text.dropWhile (· ≠ '-') with
  | '-' :: rest => do
    let year ← intOf (text.takeWhile (· ≠ '-'))
    let month ← intOf rest
    return (year, month)
  | _ => .error .invalid

/-- `shift_billing_month` of a year and a month. -/
def shiftMonth (year month : Nat) (delta : Int) : Int × Int :=
  let total : Int := year * 12 + (month - 1) + delta
  (total / 12, total % 12 + 1)

/-- `datetime(year, month, 1, tzinfo=_IST)`. -/
def istMonthStart (year month : Int) : Except DateError Int :=
  if (1 ≤ year ∧ year ≤ 9999) ∧ 1 ≤ month ∧ month ≤ 12 then
    .ok (dayStart (Calendar.monthStart (12 * year + month - 1)))
  else .error .invalid

/-- `astimezone(timezone.utc)`, from the first instant of year 1 on. -/
def toUtc (t : Int) : Except DateError Int :=
  if -719162 * dayMicros ≤ t then .ok t else .error .overflow

/-- The first `created_at` when it is before the end of the month, else the start of the month. -/
def firstUsageIn (firstCreated : Option Int) (monthStart monthEnd : Int) :
    Except DateError (Option Int) :=
  if firstCreated.any (· < monthEnd) then .ok firstCreated else (toUtc monthStart).map some

/-- The rows of one tenant, or all. -/
def considered (rows : List QuotaUsage) (tenantId : Option String) : List QuotaUsage :=
  rows.filter fun row => tenantId.all fun id => row.tenantId = id

/-- `min(created_at)`. -/
def firstCreated (rows : List QuotaUsage) (tenantId : Option String) : Option Int :=
  ((considered rows tenantId).map QuotaUsage.createdAt).min?

/-- `min(billing_month)`. -/
def firstMonth (rows : List QuotaUsage) (tenantId : Option String) : Option Text :=
  ((considered rows tenantId).map QuotaUsage.billingMonth).min?

/-- `get_first_usage_at`. -/
def getFirstUsageAt (rows : List QuotaUsage) (tenantId : Option String) :
    Except DateError (Option Int) :=
  match firstMonth rows tenantId with
  | none | some [] => .ok (firstCreated rows tenantId)
  | some billingMonth => do
    let (year, month) ← parseMonth billingMonth
    let monthStart ← istMonthStart year month
    let (nextYear, nextMonth) := shiftMonth year month 1
    let monthEnd ← istMonthStart nextYear nextMonth
    firstUsageIn (firstCreated rows tenantId) monthStart monthEnd

/-! ## Texts of months -/

theorem lt_append {xs ys : Text} (hlength : xs.length = ys.length) (h : xs < ys) (xs' ys' : Text) :
    xs ++ xs' < ys ++ ys' := by
  induction xs generalizing ys with
  | nil =>
    cases ys with
    | nil => exact absurd h (lt_irrefl _)
    | cons y ys => cases hlength
  | cons x xs ih =>
    cases ys with
    | nil => cases hlength
    | cons y ys =>
      rw [List.cons_append, List.cons_append, List.cons_lt_cons_iff]
      rcases List.cons_lt_cons_iff.mp h with hlt | ⟨rfl, hlt⟩
      · exact .inl hlt
      · exact .inr ⟨rfl, ih (Nat.succ.inj hlength) hlt⟩

theorem append_lt_append (xs : Text) {ys ys' : Text} (h : ys < ys') : xs ++ ys < xs ++ ys' := by
  induction xs with
  | nil => exact h
  | cons x xs ih => exact List.cons_lt_cons_iff.mpr (.inr ⟨rfl, ih⟩)

theorem digitChar_lt : ∀ d d' : Fin 10, d < d' → Nat.digitChar d < Nat.digitChar d' := by decide

/-- Texts of one width are in the order of their numbers. -/
theorem padded_lt {width n m : Nat} (hlt : n < m) (hm : m < 10 ^ width) :
    Calendar.padded width n < Calendar.padded width m := by
  induction width generalizing n m with
  | zero => omega
  | succ width ih =>
    rw [Calendar.padded, Calendar.padded]
    rcases Nat.lt_or_ge (n / 10) (m / 10) with htens | htens
    · refine lt_append ?_ (ih htens ?_) _ _
      · rw [Calendar.length_padded, Calendar.length_padded]
      · rw [Nat.pow_succ] at hm
        omega
    · obtain heq : n / 10 = m / 10 := by omega
      rw [heq]
      refine append_lt_append _ (List.cons_lt_cons_iff.mpr (.inl ?_))
      exact digitChar_lt ⟨n % 10, Nat.mod_lt n (by decide)⟩ ⟨m % 10, Nat.mod_lt m (by decide)⟩
        (by show n % 10 < m % 10; omega)

/-- Texts of months are in the order of the months. -/
theorem monthText_lt {k k' : Int} (hk : 0 ≤ k) (hlt : k < k') (hk' : k' < 12 * 10000) :
    monthText k < monthText k' := by
  unfold monthText
  rcases lt_or_ge (k / 12) (k' / 12) with hyear | hyear
  · refine lt_append ?_ (padded_lt ?_ ?_) _ _
    · rw [Calendar.length_padded, Calendar.length_padded]
    · omega
    · omega
  · obtain heq : k / 12 = k' / 12 := by omega
    rw [heq]
    refine append_lt_append _ (List.cons_lt_cons_iff.mpr (.inr ⟨rfl, padded_lt ?_ ?_⟩))
    · omega
    · omega

theorem monthText_le {k k' : Int} (hk : 0 ≤ k) (hle : k ≤ k') (hk' : k' < 12 * 10000) :
    monthText k ≤ monthText k' := by
  rcases hle.eq_or_lt with rfl | hlt
  · exact le_refl _
  · exact (monthText_lt hk hlt hk').le

theorem intOf_padded {width n : Nat} (hwidth : 0 < width) (h : n < 10 ^ width) :
    intOf (Calendar.padded width n) = .ok n := by
  have hne : Calendar.padded width n ≠ [] := by
    intro hnil
    have hlength := Calendar.length_padded width n
    rw [hnil] at hlength
    exact absurd hlength hwidth.ne
  rw [intOf, if_pos ⟨hne, List.all_eq_true.mpr fun c hc => Calendar.isDigit_padded hc⟩,
    Calendar.read_padded h]

/-- The text of a month is read back. -/
theorem parseMonth_monthText {k : Int} (hk : 0 ≤ k) (hk' : k < 12 * 10000) :
    parseMonth (monthText k) = .ok ((k / 12).toNat, (k % 12 + 1).toNat) := by
  have hdash : ∀ c ∈ Calendar.padded 4 (k / 12).toNat, decide (c ≠ '-') = true := by
    intro c hc
    refine decide_eq_true ?_
    rintro rfl
    exact absurd (Calendar.isDigit_padded hc) (by decide)
  have htake : (monthText k).takeWhile (· ≠ '-') = Calendar.padded 4 (k / 12).toNat := by
    rw [monthText, List.takeWhile_append_of_pos hdash]
    simp
  have hdrop : (monthText k).dropWhile (· ≠ '-') =
      '-' :: Calendar.padded 2 (k % 12 + 1).toNat := by
    rw [monthText, List.dropWhile_append_of_pos hdash]
    simp
  rw [parseMonth, hdrop, htake]
  simp only [intOf_padded (show 0 < 4 by decide) (show (k / 12).toNat < 10 ^ 4 by omega),
    intOf_padded (show 0 < 2 by decide) (show (k % 12 + 1).toNat < 10 ^ 2 by omega)]
  rfl

/-! ## The first month is the month of the first creation -/

theorem utcMonth_mono {t t' : Int} (h : t ≤ t') : utcMonth t ≤ utcMonth t' := by
  have hday : t / dayMicros ≤ t' / dayMicros := Int.ediv_le_ediv (by decide) h
  have hlow := (Calendar.monthOf_spec (t / dayMicros)).1
  have hhigh := (Calendar.monthOf_spec (t' / dayMicros)).2
  have hlt := Calendar.strictMono_monthStart.lt_iff_lt.mp (hlow.trans_lt (hday.trans_lt hhigh))
  exact Int.le_of_lt_add_one hlt

theorem min?_map {α β : Type} [LinearOrder α] [LinearOrder β] {f : α → β} {xs : List α}
    (hf : ∀ x ∈ xs, ∀ y ∈ xs, x ≤ y → f x ≤ f y) : (xs.map f).min? = xs.min?.map f := by
  cases hmin : xs.min? with
  | none =>
    rw [List.min?_eq_none_iff.mp hmin]
    rfl
  | some m =>
    obtain ⟨hm, hle⟩ := List.min?_eq_some_iff.mp hmin
    refine List.min?_eq_some_iff.mpr ⟨List.mem_map_of_mem hm, fun y hy => ?_⟩
    obtain ⟨x, hx, rfl⟩ := List.mem_map.mp hy
    exact hf m hm x hx (hle x hx)

theorem ConsumerWritten.month {row : QuotaUsage} (h : ConsumerWritten row) :
    row.billingMonth = monthText (utcMonth row.createdAt) ∧ 0 ≤ utcMonth row.createdAt ∧
      utcMonth row.createdAt < 12 * 10000 := by
  obtain ⟨endTime, hend, hyear, hmonth, -, hsame⟩ := h
  have hfirst : utcMonth 0 = 23640 := by decide +kernel
  have hmono := utcMonth_mono hend
  rw [hsame]
  exact ⟨hmonth, by omega, hyear⟩

section Rows

variable {rows : List QuotaUsage} {tenantId : Option String}

theorem firstMonth_eq (h : ∀ row ∈ rows, ConsumerWritten row) :
    firstMonth rows tenantId = (firstCreated rows tenantId).map fun t => monthText (utcMonth t) := by
  have hrows : ∀ row ∈ considered rows tenantId, ConsumerWritten row :=
    fun row hrow => h row (List.mem_of_mem_filter hrow)
  have hmonths : (considered rows tenantId).map QuotaUsage.billingMonth =
      ((considered rows tenantId).map QuotaUsage.createdAt).map fun t => monthText (utcMonth t) := by
    rw [List.map_map]
    exact List.map_congr_left fun row hrow => (hrows row hrow).month.1
  rw [firstMonth, hmonths, firstCreated]
  refine min?_map fun t ht t' ht' hle => ?_
  obtain ⟨row, hrow, rfl⟩ := List.mem_map.mp ht
  obtain ⟨row', hrow', rfl⟩ := List.mem_map.mp ht'
  exact monthText_le (hrows row hrow).month.2.1 (utcMonth_mono hle) (hrows row' hrow').month.2.2

theorem utcMonth_of_firstCreated (h : ∀ row ∈ rows, ConsumerWritten row) {t : Int}
    (ht : firstCreated rows tenantId = some t) : 0 < utcMonth t / 12 ∧ utcMonth t < 12 * 10000 := by
  obtain ⟨row, hrow, rfl⟩ := List.mem_map.mp (List.min?_mem ht)
  obtain ⟨endTime, hend, hyear, -, -, hsame⟩ := h row (List.mem_of_mem_filter hrow)
  have hfirst : utcMonth 0 = 23640 := by decide +kernel
  have hmono := utcMonth_mono hend
  omega

/-- What is returned for a first creation. -/
theorem getFirstUsageAt_eq (h : ∀ row ∈ rows, ConsumerWritten row) {t : Int}
    (ht : firstCreated rows tenantId = some t) :
    getFirstUsageAt rows tenantId =
      if utcMonth t + 1 < 12 * 10000 then
        firstUsageIn (some t) (dayStart (Calendar.monthStart (utcMonth t)))
          (dayStart (Calendar.monthStart (utcMonth t + 1)))
      else .error .invalid := by
  obtain ⟨hyear, hlast⟩ := utcMonth_of_firstCreated h ht
  have hmonth : firstMonth rows tenantId = some (monthText (utcMonth t)) := by
    rw [firstMonth_eq h, ht]
    rfl
  generalize hk : utcMonth t = k at *
  obtain ⟨c, rest, htext⟩ : ∃ c rest, monthText k = c :: rest := ⟨_, _, rfl⟩
  have hstart : istMonthStart ((k / 12).toNat : Int) ((k % 12 + 1).toNat : Int) =
      .ok (dayStart (Calendar.monthStart k)) := by
    rw [istMonthStart, if_pos (by omega)]
    exact congrArg (fun k => Except.ok (dayStart (Calendar.monthStart k))) (by omega)
  have hnext : shiftMonth (k / 12).toNat (k % 12 + 1).toNat 1 = ((k + 1) / 12, (k + 1) % 12 + 1) := by
    have htotal : (((k / 12).toNat : Int) * 12 + (((k % 12 + 1).toNat : Int) - 1) + 1) = k + 1 := by
      omega
    unfold shiftMonth
    dsimp only
    rw [htotal]
  have hstop : istMonthStart ((k + 1) / 12) ((k + 1) % 12 + 1) =
      if k + 1 < 12 * 10000 then .ok (dayStart (Calendar.monthStart (k + 1)))
      else .error .invalid := by
    unfold istMonthStart
    by_cases hlt : k + 1 < 12 * 10000
    · rw [if_pos (by omega), if_pos hlt]
      exact congrArg (fun k => Except.ok (dayStart (Calendar.monthStart k))) (by omega)
    · rw [if_neg (by omega), if_neg hlt]
  have hparse := parseMonth_monthText (k := k) (by omega) hlast
  unfold getFirstUsageAt
  rw [hmonth, ht, htext]
  dsimp only
  rw [← htext, hparse]
  show (istMonthStart _ _ >>= fun monthStart =>
    istMonthStart (shiftMonth _ _ 1).1 (shiftMonth _ _ 1).2 >>= fun monthEnd =>
      firstUsageIn (some t) monthStart monthEnd) = _
  rw [hstart, hnext]
  show (istMonthStart ((k + 1) / 12) ((k + 1) % 12 + 1) >>= fun monthEnd =>
    firstUsageIn (some t) (dayStart (Calendar.monthStart k)) monthEnd) = _
  rw [hstop]
  split
  · rfl
  · rfl

end Rows

/-! ## The last hours of a month -/

/-- The instant is before the end of its month in IST, which is five and a half hours before that
in UTC; after December 9999 there is no month. -/
def BeforeIstEnd (t : Int) : Prop :=
  utcMonth t + 1 < 12 * 10000 ∧ t < dayStart (Calendar.monthStart (utcMonth t + 1))

instance (t : Int) : Decidable (BeforeIstEnd t) := inferInstanceAs (Decidable (_ ∧ _))

/-- **The first usage is returned** exactly when it is not in the last hours of its month. -/
theorem first_usage_iff {rows : List QuotaUsage} (h : ∀ row ∈ rows, ConsumerWritten row)
    (tenantId : Option String) :
    getFirstUsageAt rows tenantId = .ok (firstCreated rows tenantId) ↔
      ∀ t, firstCreated rows tenantId = some t → BeforeIstEnd t := by
  cases hfirst : firstCreated rows tenantId with
  | none =>
    have hmonth : firstMonth rows tenantId = none := by
      rw [firstMonth_eq h, hfirst]
      rfl
    refine ⟨fun _ t ht => absurd ht (by simp), fun _ => ?_⟩
    unfold getFirstUsageAt
    rw [hmonth, hfirst]
  | some t =>
    have hstart : dayStart (Calendar.monthStart (utcMonth t)) < t := by
      have hlow := (Calendar.monthOf_spec (t / dayMicros)).1
      change Calendar.monthStart (utcMonth t) ≤ t / dayMicros at hlow
      unfold dayStart istOffset
      unfold dayMicros at hlow ⊢
      omega
    rw [getFirstUsageAt_eq h hfirst]
    constructor
    · intro hresult t' ht'
      obtain rfl := Option.some.inj ht'
      split at hresult
      · rename_i hnext
        refine ⟨hnext, ?_⟩
        by_contra hlate
        rw [firstUsageIn, Option.any_some, decide_eq_false hlate, if_neg Bool.false_ne_true,
          toUtc] at hresult
        split at hresult
        · have heq := Option.some.inj (Except.ok.inj hresult)
          omega
        · cases hresult
      · cases hresult
    · intro hbefore
      obtain ⟨hnext, hlt⟩ := hbefore t rfl
      rw [if_pos hnext, firstUsageIn, Option.any_some, decide_eq_true hlt, if_pos rfl]

/-- A row that is written at the end of its span. -/
def writtenAt (t : Int) : QuotaUsage where
  tenantId := "1"
  billingMonth := resolveBillingMonth t
  createdAt := t

theorem consumerWritten_writtenAt {t : Int} (h : 0 ≤ t) (h' : utcMonth t < 12 * 10000) :
    ConsumerWritten (writtenAt t) := ⟨t, h, h', rfl, le_refl t, rfl⟩

/-- Noon of 31 January 2026, UTC. -/
def noon : Int := 20484 * dayMicros + 43200000000

/-- Eight in the evening of that day. -/
def evening : Int := 20484 * dayMicros + 72000000000

theorem first_usage_noon :
    getFirstUsageAt [writtenAt evening, writtenAt noon] (some "1") = .ok (some noon) := by
  have hwritten : ∀ row ∈ [writtenAt evening, writtenAt noon], ConsumerWritten row := by
    intro row hrow
    rcases List.mem_cons.mp hrow with rfl | hrow
    · exact consumerWritten_writtenAt (by decide) (by decide +kernel)
    · obtain rfl := List.mem_singleton.mp hrow
      exact consumerWritten_writtenAt (by decide) (by decide +kernel)
  have hfirst : firstCreated [writtenAt evening, writtenAt noon] (some "1") = some noon := by
    decide +kernel
  refine hfirst ▸ (first_usage_iff hwritten (some "1")).mpr fun t ht => ?_
  obtain rfl := Option.some.inj (hfirst ▸ ht)
  decide +kernel

/-- A first usage in the evening: the start of January in IST is returned, which is in December
in UTC. -/
theorem first_usage_evening :
    (∀ row ∈ [writtenAt evening], ConsumerWritten row) ∧
    firstCreated [writtenAt evening] none = some evening ∧
    getFirstUsageAt [writtenAt evening] none = .ok (some (20453 * dayMicros + 66600000000)) ∧
    getFirstUsageAt [writtenAt evening] none ≠ .ok (firstCreated [writtenAt evening] none) := by
  refine ⟨fun row hrow => ?_, by decide +kernel, by decide +kernel, by decide +kernel⟩
  obtain rfl := List.mem_singleton.mp hrow
  exact consumerWritten_writtenAt (by decide) (by decide +kernel)

end FirstUsage

end Ai4iCore.Usage
