import Mathlib

/-!
# The Gregorian calendar

Days are counted from 1 January 1970, months from January of year 0. A year is counted from March
here, so that its leap day comes last: the months before a month have `(153 * m + 2) / 5` days.
The months tile the days (`monthOf_eq_iff`), and a day is read back from its text
(`parseIso_isoText`).
-/

namespace Calendar

/-- The days before 1 March of a year. -/
def yearStart (y : Int) : Int := 365 * y + y / 4 - y / 100 + y / 400

/-- The first day of month `k`. -/
def monthStart (k : Int) : Int :=
  yearStart ((k - 2) / 12) + (153 * ((k - 2) % 12) + 2) / 5 - 719468

/-- The days of an era without those that are too many for years of 365 days. -/
def evenDays (doe : Int) : Int := doe - doe / 1460 + doe / 36524 - doe / 146096

/-- The year of a day of an era of 400 years, from 1 March. -/
def yearOfEra (doe : Int) : Int := evenDays doe / 365

/-- The month of a day. -/
def monthOf (day : Int) : Int :=
  let z := day + 719468
  let era := z / 146097
  let doe := z - era * 146097
  let yoe := yearOfEra doe
  let doy := doe - (365 * yoe + yoe / 4 - yoe / 100)
  12 * (yoe + era * 400) + (5 * doy + 2) / 153 + 2

/-! ## Years -/

theorem yearStart_succ (y : Int) :
    yearStart y + 365 ≤ yearStart (y + 1) ∧ yearStart (y + 1) ≤ yearStart y + 366 := by
  have h400 : (y + 1) / 400 = y / 400 ∨ (y + 1) % 400 = 0 := by omega
  unfold yearStart
  omega

/-- An era has 400 years. -/
theorem yearStart_add_era (y era : Int) : yearStart (y + era * 400) = yearStart y + era * 146097 := by
  unfold yearStart
  omega

theorem yearOfEra_mono {doe doe' : Int} (h : doe ≤ doe') : yearOfEra doe ≤ yearOfEra doe' := by
  have hstep : ∀ d : Int, evenDays d ≤ evenDays (d + 1) := by
    intro d
    unfold evenDays
    omega
  have hmono : evenDays doe ≤ evenDays doe' := monotone_int_of_le_succ hstep h
  exact Int.ediv_le_ediv (by decide) hmono

/-- The formula is right on the first and on the last day of each year. -/
theorem yearOfEra_ends : ∀ y : Fin 400,
    yearOfEra (yearStart y) = y ∧ yearOfEra (yearStart (y + 1) - 1) = y := by
  decide +kernel

theorem yearOfEra_first {y : Int} (h : 0 ≤ y) (h' : y < 400) :
    yearOfEra (yearStart y) = y ∧ yearOfEra (yearStart (y + 1) - 1) = y := by
  have := yearOfEra_ends ⟨y.toNat, by omega⟩
  rwa [Int.toNat_of_nonneg h] at this

/-- **The year of a day** is the one that it lies in. -/
theorem yearOfEra_spec {doe : Int} (h : 0 ≤ doe) (h' : doe < 146097) :
    0 ≤ yearOfEra doe ∧ yearOfEra doe < 400 ∧ yearStart (yearOfEra doe) ≤ doe ∧
      doe < yearStart (yearOfEra doe + 1) := by
  have hlow : 0 ≤ yearOfEra doe := yearOfEra_mono h
  have hhigh : yearOfEra doe ≤ 399 := @yearOfEra_mono doe 146096 (by omega)
  refine ⟨hlow, by omega, ?_, ?_⟩
  · by_contra hlt
    rcases eq_or_lt_of_le hlow with hzero | hpos
    · rw [← hzero] at hlt
      exact hlt h
    · have hbefore := (@yearOfEra_first (yearOfEra doe - 1) (by omega) (by omega)).2
      rw [sub_add_cancel] at hbefore
      have hle := @yearOfEra_mono doe (yearStart (yearOfEra doe) - 1) (by omega)
      omega
  · by_contra hge
    rcases eq_or_lt_of_le hhigh with hlast | hlt
    · rw [hlast] at hge
      have hera : yearStart (399 + 1) = 146097 := by decide
      omega
    · have hafter := (@yearOfEra_first (yearOfEra doe + 1) (by omega) (by omega)).1
      have hle := @yearOfEra_mono (yearStart (yearOfEra doe + 1)) doe (by omega)
      omega

/-! ## Months -/

/-- The first day of month `m` of a year, both counted from March. -/
theorem monthStart_eq {y m : Int} (h : 0 ≤ m) (h' : m < 12) :
    monthStart (12 * y + m + 2) = yearStart y + (153 * m + 2) / 5 - 719468 := by
  have hy : (12 * y + m + 2 - 2) / 12 = y := by omega
  have hm : (12 * y + m + 2 - 2) % 12 = m := by omega
  rw [monthStart, hy, hm]

/-- The first day of the month after it. -/
theorem monthStart_succ_eq {y m : Int} (h : 0 ≤ m) (h' : m < 12) :
    monthStart (12 * y + m + 2 + 1) =
      if m < 11 then yearStart y + (153 * m + 155) / 5 - 719468 else yearStart (y + 1) - 719468 := by
  split
  · have hstart := @monthStart_eq y (m + 1) (by omega) (by omega)
    have hnext : 12 * y + (m + 1) + 2 = 12 * y + m + 2 + 1 := by omega
    rw [hnext] at hstart
    omega
  · obtain rfl : m = 11 := by omega
    have hstart := @monthStart_eq (y + 1) 0 le_rfl (by omega)
    have hnext : 12 * (y + 1) + 0 + 2 = 12 * y + 11 + 2 + 1 := by omega
    rw [hnext] at hstart
    omega

theorem exists_march (k : Int) : ∃ y m, 0 ≤ m ∧ m < 12 ∧ k = 12 * y + m + 2 :=
  ⟨(k - 2) / 12, (k - 2) % 12, by omega, by omega, by omega⟩

theorem monthStart_succ (k : Int) :
    monthStart k < monthStart (k + 1) ∧ monthStart (k + 1) ≤ monthStart k + 31 := by
  obtain ⟨y, m, h, h', rfl⟩ := exists_march k
  have hyear := yearStart_succ y
  rw [monthStart_eq h h', monthStart_succ_eq h h']
  split <;> omega

theorem strictMono_monthStart : StrictMono monthStart :=
  strictMono_int_of_lt_succ fun k => (monthStart_succ k).1

/-- **The month of a day** is the one that it lies in. -/
theorem monthOf_spec (day : Int) :
    monthStart (monthOf day) ≤ day ∧ day < monthStart (monthOf day + 1) := by
  unfold monthOf
  dsimp only
  generalize hera : (day + 719468) / 146097 = era
  generalize hdoe : day + 719468 - era * 146097 = doe
  obtain ⟨hlow, hhigh, hfirst, hlast⟩ := @yearOfEra_spec doe (by omega) (by omega)
  have hyear := yearStart_add_era (yearOfEra doe) era
  have hnext := yearStart_add_era (yearOfEra doe + 1) era
  rw [add_right_comm] at hnext
  have hstart : yearStart (yearOfEra doe) =
      365 * yearOfEra doe + yearOfEra doe / 4 - yearOfEra doe / 100 := by
    unfold yearStart
    omega
  rw [← hstart]
  have hlength := (yearStart_succ (yearOfEra doe)).2
  generalize yearOfEra doe = yoe at *
  generalize hm : (5 * (doe - yearStart yoe) + 2) / 153 = m
  have hm₀ : 0 ≤ m := by omega
  have hm₁ : m < 12 := by omega
  rw [monthStart_eq hm₀ hm₁, monthStart_succ_eq hm₀ hm₁]
  constructor
  · omega
  · split <;> omega

theorem monthOf_eq_iff {day k : Int} :
    monthOf day = k ↔ monthStart k ≤ day ∧ day < monthStart (k + 1) := by
  obtain ⟨hlow, hhigh⟩ := monthOf_spec day
  constructor
  · rintro rfl
    exact ⟨hlow, hhigh⟩
  · rintro ⟨hle, hlt⟩
    have h₁ := strictMono_monthStart.lt_iff_lt.mp (hlow.trans_lt hlt)
    have h₂ := strictMono_monthStart.lt_iff_lt.mp (hle.trans_lt hhigh)
    omega

/-! ## Dates -/

def year (day : Int) : Int := monthOf day / 12

/-- From 1 to 12. -/
def month (day : Int) : Int := monthOf day % 12 + 1

/-- From 1 to 31. -/
def dayOfMonth (day : Int) : Int := day - monthStart (monthOf day) + 1

/-- The day of a date. -/
def ofDate (y m d : Int) : Int := monthStart (12 * y + m - 1) + d - 1

theorem ofDate_date (day : Int) : ofDate (year day) (month day) (dayOfMonth day) = day := by
  have hmonth : 12 * year day + month day - 1 = monthOf day := by
    unfold year month
    omega
  rw [ofDate, hmonth, dayOfMonth]
  omega

theorem month_bounds (day : Int) : 1 ≤ month day ∧ month day ≤ 12 := by
  unfold month
  omega

theorem dayOfMonth_bounds (day : Int) :
    1 ≤ dayOfMonth day ∧ dayOfMonth day ≤ 31 ∧
      ofDate (year day) (month day) (dayOfMonth day) < monthStart (monthOf day + 1) := by
  obtain ⟨hlow, hhigh⟩ := monthOf_spec day
  have hlength := (monthStart_succ (monthOf day)).2
  rw [ofDate_date, dayOfMonth]
  omega

/-- The months of the years `first` to `last` hold the days between their ends. -/
theorem year_bounds {first last day : Int} (h : monthStart (12 * first) ≤ day)
    (h' : day < monthStart (12 * last + 12)) : first ≤ year day ∧ year day ≤ last := by
  obtain ⟨hlow, hhigh⟩ := monthOf_spec day
  have h₁ := strictMono_monthStart.lt_iff_lt.mp (h.trans_lt hhigh)
  have h₂ := strictMono_monthStart.lt_iff_lt.mp (hlow.trans_lt h')
  unfold year
  omega

/-! ## Texts -/

/-- The last `width` decimal digits. -/
def padded : Nat → Nat → List Char
  | 0, _ => []
  | width + 1, n => padded width (n / 10) ++ [Nat.digitChar (n % 10)]

/-- The number of some decimal digits. -/
def read (text : List Char) : Nat := text.foldl (fun n c => 10 * n + (c.toNat - '0'.toNat)) 0

theorem digitChar_lt_ten : ∀ d : Fin 10,
    (Nat.digitChar d).toNat - '0'.toNat = d ∧ (Nat.digitChar d).isDigit = true := by
  decide

theorem length_padded (width n : Nat) : (padded width n).length = width := by
  induction width generalizing n with
  | zero => rfl
  | succ width ih => rw [padded, List.length_append, ih, List.length_singleton]

theorem isDigit_padded {width n : Nat} {c : Char} (h : c ∈ padded width n) : c.isDigit = true := by
  induction width generalizing n with
  | zero => cases h
  | succ width ih =>
    rcases List.mem_append.mp h with h | h
    · exact ih h
    · obtain rfl := List.mem_singleton.mp h
      exact (digitChar_lt_ten ⟨n % 10, Nat.mod_lt n (by decide)⟩).2

theorem read_padded {width n : Nat} (h : n < 10 ^ width) : read (padded width n) = n := by
  induction width generalizing n with
  | zero =>
    obtain rfl : n = 0 := by simpa using h
    rfl
  | succ width ih =>
    have hdigit := (digitChar_lt_ten ⟨n % 10, Nat.mod_lt n (by decide)⟩).1
    have hrest : read (padded width (n / 10)) = n / 10 := by
      refine ih ?_
      rw [Nat.pow_succ] at h
      omega
    rw [padded, read, List.foldl_append]
    show 10 * read (padded width (n / 10)) + ((Nat.digitChar (n % 10)).toNat - '0'.toNat) = n
    rw [hrest, hdigit]
    show 10 * (n / 10) + n % 10 = n
    omega

theorem read_toDigits (n : Nat) : read (Nat.toDigits 10 n) = n := by
  induction n using Nat.strongRecOn with
  | ind n ih =>
    by_cases hsmall : n < 10
    · have hdigit := (digitChar_lt_ten ⟨n, hsmall⟩).1
      rw [Nat.toDigits_of_lt_base hsmall]
      show 10 * 0 + ((Nat.digitChar n).toNat - '0'.toNat) = n
      rw [hdigit]
      exact zero_add n
    · have hdigit := (digitChar_lt_ten ⟨n % 10, Nat.mod_lt n (by decide)⟩).1
      rw [Nat.toDigits_of_base_le (by decide) (by omega), read, List.foldl_append]
      show 10 * read (Nat.toDigits 10 (n / 10)) + ((Nat.digitChar (n % 10)).toNat - '0'.toNat) = n
      rw [ih (n / 10) (by omega), hdigit]
      show 10 * (n / 10) + n % 10 = n
      omega

/-- `date.isoformat()`. -/
def isoText (day : Int) : List Char :=
  padded 4 (year day).toNat ++ '-' :: (padded 2 (month day).toNat ++
    '-' :: padded 2 (dayOfMonth day).toNat)

/-- The day of a text `YYYY-MM-DD`. -/
def parseIso (text : List Char) : Option Int :=
  let y := text.take 4
  let m := (text.drop 5).take 2
  let d := text.drop 8
  if text.length = 10 ∧ text[4]? = some '-' ∧ text[7]? = some '-' ∧
      (y ++ m ++ d).all Char.isDigit then
    if 1 ≤ read y ∧ 1 ≤ read m ∧ read m ≤ 12 ∧ 1 ≤ read d ∧
        ofDate (read y) (read m) (read d) < monthStart (12 * read y + read m) then
      some (ofDate (read y) (read m) (read d))
    else none
  else none

theorem length_isoText (day : Int) : (isoText day).length = 10 := by
  simp [isoText, length_padded]

/-- **A date is read back.** -/
theorem parseIso_isoText {day : Int} (h : 1 ≤ year day) (h' : year day ≤ 9999) :
    parseIso (isoText day) = some day := by
  obtain ⟨hm₁, hm₂⟩ := month_bounds day
  obtain ⟨hd₁, hd₂, hlast⟩ := dayOfMonth_bounds day
  have hmonth : 12 * year day + month day = monthOf day + 1 := by
    unfold year month
    omega
  have hyText : (isoText day).take 4 = padded 4 (year day).toNat :=
    List.take_left' (length_padded 4 _)
  have hrest : (isoText day).drop 5 = padded 2 (month day).toNat ++
      '-' :: padded 2 (dayOfMonth day).toNat := by
    have hsplit : isoText day = (padded 4 (year day).toNat ++ ['-']) ++
        (padded 2 (month day).toNat ++ '-' :: padded 2 (dayOfMonth day).toNat) := by
      simp [isoText]
    rw [hsplit]
    exact List.drop_left' (by simp [length_padded])
  have hmText : ((isoText day).drop 5).take 2 = padded 2 (month day).toNat := by
    rw [hrest]
    exact List.take_left' (length_padded 2 _)
  have hdText : (isoText day).drop 8 = padded 2 (dayOfMonth day).toNat := by
    have hdrop : (isoText day).drop 8 = ((isoText day).drop 5).drop 3 := by rw [List.drop_drop]
    have hsplit : padded 2 (month day).toNat ++ '-' :: padded 2 (dayOfMonth day).toNat =
        (padded 2 (month day).toNat ++ ['-']) ++ padded 2 (dayOfMonth day).toNat := by simp
    rw [hdrop, hrest, hsplit]
    exact List.drop_left' (by simp [length_padded])
  have hdash : (isoText day)[4]? = some '-' := by
    rw [isoText, List.getElem?_append_right (by rw [length_padded]), length_padded]
    rfl
  have hdash' : (isoText day)[7]? = some '-' := by
    have hget : (isoText day)[7]? = ((isoText day).drop 5)[2]? := by rw [List.getElem?_drop]
    rw [hget, hrest, List.getElem?_append_right (by rw [length_padded]), length_padded]
    rfl
  have hy : read (padded 4 (year day).toNat) = (year day).toNat := read_padded (by omega)
  have hm : read (padded 2 (month day).toNat) = (month day).toNat := read_padded (by omega)
  have hd : read (padded 2 (dayOfMonth day).toNat) = (dayOfMonth day).toNat :=
    read_padded (by omega)
  have hcast : ((year day).toNat : Int) = year day ∧ ((month day).toNat : Int) = month day ∧
      ((dayOfMonth day).toNat : Int) = dayOfMonth day := by omega
  have hdigits : (padded 4 (year day).toNat ++ padded 2 (month day).toNat ++
      padded 2 (dayOfMonth day).toNat).all Char.isDigit = true := by
    refine List.all_eq_true.mpr fun c hc => ?_
    rcases List.mem_append.mp hc with hc | hc
    · exact (List.mem_append.mp hc).elim isDigit_padded isDigit_padded
    · exact isDigit_padded hc
  unfold parseIso
  dsimp only
  rw [hyText, hmText, hdText, if_pos ⟨length_isoText day, hdash, hdash', hdigits⟩, hy, hm, hd,
    hcast.1, hcast.2.1, hcast.2.2, hmonth, ofDate_date, if_pos]
  rw [ofDate_date] at hlast
  exact ⟨by omega, by omega, by omega, by omega, hlast⟩

theorem isoText_injective {day day' : Int} (h : 1 ≤ year day ∧ year day ≤ 9999)
    (h' : 1 ≤ year day' ∧ year day' ≤ 9999) (heq : isoText day = isoText day') : day = day' := by
  have hread := parseIso_isoText h.1 h.2
  rw [heq, parseIso_isoText h'.1 h'.2] at hread
  exact (Option.some.inj hread).symm

end Calendar
