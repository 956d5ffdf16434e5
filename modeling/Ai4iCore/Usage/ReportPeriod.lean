import Ai4iCore.Task.Service
import Ai4iCore.Base.Calendar
import Ai4iCore.Base.Digits
import Ai4iCore.Base.Tiling
import Ai4iCore.Usage.Period

/-!
# The periods of the usage report

`services/usage_report/period.py`: a frequency is `monthly` or a duration in minutes, hours, days
or weeks; its periods are calendar months or blocks counted from an IST midnight. Instants are
microseconds since 1970 within the years 1 to 9999, days are counted from 1970-01-01, and every
operation that leaves these years raises.

The zone has kept one offset since 1945. From 1946 on the periods of a frequency tile time
(`report_periods_tile`): they are `block f k` for the integers `k`, the boundaries of which increase.
-/

namespace Ai4iCore.Usage.Reporting

open Ai4iCore.Task (Text strip isSpace)

/-! ## Instants and days -/

inductive ReportError
  /-- `Frequency.parse` refuses the text. -/
  | frequency
  /-- A date, an instant or a duration is out of its range. -/
  | overflow
  | notEnded
  | invalidPeriod (message : String)
  deriving DecidableEq, Repr

def second : Int := 1000000

def minute : Int := 60 * second

def minInstant : Int := -62135596800 * second

def maxInstant : Int := 253402300800 * second - 1

def utc (t : Int) : Except ReportError Int :=
  if minInstant ≤ t ∧ t ≤ maxInstant then .ok t else .error .overflow

/-- From 0001-01-01 to 9999-12-31. -/
def date (day : Int) : Except ReportError Int :=
  if -719162 ≤ day ∧ day ≤ 2932896 then .ok day else .error .overflow

/-- The changes of `Asia/Kolkata`: the instant and the offsets before and after it, in seconds. -/
def changes : List (Int × Int × Int) :=
  [(-3645237208, 21208, 21200), (-3155694800, 21200, 19270), (-2019705670, 19270, 19800),
    (-891581400, 19800, 23400), (-872058600, 23400, 19800), (-862637400, 19800, 23400),
    (-764145000, 23400, 19800)]

/-- `utcoffset` of an instant. -/
def offsetAt (t : Int) : Int :=
  changes.foldl (fun offset c => if c.1 * second ≤ t then c.2.2 * second else offset)
    (21208 * second)

/-- `utcoffset` of a wall time with `fold=0`: a change counts from the later of its two readings. -/
def offsetOfWall (wall : Int) : Int :=
  changes.foldl
    (fun offset c => if (c.1 + max c.2.1 c.2.2) * second ≤ wall then c.2.2 * second else offset)
    (21208 * second)

/-- `_ist`, as the wall time. -/
def ist (t : Int) : Except ReportError Int := utc (t + offsetAt t)

/-- `_ist(t).date()`. -/
def istDate (t : Int) : Except ReportError Int := (ist t).map fun wall => wall / dayMicros

/-- `ist_midnight`. -/
def istMidnight (day : Int) : Except ReportError Int :=
  utc (day * dayMicros - offsetOfWall (day * dayMicros))

/-! ## Frequencies -/

inductive Frequency
  | monthly
  /-- With its length in minutes. -/
  | every (minutes : Nat)
  deriving DecidableEq, Repr

def monthlyText : Text := "monthly".toList

def aliases : List (Text × Text) :=
  [("30min".toList, "30m".toList), ("half-hourly".toList, "30m".toList),
    ("hourly".toList, "1h".toList), ("daily".toList, "1d".toList), ("weekly".toList, "7d".toList),
    ("fortnightly".toList, "14d".toList), ("month".toList, monthlyText)]

/-- Minutes of a unit; `min` counts by its first letter. -/
def unitMinutes : Text → Option Nat
  | ['m'] | ['m', 'i', 'n'] => some 1
  | ['h'] => some 60
  | ['d'] => some 1440
  | ['w'] => some 10080
  | _ => none

/-- A `timedelta` has less than 10⁹ days. -/
def maxMinutes : Nat := 1440 * 10 ^ 9

/-- `str.lower` on the letters that occur in frequencies: one of other scripts, the Kelvin sign,
becomes one of them. -/
def lower (text : Text) : Text :=
  text.map fun c => if c.toNat = 0x212a then 'k' else c.toLower

def isDecimal (c : Char) : Bool := (UnicodeDigits.decimal c).isSome

/-- `Frequency.parse`. -/
def Frequency.parse (value : Text) : Except ReportError Frequency :=
  let raw := lower (strip value)
  let raw := ((aliases.find? fun a => a.1 = raw).map Prod.snd).getD raw
  if raw = monthlyText then .ok .monthly
  else
    let digits := raw.takeWhile isDecimal
    match UnicodeDigits.int digits, unitMinutes ((raw.dropWhile isDecimal).dropWhile isSpace) with
    | some n, some size =>
      if digits = [] then .error .frequency
      else if maxMinutes ≤ n * size then .error .overflow
      else if n * size < 5 then .error .frequency
      else .ok (.every (n * size))
    | _, _ => .error .frequency

/-- `_canonical`: days, hours or minutes, the largest that divides the length. -/
def canonical (minutes : Nat) : Text :=
  if minutes % 1440 = 0 then Nat.toDigits 10 (minutes / 1440) ++ ['d']
  else if minutes % 60 = 0 then Nat.toDigits 10 (minutes / 60) ++ ['h']
  else Nat.toDigits 10 minutes ++ ['m']

def Frequency.name : Frequency → Text
  | .monthly => monthlyText
  | .every minutes => canonical minutes

/-! ## Periods -/

structure ReportPeriod where
  frequency : Text
  start : Int
  stop : Int
  deriving DecidableEq, Repr

/-- `ReportPeriod.days`. -/
def days (frequency : Text) (first last : Int) : Except ReportError ReportPeriod := do
  let freq ← Frequency.parse frequency
  let start ← istMidnight first
  let next ← date (last + 1)
  let stop ← istMidnight next
  return ⟨freq.name, start, stop⟩

/-- `_month_after` of the first day of a month. -/
def monthAfter (year month : Int) : Except ReportError Int :=
  if month = 12 then date (Calendar.ofDate (year + 1) 1 1)
  else date (Calendar.ofDate year (month + 1) 1)

/-- `ReportPeriod.month`. -/
def month (year month : Int) : Except ReportError ReportPeriod := do
  let first ← date (Calendar.ofDate year month 1)
  let after ← monthAfter year month
  days monthlyText first (after - 1)

/-- `ANCHOR`, 2026-01-05. -/
def anchor : Int := 20458

/-- `ReportPeriod.containing` of an instant. -/
def containing (frequency : Text) (instant : Int) : Except ReportError ReportPeriod := do
  match ← Frequency.parse frequency with
  | .monthly =>
    let day ← istDate instant
    month (Calendar.year day) (Calendar.month day)
  | .every minutes =>
    let origin ← istMidnight anchor
    let start ← utc (origin + (instant - origin) / (minutes * minute) * (minutes * minute))
    let stop ← utc (start + minutes * minute)
    return ⟨(Frequency.every minutes).name, start, stop⟩

/-- `first_day`. -/
def firstDay (p : ReportPeriod) : Except ReportError Int := istDate p.start

/-- `last_day`. -/
def lastDay (p : ReportPeriod) : Except ReportError Int := utc (p.stop - 1) >>= istDate

/-- `whole_days`. -/
def wholeDays (p : ReportPeriod) : Except ReportError Bool := do
  let first ← firstDay p
  let start ← istMidnight first
  if p.start = start then
    let last ← lastDay p
    let next ← date (last + 1)
    let stop ← istMidnight next
    return p.stop = stop
  else return false

/-- `previous`. -/
def previous (p : ReportPeriod) : Except ReportError ReportPeriod :=
  if p.frequency = monthlyText then do
    let first ← firstDay p
    let last ← date (first - 1)
    month (Calendar.year last) (Calendar.month last)
  else do
    let start ← utc (p.start - (p.stop - p.start))
    let stop ← utc (p.stop - (p.stop - p.start))
    return ⟨p.frequency, start, stop⟩

/-- `SETTLE`. -/
def settle : Int := 2 * minute

/-- `ReportPeriod.latest_complete`. -/
def latestComplete (frequency : Text) (now : Int) : Except ReportError ReportPeriod := do
  let cutoff ← utc (now - settle)
  let p ← containing frequency cutoff
  if p.stop > cutoff then previous p else return p

/-- `strip` and `date.fromisoformat` of a `String`. -/
def stripString (text : String) : String := String.ofList (strip text.toList)

def fromIsoformat (text : String) : Option Int := Calendar.parseIso text.toList

def isoformat (day : Int) : String := String.ofList (Calendar.isoText day)

/-- `usage_period`. -/
def usagePeriod (p : ReportPeriod) (now : Nat) : Except ReportError UsagePeriod := do
  if ← wholeDays p then
    let first ← firstDay p
    let last ← lastDay p
    match resolvePeriod stripString fromIsoformat now false (some "custom")
        (some (isoformat first)) (some (isoformat last)) with
    | .ok period => return period
    | .error e => .error (.invalidPeriod e.message)
  else if p.stop > now then .error .notEnded
  else
    let first ← firstDay p
    let last ← lastDay p
    return ⟨"today", first, last, p.start, p.stop⟩

/-! ## Keys -/

/-- `%Y`, which the C library does not pad. -/
def yearText (year : Int) : Text :=
  if year < 1000 then Nat.toDigits 10 year.toNat else Calendar.padded 4 year.toNat

/-- `%Y-%m`. -/
def monthText (day : Int) : Text :=
  yearText (Calendar.year day) ++ '-' :: Calendar.padded 2 (Calendar.month day).toNat

/-- `%Y-%m-%d`. -/
def dateText (day : Int) : Text :=
  monthText day ++ '-' :: Calendar.padded 2 (Calendar.dayOfMonth day).toNat

/-- `%H-%M`. -/
def clockText (wall : Int) : Text :=
  Calendar.padded 2 (wall % dayMicros / (60 * minute)).toNat ++
    '-' :: Calendar.padded 2 (wall % (60 * minute) / minute).toNat

/-- `%Y-%m-%dT%H-%M`. -/
def stampText (wall : Int) : Text := dateText (wall / dayMicros) ++ 'T' :: clockText wall

/-- `key`. -/
def key (p : ReportPeriod) : Except ReportError Text := do
  let first ← firstDay p
  let last ← lastDay p
  if p.frequency = monthlyText then return monthText first
  else if ← wholeDays p then
    return if first = last then Calendar.isoText first
      else Calendar.isoText first ++ '_' :: Calendar.isoText last
  else
    let start ← ist p.start
    let stop ← ist p.stop
    return stampText start ++ '_' :: (if first = last then clockText stop else stampText stop)

/-! ## Since 1946 -/

/-- IST midnight of 1 January 1946. -/
def since : Int := dayStart (-8766)

/-- IST midnight of 31 December 9999. -/
def untilEnd : Int := dayStart 2932896

theorem offsetAt_eq {t : Int} (h : since ≤ t) : offsetAt t = istOffset := by
  have hlast : -764145000 * second ≤ t := le_trans (by decide) h
  unfold offsetAt changes
  simp only [List.foldl_cons, List.foldl_nil]
  rw [if_pos hlast]
  rfl

theorem offsetOfWall_eq {wall : Int} (h : -8766 * dayMicros ≤ wall) :
    offsetOfWall wall = istOffset := by
  have hlast : (-764145000 + max 23400 19800) * second ≤ wall := le_trans (by decide) h
  unfold offsetOfWall changes
  simp only [List.foldl_cons, List.foldl_nil]
  rw [if_pos hlast]
  rfl

theorem utc_ok {t : Int} (h : minInstant ≤ t) (h' : t ≤ maxInstant) : utc t = .ok t := if_pos ⟨h, h'⟩

theorem date_ok {day : Int} (h : -719162 ≤ day) (h' : day ≤ 2932896) : date day = .ok day :=
  if_pos ⟨h, h'⟩

theorem ist_ok {t : Int} (h : since ≤ t) (h' : t ≤ untilEnd) : ist t = .ok (t + istOffset) := by
  have hlow : minInstant ≤ since + istOffset := by decide
  have hhigh : untilEnd + istOffset ≤ maxInstant := by decide
  rw [ist, offsetAt_eq h, utc_ok (by omega) (by omega)]

theorem istDate_ok {t : Int} (h : since ≤ t) (h' : t ≤ untilEnd) : istDate t = .ok (istDay t) := by
  rw [istDate, ist_ok h h']
  rfl

theorem istMidnight_ok {day : Int} (h : -8766 ≤ day) (h' : day ≤ 2932896) :
    istMidnight day = .ok (dayStart day) := by
  have hwall : -8766 * dayMicros ≤ day * dayMicros :=
    Int.mul_le_mul_of_nonneg_right h (by decide)
  have hlow : minInstant ≤ dayStart (-8766) := by decide
  have hhigh : dayStart 2932896 ≤ maxInstant := by decide
  rw [istMidnight, offsetOfWall_eq hwall]
  refine utc_ok ?_ ?_ <;> unfold dayStart dayMicros at * <;> omega

/-- The days from 1946 on are those of the instants. -/
theorem istDay_bounds {t : Int} (h : since ≤ t) (h' : t ≤ untilEnd) :
    -8766 ≤ istDay t ∧ istDay t ≤ 2932896 := by
  unfold since untilEnd dayStart at *
  unfold istDay dayMicros at *
  omega

theorem strictMono_dayStart : StrictMono dayStart := by
  intro day day' h
  unfold dayStart dayMicros
  omega

theorem istDay_dayStart (day : Int) : istDay (dayStart day) = day :=
  (window_iff day _).mp ⟨le_rfl, strictMono_dayStart (by omega)⟩

/-! ## Canonical names -/

theorem lower_of_visible {text : Text} (h : ∀ c ∈ text, c.isDigit = true ∨ c ∈ ['d', 'h', 'm']) :
    lower text = text := by
  refine (List.map_congr_left fun c hc => ?_).trans (List.map_id text)
  have hascii : c.toNat ≠ 0x212a ∧ c.toLower = c := by
    rcases h c hc with hdigit | hunit
    · have hvalue : 48 ≤ c.toNat ∧ c.toNat ≤ 57 := by
        simpa [Char.isDigit, Char.le_def, UInt32.le_iff_toNat_le] using hdigit
      refine ⟨by omega, ?_⟩
      rw [Char.toLower, dif_neg]
      rintro ⟨hupper, -⟩
      have hupper : 65 ≤ c.toNat := UInt32.le_iff_toNat_le.mp hupper
      omega
    · simp only [List.mem_cons, List.not_mem_nil, or_false] at hunit
      rcases hunit with rfl | rfl | rfl <;> decide
  rw [if_neg hascii.1, hascii.2]
  rfl

theorem not_isSpace_of_isDigit {c : Char} (h : c.isDigit = true) : isSpace c = false := by
  have hvalue : 48 ≤ c.toNat ∧ c.toNat ≤ 57 := by
    simpa [Char.isDigit, Char.le_def, UInt32.le_iff_toNat_le] using h
  simp [isSpace]
  omega

/-- No old name is a number with a unit. -/
theorem aliases_spec : ∀ a ∈ aliases, a.1.head?.any Char.isDigit = false ∨
    a.1.getLast?.any (fun c => c = 'd' ∨ c = 'h' ∨ c = 'm') = false := by
  decide +kernel

section Canonical

variable {n : Nat} {unit : Char}

theorem raw_spec (hunit : unit ∈ ['d', 'h', 'm']) {c : Char}
    (hc : c ∈ Nat.toDigits 10 n ++ [unit]) : c.isDigit = true ∨ c ∈ ['d', 'h', 'm'] := by
  rcases List.mem_append.mp hc with hc | hc
  · exact .inl (Nat.isDigit_of_mem_toDigits (by decide) (by decide) hc)
  · exact .inr (List.mem_singleton.mp hc ▸ hunit)

theorem strip_raw (hunit : unit ∈ ['d', 'h', 'm']) :
    strip (Nat.toDigits 10 n ++ [unit]) = Nat.toDigits 10 n ++ [unit] := by
  refine Task.strip_eq_self fun c hc => ?_
  rcases raw_spec hunit hc with hdigit | hletter
  · exact not_isSpace_of_isDigit hdigit
  · simp only [List.mem_cons, List.not_mem_nil, or_false] at hletter
    rcases hletter with rfl | rfl | rfl <;> decide

theorem find_raw (hunit : unit ∈ ['d', 'h', 'm']) :
    aliases.find? (fun a => a.1 = Nat.toDigits 10 n ++ [unit]) = none := by
  refine List.find?_eq_none.mpr fun a ha heq => ?_
  have heq : a.1 = Nat.toDigits 10 n ++ [unit] := of_decide_eq_true heq
  rcases aliases_spec a ha with hhead | hlast
  · rw [heq, List.head?_append_of_ne_nil _ Nat.toDigits_ne_nil] at hhead
    cases hdigits : Nat.toDigits 10 n with
    | nil => exact Nat.toDigits_ne_nil hdigits
    | cons c rest =>
      have hmem : c ∈ Nat.toDigits 10 n := hdigits ▸ List.mem_cons_self
      have hc : c.isDigit = true := Nat.isDigit_of_mem_toDigits (by decide) (by decide) hmem
      rw [hdigits, List.head?_cons, Option.any_some, hc] at hhead
      cases hhead
  · rw [heq, List.getLast?_concat, Option.any_some] at hlast
    simp only [List.mem_cons, List.not_mem_nil, or_false] at hunit
    simp [hunit] at hlast

theorem raw_ne_monthly (hunit : unit ∈ ['d', 'h', 'm']) :
    Nat.toDigits 10 n ++ [unit] ≠ monthlyText := by
  intro heq
  have hlast := congrArg List.getLast? heq
  rw [List.getLast?_concat] at hlast
  obtain rfl : unit = 'y' := Option.some.inj hlast
  revert hunit
  decide

theorem isDecimal_toDigits {c : Char} (hc : c ∈ Nat.toDigits 10 n) : isDecimal c = true :=
  UnicodeDigits.decimal_of_isDigit (Nat.isDigit_of_mem_toDigits (by decide) (by decide) hc)

/-- A number with a unit is read as it is written. -/
theorem parse_raw {size : Nat} (hunit : unit ∈ ['d', 'h', 'm'])
    (hsize : unitMinutes [unit] = some size) (hpos : 0 < size) (hmin : 5 ≤ n * size)
    (hmax : n * size < maxMinutes) :
    Frequency.parse (Nat.toDigits 10 n ++ [unit]) = .ok (.every (n * size)) := by
  have hunit' : isDecimal unit = false ∧ isSpace unit = false := by
    simp only [List.mem_cons, List.not_mem_nil, or_false] at hunit
    rcases hunit with rfl | rfl | rfl <;> decide +kernel
  have htake : (Nat.toDigits 10 n ++ [unit]).takeWhile isDecimal = Nat.toDigits 10 n := by
    rw [List.takeWhile_append_of_pos fun c hc => isDecimal_toDigits hc,
      List.takeWhile_cons_of_neg (by simp [hunit'.1]), List.append_nil]
  have hdrop : ((Nat.toDigits 10 n ++ [unit]).dropWhile isDecimal).dropWhile isSpace = [unit] := by
    rw [List.dropWhile_append_of_pos fun c hc => isDecimal_toDigits hc,
      List.dropWhile_cons_of_neg (by simp [hunit'.1]),
      List.dropWhile_cons_of_neg (by simp [hunit'.2])]
  have hint : UnicodeDigits.int (Nat.toDigits 10 n) = some n := by
    refine UnicodeDigits.int_toDigits (lt_of_le_of_lt ?_ (lt_of_lt_of_le hmax ?_))
    · exact Nat.le_mul_of_pos_right n hpos
    · exact le_trans (by decide : maxMinutes ≤ 10 ^ 13) (Nat.pow_le_pow_right (by decide) (by decide))
  unfold Frequency.parse
  dsimp only
  rw [strip_raw hunit, lower_of_visible fun c hc => raw_spec hunit hc, find_raw hunit]
  simp only [Option.map_none, Option.getD_none]
  rw [if_neg (raw_ne_monthly hunit)]
  simp only [htake, hdrop, hint, hsize]
  rw [if_neg Nat.toDigits_ne_nil, if_neg (by omega), if_neg (by omega)]

end Canonical

/-- What `parse` returns. -/
theorem parse_spec {value : Text} {minutes : Nat}
    (h : Frequency.parse value = .ok (.every minutes)) : 5 ≤ minutes ∧ minutes < maxMinutes := by
  unfold Frequency.parse at h
  dsimp only at h
  split at h
  · cases h
  · split at h
    · split at h
      · cases h
      · split at h
        · cases h
        · split at h
          · cases h
          · cases h
            omega
    · cases h

/-- **A canonical name is read as its frequency.** -/
theorem parse_name {value : Text} {f : Frequency} (h : Frequency.parse value = .ok f) :
    Frequency.parse f.name = .ok f := by
  cases f with
  | monthly => decide +kernel
  | every minutes =>
    obtain ⟨hmin, hmax⟩ := parse_spec h
    unfold Frequency.name canonical
    dsimp only
    split
    · have hlength : minutes / 1440 * 1440 = minutes := by omega
      rw [parse_raw (by decide) rfl (by decide) (by omega) (by omega), hlength]
    · split
      · have hlength : minutes / 60 * 60 = minutes := by omega
        rw [parse_raw (by decide) rfl (by decide) (by omega) (by omega), hlength]
      · rw [parse_raw (by decide) rfl (by decide) (by omega) (by omega), mul_one]

theorem name_ne_monthly (minutes : Nat) : (Frequency.every minutes).name ≠ monthlyText := by
  unfold Frequency.name canonical
  dsimp only
  split
  · exact raw_ne_monthly (by decide)
  · split
    · exact raw_ne_monthly (by decide)
    · exact raw_ne_monthly (by decide)

/-! ## Tiles -/

open Tiling (Holds)

/-- Where block `k` of a frequency starts; months are counted from January of year 0. -/
def bound : Frequency → Int → Int
  | .monthly => dayStart ∘ Calendar.monthStart
  | .every minutes => fun k => dayStart anchor + k * (minutes * minute)

def block (f : Frequency) (k : Int) : ReportPeriod := ⟨f.name, bound f k, bound f (k + 1)⟩

/-- Between 1 January 1946 and 31 December 9999. -/
def InRange (f : Frequency) (k : Int) : Prop := since ≤ bound f k ∧ bound f (k + 1) ≤ untilEnd

section Blocks

variable {value : Text} {f : Frequency} {k k' t : Int}

theorem length_pos {minutes : Nat} (h : 5 ≤ minutes) : (0 : Int) < minutes * minute := by
  unfold minute second
  omega

theorem strictMono_bound (hparse : Frequency.parse value = .ok f) : StrictMono (bound f) := by
  cases f with
  | monthly => exact strictMono_dayStart.comp Calendar.strictMono_monthStart
  | every minutes => exact Tiling.strictMono_uniform _ (length_pos (parse_spec hparse).1)

/-- The month of the IST day of an instant. -/
theorem holds_month (t : Int) :
    Holds (bound .monthly) (Calendar.monthOf (istDay t)) t := by
  have hday : Holds dayStart (istDay t) t := (window_iff _ t).mpr rfl
  exact @Holds.comp dayStart Calendar.monthStart _ _ t strictMono_dayStart hday
    (Calendar.monthOf_spec _)

/-- Every instant is in a block. -/
theorem exists_holds (hparse : Frequency.parse value = .ok f) (t : Int) :
    ∃ k, Holds (bound f) k t := by
  cases f with
  | monthly => exact ⟨_, holds_month t⟩
  | every minutes => exact ⟨_, Tiling.holds_uniform _ t (length_pos (parse_spec hparse).1)⟩

theorem InRange.instant (hrange : InRange f k) (hholds : Holds (bound f) k t) :
    since ≤ t ∧ t ≤ untilEnd :=
  ⟨hrange.1.trans hholds.1, (hholds.2.le).trans hrange.2⟩

theorem days_ok {frequency : Text} {first last : Int} (hparse : Frequency.parse frequency = .ok f)
    (hfirst : -8766 ≤ first) (hle : first ≤ last) (hlast : last + 1 ≤ 2932896) :
    days frequency first last = .ok ⟨f.name, dayStart first, dayStart (last + 1)⟩ := by
  rw [days, hparse, Checked.ok_bind, istMidnight_ok hfirst (by omega), Checked.ok_bind,
    date_ok (by omega) hlast, Checked.ok_bind, istMidnight_ok (by omega) hlast]
  rfl

theorem InRange.days (hrange : InRange .monthly k) :
    -8766 ≤ Calendar.monthStart k ∧ Calendar.monthStart (k + 1) ≤ 2932896 :=
  ⟨strictMono_dayStart.le_iff_le.mp hrange.1, strictMono_dayStart.le_iff_le.mp hrange.2⟩

/-- A month of the calendar is a block. -/
theorem month_ok {y m : Int} (hk : 12 * y + m - 1 = k)
    (hrange : InRange .monthly k) : month y m = .ok (block .monthly k) := by
  obtain ⟨hlow, hhigh⟩ := hrange.days
  have hlt := (Calendar.monthStart_succ k).1
  have hfirst : Calendar.ofDate y m 1 = Calendar.monthStart k := by
    rw [Calendar.ofDate, hk]
    omega
  have hafter : monthAfter y m = .ok (Calendar.monthStart (k + 1)) := by
    have hnext : (if m = 12 then Calendar.ofDate (y + 1) 1 1 else Calendar.ofDate y (m + 1) 1) =
        Calendar.monthStart (k + 1) := by
      unfold Calendar.ofDate
      split
      · have hindex : 12 * (y + 1) + 1 - 1 = k + 1 := by omega
        rw [hindex]
        omega
      · have hindex : 12 * y + (m + 1) - 1 = k + 1 := by omega
        rw [hindex]
        omega
    rw [monthAfter, ← apply_ite date, hnext, date_ok (by omega) hhigh]
  have hname : Frequency.parse monthlyText = .ok .monthly := by decide +kernel
  rw [month, hfirst, date_ok (by omega) (by omega), Checked.ok_bind, hafter, Checked.ok_bind,
    days_ok hname hlow (by omega) (by omega), sub_add_cancel]
  rfl

/-- A block of minutes is within the range of `datetime`. -/
theorem utc_bound (hrange : InRange f k) (hlt : bound f k < bound f (k + 1)) :
    utc (bound f k) = .ok (bound f k) ∧ utc (bound f (k + 1)) = .ok (bound f (k + 1)) := by
  have hlow : minInstant ≤ since := by decide
  have hhigh : untilEnd ≤ maxInstant := by decide
  obtain ⟨h, h'⟩ := hrange
  exact ⟨utc_ok (by omega) (by omega), utc_ok (by omega) (by omega)⟩

/-- **The period of an instant** is the block that holds it. -/
theorem containing_ok (hparse : Frequency.parse value = .ok f) (hrange : InRange f k)
    (hholds : Holds (bound f) k t) : containing value t = .ok (block f k) := by
  have hmono := strictMono_bound hparse
  obtain ⟨hlow, hhigh⟩ := hrange.instant hholds
  rw [containing, hparse, Checked.ok_bind]
  cases f with
  | monthly =>
    have hmonth : Calendar.monthOf (istDay t) = k := (holds_month t).unique hmono hholds
    dsimp only
    rw [istDate_ok hlow hhigh, Checked.ok_bind]
    refine month_ok ?_ hrange
    rw [← hmonth]
    unfold Calendar.year Calendar.month
    omega
  | every minutes =>
    have hindex : (t - dayStart anchor) / (minutes * minute) = k :=
      (Tiling.holds_uniform _ t (length_pos (parse_spec hparse).1)).unique hmono hholds
    have hutc := utc_bound hrange (hmono (by omega))
    have hnext : dayStart anchor + k * (minutes * minute) + minutes * minute =
        bound (.every minutes) (k + 1) := by
      show _ = dayStart anchor + (k + 1) * (minutes * minute)
      ring
    dsimp only
    rw [istMidnight_ok (by decide) (by decide), Checked.ok_bind, hindex]
    show (utc (bound (.every minutes) k) >>= _) = _
    rw [hutc.1, Checked.ok_bind]
    show (utc (dayStart anchor + k * (minutes * minute) + minutes * minute) >>= _) = _
    rw [hnext, hutc.2]
    rfl

/-- **The period before a block** is the block before it. -/
theorem previous_ok (hparse : Frequency.parse value = .ok f) (hrange : InRange f k)
    (hbefore : InRange f (k - 1)) : previous (block f k) = .ok (block f (k - 1)) := by
  have hmono := strictMono_bound hparse
  cases f with
  | monthly =>
    have hday : istDate (bound .monthly k) = .ok (Calendar.monthStart k) := by
      have hlt : bound .monthly k < bound .monthly (k + 1) := hmono (by omega)
      rw [istDate_ok hrange.1 (hlt.le.trans hrange.2)]
      exact congrArg _ (istDay_dayStart _)
    have hlast : Calendar.monthOf (Calendar.monthStart k - 1) = k - 1 := by
      have hstep := (Calendar.monthStart_succ (k - 1)).1
      rw [sub_add_cancel] at hstep
      rw [Calendar.monthOf_eq_iff, sub_add_cancel]
      omega
    obtain ⟨hlow, -⟩ := hbefore.days
    obtain ⟨-, hhigh⟩ := hrange.days
    have hlt := (Calendar.monthStart_succ k).1
    have hlt' := (Calendar.monthStart_succ (k - 1)).1
    rw [sub_add_cancel] at hlt'
    have hname : (block .monthly k).frequency = monthlyText := rfl
    rw [previous, if_pos hname]
    show (istDate (bound .monthly k) >>= _) = _
    rw [hday, Checked.ok_bind, date_ok (by omega) (by omega), Checked.ok_bind]
    refine month_ok ?_ hbefore
    rw [← hlast]
    unfold Calendar.year Calendar.month
    omega
  | every minutes =>
    have hutc := utc_bound hbefore (hmono (by omega))
    rw [sub_add_cancel] at hutc
    have hstart : bound (.every minutes) k -
        (bound (.every minutes) (k + 1) - bound (.every minutes) k) =
          bound (.every minutes) (k - 1) := by
      show dayStart anchor + k * (minutes * minute) - (dayStart anchor +
        (k + 1) * (minutes * minute) - (dayStart anchor + k * (minutes * minute))) =
          dayStart anchor + (k - 1) * (minutes * minute)
      ring
    have hname : (block (.every minutes) k).frequency ≠ monthlyText := name_ne_monthly minutes
    rw [previous, if_neg hname]
    show (utc (bound (.every minutes) k -
      (bound (.every minutes) (k + 1) - bound (.every minutes) k)) >>= _) = _
    rw [hstart, hutc.1, Checked.ok_bind]
    show (utc (bound (.every minutes) (k + 1) -
      (bound (.every minutes) (k + 1) - bound (.every minutes) k)) >>= _) = _
    rw [sub_sub_cancel, hutc.2, Checked.ok_bind, block, block, sub_add_cancel]
    rfl

/-- `n` times `previous`. -/
def before (p : ReportPeriod) : Nat → Except ReportError ReportPeriod
  | 0 => .ok p
  | n + 1 => before p n >>= previous

theorem InRange.between {n : Nat} (hmono : StrictMono (bound f)) (hrange : InRange f k)
    (hbefore : InRange f (k - n)) {m : Nat} (hm : m ≤ n) : InRange f (k - m) :=
  ⟨hbefore.1.trans (hmono.monotone (by omega)), (hmono.monotone (by omega)).trans hrange.2⟩

/-- **Going back** from a block. -/
theorem before_ok (hparse : Frequency.parse value = .ok f) {n : Nat} (hrange : InRange f k)
    (hbefore : InRange f (k - n)) : before (block f k) n = .ok (block f (k - n)) := by
  have hmono := strictMono_bound hparse
  induction n with
  | zero =>
    rw [before, Nat.cast_zero, sub_zero]
  | succ n ih =>
    have hn : InRange f (k - n) := hrange.between hmono hbefore (Nat.le_succ n)
    have hindex : k - ((n + 1 : Nat) : Int) = k - n - 1 := by
      push_cast
      ring
    rw [hindex] at hbefore ⊢
    rw [before, ih hn, Checked.ok_bind, previous_ok hparse hn hbefore]

/-- **The latest complete period** is the one before the block of the cutoff. -/
theorem latestComplete_ok (hparse : Frequency.parse value = .ok f) (hrange : InRange f k)
    (hnext : InRange f (k + 1)) (hholds : Holds (bound f) (k + 1) (t - settle)) :
    latestComplete value t = .ok (block f k) := by
  obtain ⟨hlow, hhigh⟩ := hnext.instant hholds
  have hmin : minInstant ≤ since := by decide
  have hmax : untilEnd ≤ maxInstant := by decide
  have hprevious : previous (block f (k + 1)) = .ok (block f k) := by
    have hback := previous_ok hparse hnext (by rwa [add_sub_cancel_right])
    rwa [add_sub_cancel_right] at hback
  rw [latestComplete, utc_ok (by omega) (by omega), Checked.ok_bind,
    containing_ok hparse hnext hholds, Checked.ok_bind]
  have hnot : (block f (k + 1)).stop > t - settle := hholds.2
  rw [if_pos hnot, hprevious]

/-! ## The dashboard's period -/

theorem istDay_mono {t t' : Int} (h : t ≤ t') : istDay t ≤ istDay t' := by
  unfold istDay dayMicros
  omega

/-- The days of a period since 1946. -/
theorem days_of_range {p : ReportPeriod} (hlow : since ≤ p.start) (hlt : p.start < p.stop)
    (hhigh : p.stop ≤ untilEnd) :
    firstDay p = .ok (istDay p.start) ∧ lastDay p = .ok (istDay (p.stop - 1)) := by
  have hmin : minInstant ≤ since := by decide
  have hmax : untilEnd ≤ maxInstant := by decide
  refine ⟨istDate_ok hlow (by omega), ?_⟩
  rw [lastDay, utc_ok (by omega) (by omega), Checked.ok_bind, istDate_ok (by omega) (by omega)]

/-- From a midnight to a midnight. -/
def IsWholeDays (p : ReportPeriod) : Prop :=
  p.start = dayStart (istDay p.start) ∧ p.stop = dayStart (istDay (p.stop - 1) + 1)

instance (p : ReportPeriod) : Decidable (IsWholeDays p) :=
  inferInstanceAs (Decidable (_ ∧ _))

/-- `whole_days` since 1946. -/
theorem wholeDays_of_range {p : ReportPeriod} (hlow : since ≤ p.start) (hlt : p.start < p.stop)
    (hhigh : p.stop ≤ untilEnd) :
    wholeDays p = .ok (decide (IsWholeDays p)) := by
  obtain ⟨hfirst, hlast⟩ := days_of_range hlow hlt hhigh
  have hbounds := istDay_bounds hlow (hlt.le.trans hhigh)
  have hbounds' := @istDay_bounds (p.stop - 1) (by omega) (by omega)
  have hnext : istDay (p.stop - 1) + 1 ≤ 2932896 := by
    have hend : istDay (p.stop - 1) < istDay untilEnd + 1 := by
      have := @istDay_mono (p.stop - 1) untilEnd (by omega)
      omega
    have hday : p.stop - 1 < dayStart 2932896 := by
      unfold untilEnd at hhigh
      omega
    have hheld := (window_iff (istDay (p.stop - 1)) (p.stop - 1)).mpr rfl
    have := strictMono_dayStart.lt_iff_lt.mp (hheld.1.trans_lt hday)
    omega
  rw [wholeDays, hfirst, Checked.ok_bind, istMidnight_ok hbounds.1 hbounds.2, Checked.ok_bind]
  split
  · rename_i hstart
    rw [hlast, Checked.ok_bind, date_ok (by omega) hnext, Checked.ok_bind,
      istMidnight_ok (by omega) hnext, Checked.ok_bind]
    refine congrArg Except.ok (decide_eq_decide.mpr ?_)
    exact ⟨fun hstop => ⟨hstart, hstop⟩, And.right⟩
  · rename_i hstart
    exact congrArg Except.ok (decide_eq_false fun h => hstart h.1).symm

theorem year_of_bounds {day : Int} (h : -8766 ≤ day) (h' : day ≤ 2932896) :
    1946 ≤ Calendar.year day ∧ Calendar.year day ≤ 9999 := by
  have hlow : Calendar.monthStart (12 * 1946) = -8766 := by decide +kernel
  have hhigh : Calendar.monthStart (12 * 9999 + 12) = 2932897 := by decide +kernel
  exact Calendar.year_bounds (by omega) (by omega)

/-- A date's text has no blanks. -/
theorem strip_isoText (day : Int) : strip (Calendar.isoText day) = Calendar.isoText day := by
  have hdash : isSpace '-' = false := by decide
  refine Task.strip_eq_self fun c hc => ?_
  have hpadded : ∀ {width n : Nat}, c ∈ Calendar.padded width n → isSpace c = false :=
    fun hmem => not_isSpace_of_isDigit (Calendar.isDigit_padded hmem)
  unfold Calendar.isoText at hc
  simp only [List.mem_append, List.mem_cons] at hc
  rcases hc with hc | rfl | hc | rfl | hc
  · exact hpadded hc
  · exact hdash
  · exact hpadded hc
  · exact hdash
  · exact hpadded hc

theorem parseDate_isoformat {name : String} {day : Int} (h : -8766 ≤ day) (h' : day ≤ 2932896) :
    parseDate stripString fromIsoformat name (isoformat day) = .ok day := by
  obtain ⟨hlow, hhigh⟩ := year_of_bounds h h'
  have hread : fromIsoformat (stripString (isoformat day)) = some day := by
    rw [fromIsoformat, stripString, isoformat, String.toList_ofList, String.toList_ofList,
      strip_isoText, Calendar.parseIso_isoText (by omega) hhigh]
  rw [parseDate, hread]

/-- A custom range of past days keeps its days. -/
theorem resolvePeriod_custom {first last : Int} {now : Nat} {u : UsagePeriod}
    (hfirst : -8766 ≤ first) (hle : first ≤ last) (hlast : last ≤ 2932896)
    (h : resolvePeriod stripString fromIsoformat now false (some "custom") (some (isoformat first))
      (some (isoformat last)) = .ok u) :
    u.start = dayStart first ∧ u.stop = dayStart (last + 1) := by
  have hkey : stripString (((some "custom" : Option String).filter (· ≠ "")).getD "today") =
      "custom" := by decide +kernel
  unfold resolvePeriod at h
  dsimp only at h
  rw [hkey, if_neg (by decide), if_neg (by decide)] at h
  unfold resolveCustom at h
  dsimp only at h
  rw [parseDate_isoformat hfirst (by omega), Checked.ok_bind, parseDate_isoformat (by omega) hlast,
    Checked.ok_bind] at h
  split at h
  · cases h
  split at h
  · cases h
  rename_i hpast
  split at h
  · cases h
  split at h
  · cases h
  obtain rfl := Except.ok.inj h
  have hne : last ≠ istDay now := by
    intro heq
    simp [heq] at hpast
  rw [if_neg hne]
  exact ⟨rfl, rfl⟩

/-- **The dashboard's period has the same bounds.** -/
theorem usagePeriod_bounds {p : ReportPeriod} {now : Nat} {u : UsagePeriod} (hlow : since ≤ p.start)
    (hlt : p.start < p.stop) (hhigh : p.stop ≤ untilEnd) (h : usagePeriod p now = .ok u) :
    u.start = p.start ∧ u.stop = p.stop := by
  obtain ⟨hfirst, hlast⟩ := days_of_range hlow hlt hhigh
  rw [usagePeriod, wholeDays_of_range hlow hlt hhigh, Checked.ok_bind] at h
  split at h
  · rename_i hwhole
    obtain ⟨hstart, hstop⟩ := of_decide_eq_true hwhole
    rw [hfirst, Checked.ok_bind, hlast, Checked.ok_bind] at h
    split at h
    · rename_i u' hu
      obtain rfl := Except.ok.inj h
      have hbounds := istDay_bounds hlow (hlt.le.trans hhigh)
      have hbounds' := @istDay_bounds (p.stop - 1) (by omega) (by omega)
      have hle : istDay p.start ≤ istDay (p.stop - 1) := istDay_mono (by omega)
      rw [hstart, hstop]
      exact resolvePeriod_custom hbounds.1 hle hbounds'.2 hu
    · cases h
  · split at h
    · cases h
    · rw [hfirst, Checked.ok_bind, hlast, Checked.ok_bind] at h
      obtain rfl := Except.ok.inj h
      exact ⟨rfl, rfl⟩

/-! ## Keys tell periods apart -/

theorem yearText_eq {y : Int} (h : 1946 ≤ y) : yearText y = Calendar.padded 4 y.toNat :=
  if_neg (by omega)

/-- The months of a text. -/
theorem monthText_injective {day day' : Int} (h : -8766 ≤ day ∧ day ≤ 2932896)
    (h' : -8766 ≤ day' ∧ day' ≤ 2932896) (heq : monthText day = monthText day') :
    Calendar.monthOf day = Calendar.monthOf day' := by
  obtain ⟨hlow, hhigh⟩ := year_of_bounds h.1 h.2
  obtain ⟨hlow', hhigh'⟩ := year_of_bounds h'.1 h'.2
  obtain ⟨hm, hm₁⟩ := Calendar.month_bounds day
  obtain ⟨hm', hm₁'⟩ := Calendar.month_bounds day'
  rw [monthText, monthText, yearText_eq hlow, yearText_eq hlow'] at heq
  obtain ⟨hyear, hrest⟩ := List.append_inj heq (by rw [Calendar.length_padded, Calendar.length_padded])
  have hyear := congrArg Calendar.read hyear
  have hmonth := congrArg Calendar.read (List.cons.inj hrest).2
  rw [Calendar.read_padded (by omega), Calendar.read_padded (by omega)] at hyear hmonth
  unfold Calendar.year at hyear
  unfold Calendar.month at hmonth
  unfold Calendar.year at hlow hlow'
  omega

theorem dateText_eq {day : Int} (h : -8766 ≤ day ∧ day ≤ 2932896) :
    dateText day = Calendar.isoText day := by
  rw [dateText, monthText, yearText_eq (year_of_bounds h.1 h.2).1, Calendar.isoText,
    List.append_assoc]
  rfl

theorem isoText_inj {day day' : Int} (h : -8766 ≤ day ∧ day ≤ 2932896)
    (h' : -8766 ≤ day' ∧ day' ≤ 2932896)
    (heq : Calendar.isoText day = Calendar.isoText day') : day = day' := by
  obtain ⟨hlow, hhigh⟩ := year_of_bounds h.1 h.2
  obtain ⟨hlow', hhigh'⟩ := year_of_bounds h'.1 h'.2
  exact Calendar.isoText_injective ⟨by omega, hhigh⟩ ⟨by omega, hhigh'⟩ heq

theorem length_clockText (wall : Int) : (clockText wall).length = 5 := by
  simp [clockText, Calendar.length_padded]

theorem length_stampText {wall : Int}
    (h : -8766 ≤ wall / dayMicros ∧ wall / dayMicros ≤ 2932896) : (stampText wall).length = 16 := by
  rw [stampText, dateText_eq h, List.length_append, Calendar.length_isoText, List.length_cons,
    length_clockText]

/-- A clock text tells the minutes of a day. -/
theorem clockText_injective {wall wall' : Int} (h : minute ∣ wall) (h' : minute ∣ wall')
    (heq : clockText wall = clockText wall') : wall % dayMicros = wall' % dayMicros := by
  unfold clockText at heq
  obtain ⟨hhour, hrest⟩ := List.append_inj heq (by rw [Calendar.length_padded, Calendar.length_padded])
  have hhour := congrArg Calendar.read hhour
  have hminute := congrArg Calendar.read (List.cons.inj hrest).2
  unfold minute second at *
  unfold dayMicros at *
  rw [Calendar.read_padded (by omega), Calendar.read_padded (by omega)] at hhour hminute
  omega

theorem stampText_injective {wall wall' : Int} (h : minute ∣ wall) (h' : minute ∣ wall')
    (hday : -8766 ≤ wall / dayMicros ∧ wall / dayMicros ≤ 2932896)
    (hday' : -8766 ≤ wall' / dayMicros ∧ wall' / dayMicros ≤ 2932896)
    (heq : stampText wall = stampText wall') : wall = wall' := by
  unfold stampText at heq
  rw [dateText_eq hday, dateText_eq hday'] at heq
  obtain ⟨hdate, hclock⟩ :=
    List.append_inj heq (by rw [Calendar.length_isoText, Calendar.length_isoText])
  have hdate := isoText_inj hday hday' hdate
  have hclock := clockText_injective h h' (List.cons.inj hclock).2
  unfold dayMicros at *
  omega

/-- What a key starts with. -/
theorem key_of_range {p : ReportPeriod} {text : Text} (hlow : since ≤ p.start)
    (hlt : p.start < p.stop) (hhigh : p.stop ≤ untilEnd) (h : key p = .ok text) :
    if p.frequency = monthlyText then text = monthText (istDay p.start)
    else if IsWholeDays p then
      ∃ rest, text = Calendar.isoText (istDay p.start) ++ rest
    else ∃ rest, text = stampText (p.start + istOffset) ++ rest := by
  obtain ⟨hfirst, hlast⟩ := days_of_range hlow hlt hhigh
  rw [key, hfirst, Checked.ok_bind, hlast, Checked.ok_bind] at h
  split at h
  · rename_i hname
    rw [if_pos hname]
    exact (Except.ok.inj h).symm
  · rename_i hname
    rw [if_neg hname]
    rw [wholeDays_of_range hlow hlt hhigh, Checked.ok_bind] at h
    split at h
    · rename_i hwhole
      rw [if_pos (of_decide_eq_true hwhole)]
      obtain rfl := Except.ok.inj h
      split
      · exact ⟨[], (List.append_nil _).symm⟩
      · exact ⟨_, rfl⟩
    · rename_i hwhole
      rw [if_neg fun hboth => hwhole (decide_eq_true hboth)]
      rw [ist_ok hlow (by omega), Checked.ok_bind, ist_ok (by omega) hhigh, Checked.ok_bind] at h
      obtain rfl := Except.ok.inj h
      exact ⟨_, rfl⟩

/-- Blocks of minutes start at whole minutes, also of the wall clock. -/
theorem minute_dvd_bound (minutes : Nat) (k : Int) :
    minute ∣ bound (.every minutes) k + istOffset := by
  have hanchor : minute ∣ dayStart anchor + istOffset := by decide
  have hblocks : minute ∣ k * (minutes * minute) := Dvd.intro_left _ (mul_assoc k minutes minute)
  have := dvd_add hanchor hblocks
  rwa [add_right_comm] at this

/-- The blocks of a frequency are whole days all or none. -/
theorem isWholeDays_iff {minutes : Nat} (hmin : 5 ≤ minutes) (k : Int) :
    IsWholeDays (block (.every minutes) k) ↔ 1440 ∣ minutes := by
  have hlength := length_pos hmin
  have hstep : bound (.every minutes) (k + 1) = bound (.every minutes) k + minutes * minute := by
    show dayStart anchor + (k + 1) * (minutes * minute) =
      dayStart anchor + k * (minutes * minute) + minutes * minute
    ring
  unfold IsWholeDays block
  dsimp only
  constructor
  · rintro ⟨hstart, hstop⟩
    rw [hstep] at hstop
    generalize istDay (bound (.every minutes) k + minutes * minute - 1) = last at *
    generalize istDay (bound (.every minutes) k) = first at *
    rw [hstart] at hstop
    unfold dayStart dayMicros minute second at hstop
    omega
  · rintro ⟨count, rfl⟩
    have hday : ∀ j : Int, bound (.every (1440 * count)) j = dayStart (anchor + j * count) := by
      intro j
      show dayStart anchor + j * ((1440 * count : Nat) * minute) = dayStart (anchor + j * count)
      unfold dayStart dayMicros minute second
      push_cast
      ring
    have hlast : ∀ day, istDay (dayStart day - 1) = day - 1 := by
      intro day
      refine (window_iff _ _).mp ⟨?_, ?_⟩ <;> unfold dayStart dayMicros <;> omega
    rw [hday, hday, istDay_dayStart, hlast, sub_add_cancel]
    exact ⟨rfl, rfl⟩

/-- **Keys are different** for the blocks of a frequency. -/
theorem key_injective (hparse : Frequency.parse value = .ok f) (hrange : InRange f k)
    (hrange' : InRange f k') {text : Text} (h : key (block f k) = .ok text)
    (h' : key (block f k') = .ok text) : k = k' := by
  have hmono := strictMono_bound hparse
  have hlt : bound f k < bound f (k + 1) := hmono (by omega)
  have hlt' : bound f k' < bound f (k' + 1) := hmono (by omega)
  have hday := istDay_bounds hrange.1 (hlt.le.trans hrange.2)
  have hday' := istDay_bounds hrange'.1 (hlt'.le.trans hrange'.2)
  have htext := key_of_range hrange.1 hlt hrange.2 h
  have htext' := key_of_range hrange'.1 hlt' hrange'.2 h'
  refine hmono.injective ?_
  cases f with
  | monthly =>
    have hname : (block .monthly k).frequency = monthlyText := rfl
    have hname' : (block .monthly k').frequency = monthlyText := rfl
    rw [if_pos hname] at htext
    rw [if_pos hname'] at htext'
    have hmonths := monthText_injective hday hday' (htext.symm.trans htext')
    have hk := (holds_month (bound .monthly k)).unique hmono (Tiling.holds_start hmono k)
    have hk' := (holds_month (bound .monthly k')).unique hmono (Tiling.holds_start hmono k')
    rw [← hk, ← hk', hmonths]
  | every minutes =>
    have hmin := (parse_spec hparse).1
    have hname : (block (.every minutes) k).frequency ≠ monthlyText := name_ne_monthly minutes
    have hname' : (block (.every minutes) k').frequency ≠ monthlyText := name_ne_monthly minutes
    rw [if_neg hname] at htext
    rw [if_neg hname'] at htext'
    have hwhole := isWholeDays_iff hmin k
    have hwhole' := isWholeDays_iff hmin k'
    by_cases hdays : 1440 ∣ minutes
    · rw [if_pos (hwhole.mpr hdays)] at htext
      rw [if_pos (hwhole'.mpr hdays)] at htext'
      obtain ⟨rest, rfl⟩ := htext
      obtain ⟨rest', heq⟩ := htext'
      have hiso := (List.append_inj heq (by
        rw [Calendar.length_isoText, Calendar.length_isoText])).1
      have hfirst := isoText_inj hday hday' hiso
      exact (hwhole.mpr hdays).1.trans (hfirst ▸ (hwhole'.mpr hdays).1.symm)
    · rw [if_neg fun hboth => hdays (hwhole.mp hboth)] at htext
      rw [if_neg fun hboth => hdays (hwhole'.mp hboth)] at htext'
      obtain ⟨rest, rfl⟩ := htext
      obtain ⟨rest', heq⟩ := htext'
      have hstamp := (List.append_inj heq
        ((length_stampText hday).trans (length_stampText hday').symm)).1
      have hwall := stampText_injective (minute_dvd_bound minutes k) (minute_dvd_bound minutes k')
        hday hday' hstamp
      exact add_right_cancel hwall

/-- **Report periods tile time** from 1946 to 9999: the period of an instant is the block that holds
it, going back from a block gives exactly the blocks of the earlier instants, one after the other,
the latest complete period is the only one that ends with the cutoff and is followed by one that
does not, the dashboard's period has the same bounds, and keys are different. -/
theorem report_periods_tile (hparse : Frequency.parse value = .ok f) :
    Frequency.parse f.name = .ok f ∧
      (∀ t, ∃ k, Holds (bound f) k t ∧ ∀ k', Holds (bound f) k' t → k' = k) ∧
      (∀ k t, InRange f k → Holds (bound f) k t →
        containing value t = .ok (block f k) ∧ (block f k).start ≤ t ∧ t < (block f k).stop) ∧
      (∀ k (n : Nat), InRange f k → InRange f (k - n) →
        before (block f k) n = .ok (block f (k - n)) ∧
          containing value (bound f (k - n)) = .ok (block f (k - n)) ∧
          (block f (k - n - 1)).stop = (block f (k - n)).start) ∧
      (∀ k k' t t', InRange f k → InRange f k' → Holds (bound f) k t → Holds (bound f) k' t' →
        t' ≤ t → ∃ n, before (block f k) n = containing value t') ∧
      (∀ k now, InRange f k → InRange f (k + 1) → (block f k).stop ≤ now - settle →
        now - settle < (block f (k + 1)).stop → latestComplete value now = .ok (block f k) ∧
          ∀ k', (block f k').stop ≤ now - settle → now - settle < (block f (k' + 1)).stop →
            k' = k) ∧
      (∀ k now u, InRange f k → usagePeriod (block f k) now = .ok u →
        u.start = (block f k).start ∧ u.stop = (block f k).stop) ∧
      ∀ k k' text, InRange f k → InRange f k' → key (block f k) = .ok text →
        key (block f k') = .ok text → k = k' := by
  have hmono := strictMono_bound hparse
  refine ⟨parse_name hparse, ?_, ?_, ?_, ?_, ?_, ?_, ?_⟩
  · intro t
    obtain ⟨k, hk⟩ := exists_holds hparse t
    exact ⟨k, hk, fun k' hk' => hk'.unique hmono hk⟩
  · intro k t hrange hholds
    exact ⟨containing_ok hparse hrange hholds, hholds⟩
  · intro k n hrange hbefore
    refine ⟨before_ok hparse hrange hbefore,
      containing_ok hparse hbefore (Tiling.holds_start hmono _), ?_⟩
    show bound f (k - n - 1 + 1) = bound f (k - n)
    rw [sub_add_cancel]
  · intro k k' t t' hrange hrange' hholds hholds' hle
    have hk : k' ≤ k := hholds'.le hmono hholds hle
    obtain ⟨n, hn⟩ := Int.le.dest hk
    obtain rfl : k' = k - n := by omega
    exact ⟨n, (before_ok hparse hrange hrange').trans (containing_ok hparse hrange' hholds').symm⟩
  · intro k now hrange hnext hstop hlt
    refine ⟨latestComplete_ok hparse hrange hnext ⟨hstop, hlt⟩, fun k' hstop' hlt' => ?_⟩
    have hheld : Holds (bound f) (k' + 1) (now - settle) := ⟨hstop', hlt'⟩
    have := hheld.unique hmono ⟨hstop, hlt⟩
    omega
  · intro k now u hrange hu
    exact usagePeriod_bounds hrange.1 (hmono (by omega)) hrange.2 hu
  · intro k k' text hrange hrange' h h'
    exact key_injective hparse hrange hrange' h h'

/-- Daily periods around their anchor. -/
theorem report_periods_tile_daily :
    Frequency.parse " Daily".toList = .ok (.every 1440) ∧
      containing " Daily".toList (dayStart anchor + 5) = .ok (block (.every 1440) 0) ∧
      (block (.every 1440) (-1)).stop = (block (.every 1440) 0).start := by
  have hparse : Frequency.parse " Daily".toList = .ok (.every 1440) := by decide +kernel
  have hrange : InRange (.every 1440) 0 := by
    unfold InRange
    decide +kernel
  have hholds : Holds (bound (.every 1440)) 0 (dayStart anchor + 5) := by
    unfold Tiling.Holds
    decide +kernel
  obtain ⟨-, -, hcontaining, hback, -⟩ := report_periods_tile hparse
  exact ⟨hparse, (hcontaining 0 _ hrange hholds).1, (hback 0 0 hrange hrange).2.2⟩

/-- A period of 9999999 days does not fit into the years of `datetime`, and when the clocks went
back in 1945 two periods of half an hour got one key. -/
theorem report_periods_out_of_range :
    Frequency.parse "9999999d".toList = .ok (.every 14399998560) ∧
      containing "9999999d".toList (dayStart anchor) = .error .overflow ∧
      containing "30m".toList (-764148600 * second) =
        .ok ⟨"30m".toList, -764148600 * second, -764146800 * second⟩ ∧
      containing "30m".toList (-764145000 * second) =
        .ok ⟨"30m".toList, -764145000 * second, -764143200 * second⟩ ∧
      key ⟨"30m".toList, -764148600 * second, -764146800 * second⟩ =
        .ok "1945-10-14T23-00_23-30".toList ∧
      key ⟨"30m".toList, -764145000 * second, -764143200 * second⟩ =
        .ok "1945-10-14T23-00_23-30".toList := by
  decide +kernel

end Blocks

end Ai4iCore.Usage.Reporting
