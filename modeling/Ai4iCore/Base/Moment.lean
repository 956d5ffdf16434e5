import Ai4iCore.Base.Calendar

/-!
# Moments and their ISO texts

A moment is a day, the time of the day in microseconds and, where it has one, an offset from UTC.
`isoformat` writes it, with the microseconds only where there are any, and `fromIsoformat` reads
what `isoformat` writes (`fromIsoformat_isoformat`). With `milliseconds` the last three digits are
cut off, and the moment that is read is the one at the start of its millisecond
(`fromIsoformat_isoMillis`).
-/

namespace Calendar

abbrev Text := List Char

/-- The microseconds of a day. -/
def dayMicros : Nat := 86400000000

/-- A date and time. -/
@[ext]
structure Moment where
  day : Int
  /-- in microseconds -/
  time : Nat
  /-- from UTC, in microseconds -/
  offset : Option Int
  years : 1 ≤ year day ∧ year day ≤ 9999
  time_lt : time < dayMicros
  offset_lt : ∀ o ∈ offset, o.natAbs < dayMicros
deriving DecidableEq

/-! ## Writing -/

/-- `HH:MM`. -/
def hourMinute (t : Nat) : Text :=
  padded 2 (t / 3600000000) ++ ':' :: padded 2 (t / 60000000 % 60)

/-- `HH:MM:SS`. -/
def clock (t : Nat) : Text := hourMinute t ++ ':' :: padded 2 (t / 1000000 % 60)

/-- The microseconds where there are any. -/
def micros (t : Nat) : Text := if t % 1000000 = 0 then [] else '.' :: padded 6 (t % 1000000)

def millis (t : Nat) : Text := '.' :: padded 3 (t / 1000 % 1000)

/-- An offset, without the seconds where there are none. -/
def offsetText (o : Int) : Text :=
  (if o < 0 then '-' else '+') ::
    if o.natAbs % 60000000 = 0 then hourMinute o.natAbs else clock o.natAbs ++ micros o.natAbs

/-- A text with some fraction of a second. -/
def Moment.text (fraction : Nat → Text) (m : Moment) : Text :=
  isoText m.day ++ 'T' :: (clock m.time ++ fraction m.time ++ (m.offset.map offsetText).getD [])

/-- `moment.isoformat()`. -/
def Moment.isoformat (m : Moment) : Text := m.text micros

/-- `moment.isoformat(timespec="milliseconds")`. -/
def Moment.isoMillis (m : Moment) : Text := m.text millis

/-! ## Reading -/

def two : Text → Option (Nat × Text)
  | a :: b :: rest => if a.isDigit && b.isDigit then some (read [a, b], rest) else none
  | _ => none

def readFraction : Text → Option Nat
  | [] => some 0
  | '.' :: digits =>
    if digits.all Char.isDigit then
      if digits.length = 6 then some (read digits)
      else if digits.length = 3 then some (read digits * 1000) else none
    else none
  | _ => none

def readSeconds : Text → Option Nat
  | [] => some 0
  | ':' :: text => do
    let (s, rest) ← two text
    let fraction ← readFraction rest
    if s < 60 then some (s * 1000000 + fraction) else none
  | _ => none

def readMinutes : Text → Option Nat
  | [] => some 0
  | ':' :: text => do
    let (m, rest) ← two text
    let seconds ← readSeconds rest
    if m < 60 then some (m * 60000000 + seconds) else none
  | _ => none

/-- `HH[:MM[:SS[.fff[fff]]]]`, in microseconds. -/
def readClock (text : Text) : Option Nat := do
  let (h, rest) ← two text
  let minutes ← readMinutes rest
  if h < 24 then some (h * 3600000000 + minutes) else none

def readOffset : Text → Option (Option Int)
  | [] => some none
  | sign :: text => (readClock text).map fun o : Nat => some (if sign = '-' then -(o : Int) else o)

/-- The end of a time is a sign. -/
def isSign (c : Char) : Bool := c = '+' || c = '-'

/-- The time and the offset behind a date. -/
def readTail : Text → Option (Nat × Option Int)
  | [] => some (0, none)
  | _ :: text => do
    let time ← readClock (text.takeWhile (!isSign ·))
    let offset ← readOffset (text.dropWhile (!isSign ·))
    return (time, offset)

/-- A moment with its parts checked. -/
def Moment.make (day : Int) (time : Nat) (offset : Option Int) : Option Moment :=
  if h : (1 ≤ year day ∧ year day ≤ 9999) ∧ time < dayMicros ∧
      ∀ o ∈ offset, o.natAbs < dayMicros then
    some ⟨day, time, offset, h.1, h.2.1, h.2.2⟩
  else none

/-- `datetime.fromisoformat(text)`, on the texts of `isoformat`. -/
def fromIsoformat (text : Text) : Option Moment := do
  let day ← parseIso (text.take 10)
  let (time, offset) ← readTail (text.drop 10)
  Moment.make day time offset

/-! ## Reading what is written -/

theorem two_padded {n : Nat} (h : n < 100) (rest : Text) :
    two (padded 2 n ++ rest) = some (n, rest) := by
  have hread := @read_padded 2 n h
  have hdigits : ∀ c ∈ padded 2 n, c.isDigit = true := fun c hc => isDigit_padded hc
  obtain ⟨a, b, hab⟩ := List.length_eq_two.mp (length_padded 2 n)
  rw [hab] at hread hdigits ⊢
  have ha : a.isDigit = true := hdigits a (by simp)
  have hb : b.isDigit = true := hdigits b (by simp)
  show (if a.isDigit && b.isDigit then some (read [a, b], rest) else none) = _
  rw [ha, hb, hread]
  rfl

theorem readFraction_padded_six {n : Nat} (h : n < 1000000) :
    readFraction ('.' :: padded 6 n) = some n := by
  have hdigits : (padded 6 n).all Char.isDigit = true :=
    List.all_eq_true.mpr fun c hc => isDigit_padded hc
  rw [readFraction, if_pos hdigits, if_pos (length_padded 6 n), read_padded h]

theorem readFraction_padded_three {n : Nat} (h : n < 1000) :
    readFraction ('.' :: padded 3 n) = some (n * 1000) := by
  have hdigits : (padded 3 n).all Char.isDigit = true :=
    List.all_eq_true.mpr fun c hc => isDigit_padded hc
  rw [readFraction, if_pos hdigits, length_padded, if_neg (by decide), if_pos rfl, read_padded h]

theorem readFraction_micros (t : Nat) : readFraction (micros t) = some (t % 1000000) := by
  unfold micros
  split
  · rename_i hzero
    rw [hzero]
    rfl
  · exact readFraction_padded_six (Nat.mod_lt t (by decide))

theorem readFraction_millis (t : Nat) : readFraction (millis t) = some (t / 1000 % 1000 * 1000) :=
  readFraction_padded_three (Nat.mod_lt _ (by decide))

/-- A clock is read with the fraction behind it. -/
theorem readClock_clock {t f : Nat} {fraction : Text} (ht : t < dayMicros)
    (hf : readFraction fraction = some f) :
    readClock (clock t ++ fraction) = some (t / 1000000 * 1000000 + f) := by
  unfold dayMicros at ht
  have hseconds : readSeconds (':' :: (padded 2 (t / 1000000 % 60) ++ fraction)) =
      some (t / 1000000 % 60 * 1000000 + f) := by
    simp only [readSeconds, two_padded (show t / 1000000 % 60 < 100 by omega), hf,
      Option.bind_eq_bind, Option.bind_some,
      if_pos (Nat.mod_lt (t / 1000000) (show 0 < 60 by omega))]
  have hminutes : readMinutes (':' :: (padded 2 (t / 60000000 % 60) ++
      ':' :: (padded 2 (t / 1000000 % 60) ++ fraction))) =
      some (t / 60000000 % 60 * 60000000 + (t / 1000000 % 60 * 1000000 + f)) := by
    simp only [readMinutes, two_padded (show t / 60000000 % 60 < 100 by omega), hseconds,
      Option.bind_eq_bind, Option.bind_some,
      if_pos (Nat.mod_lt (t / 60000000) (show 0 < 60 by omega))]
  have hsplit : clock t ++ fraction = padded 2 (t / 3600000000) ++ ':' ::
      (padded 2 (t / 60000000 % 60) ++ ':' :: (padded 2 (t / 1000000 % 60) ++ fraction)) := by
    simp [clock, hourMinute]
  rw [hsplit, readClock, two_padded (by omega)]
  simp only [Option.bind_eq_bind, Option.bind_some, hminutes]
  rw [if_pos (by omega)]
  refine congrArg some ?_
  omega

theorem readClock_hourMinute {t : Nat} (ht : t < dayMicros) (hwhole : t % 60000000 = 0) :
    readClock (hourMinute t) = some t := by
  unfold dayMicros at ht
  have hminutes : readMinutes (':' :: padded 2 (t / 60000000 % 60)) =
      some (t / 60000000 % 60 * 60000000) := by
    have htwo := two_padded (show t / 60000000 % 60 < 100 by omega) []
    rw [List.append_nil] at htwo
    simp only [readMinutes, htwo, readSeconds, Option.bind_eq_bind, Option.bind_some,
      if_pos (Nat.mod_lt (t / 60000000) (show 0 < 60 by omega)), Nat.add_zero]
  rw [hourMinute, readClock, two_padded (by omega)]
  simp only [Option.bind_eq_bind, Option.bind_some, hminutes]
  rw [if_pos (by omega)]
  refine congrArg some ?_
  omega

theorem readOffset_offsetText {o : Int} (h : o.natAbs < dayMicros) :
    readOffset (offsetText o) = some (some o) := by
  have hclock : readClock (if o.natAbs % 60000000 = 0 then hourMinute o.natAbs
      else clock o.natAbs ++ micros o.natAbs) = some o.natAbs := by
    split
    · rename_i hwhole
      exact readClock_hourMinute h hwhole
    · rw [readClock_clock h (readFraction_micros _)]
      refine congrArg some ?_
      omega
  rw [offsetText, readOffset, hclock, Option.map_some]
  congr 2
  by_cases hneg : o < 0
  · rw [if_pos hneg, if_pos rfl]
    omega
  · rw [if_neg hneg, if_neg (by decide)]
    omega

/-- The characters of a time. -/
def Plain (text : Text) : Prop := ∀ c ∈ text, c.isDigit = true ∨ c = ':' ∨ c = '.'

theorem plain_padded (width n : Nat) : Plain (padded width n) :=
  fun _ hc => .inl (isDigit_padded hc)

theorem plain_append {a b : Text} (ha : Plain a) (hb : Plain b) : Plain (a ++ b) :=
  fun c hc => (List.mem_append.mp hc).elim (ha c) (hb c)

theorem plain_cons {c : Char} {text : Text} (hc : c = ':' ∨ c = '.') (h : Plain text) :
    Plain (c :: text) := by
  intro x hx
  obtain rfl | hx := List.mem_cons.mp hx
  · exact .inr hc
  · exact h x hx

theorem plain_hourMinute (t : Nat) : Plain (hourMinute t) :=
  plain_append (plain_padded _ _) (plain_cons (.inl rfl) (plain_padded _ _))

theorem plain_clock (t : Nat) : Plain (clock t) :=
  plain_append (plain_hourMinute t) (plain_cons (.inl rfl) (plain_padded _ _))

theorem plain_micros (t : Nat) : Plain (micros t) := by
  unfold micros
  split
  · intro c hc
    cases hc
  · exact plain_cons (.inr rfl) (plain_padded _ _)

theorem plain_millis (t : Nat) : Plain (millis t) := plain_cons (.inr rfl) (plain_padded _ _)

theorem not_isSign_of_plain {text : Text} (h : Plain text) {c : Char} (hc : c ∈ text) :
    (!isSign c) = true := by
  obtain hdigit | rfl | rfl := h c hc
  · cases hsign : isSign c with
    | false => rfl
    | true =>
      obtain rfl | rfl : c = '+' ∨ c = '-' := by simpa [isSign] using hsign
      · exact absurd hdigit (by decide)
      · exact absurd hdigit (by decide)
  · rfl
  · rfl

theorem isSign_offsetText (o : Int) : ∃ c rest, offsetText o = c :: rest ∧ isSign c = true := by
  refine ⟨_, _, rfl, ?_⟩
  split <;> rfl

/-- The time ends where the offset starts. -/
theorem readTail_text {time : Text} (htime : Plain time) {t : Nat}
    (hclock : readClock time = some t) {offset : Option Int}
    (hoffset : ∀ o ∈ offset, o.natAbs < dayMicros) :
    readTail ('T' :: (time ++ (offset.map offsetText).getD [])) = some (t, offset) := by
  have hkeep : ∀ c ∈ time, (!isSign c) = true := fun c hc => not_isSign_of_plain htime hc
  rw [readTail, List.takeWhile_append_of_pos hkeep, List.dropWhile_append_of_pos hkeep]
  cases offset with
  | none =>
    show (do
      let time ← readClock (time ++ [])
      let offset ← readOffset []
      return (time, offset)) = _
    rw [List.append_nil, hclock]
    rfl
  | some o =>
    obtain ⟨c, rest, heq, hsign⟩ := isSign_offsetText o
    have hread := readOffset_offsetText (hoffset o rfl)
    show (do
      let time ← readClock (time ++ (offsetText o).takeWhile (!isSign ·))
      let offset ← readOffset ((offsetText o).dropWhile (!isSign ·))
      return (time, offset)) = _
    rw [heq] at hread ⊢
    rw [List.takeWhile_cons_of_neg (by rw [hsign]; decide), List.dropWhile_cons_of_neg (by
      rw [hsign]; decide), List.append_nil, hclock, hread]
    rfl

/-- A moment is read back with the time that its fraction is read as. -/
theorem fromIsoformat_text (m : Moment) {fraction : Nat → Text} (hplain : Plain (fraction m.time))
    {f : Nat} (hf : readFraction (fraction m.time) = some f) :
    fromIsoformat (m.text fraction) =
      Moment.make m.day (m.time / 1000000 * 1000000 + f) m.offset := by
  have hlength := length_isoText m.day
  have htake : (m.text fraction).take 10 = isoText m.day := List.take_left' hlength
  have hdrop : (m.text fraction).drop 10 =
      'T' :: (clock m.time ++ fraction m.time ++ (m.offset.map offsetText).getD []) :=
    List.drop_left' hlength
  rw [fromIsoformat, htake, hdrop, parseIso_isoText m.years.1 m.years.2,
    readTail_text (plain_append (plain_clock _) hplain) (readClock_clock m.time_lt hf) m.offset_lt]
  rfl

/-- **A moment is read back from its text.** -/
theorem fromIsoformat_isoformat (m : Moment) : fromIsoformat m.isoformat = some m := by
  have htime : m.time / 1000000 * 1000000 + m.time % 1000000 = m.time := by omega
  rw [Moment.isoformat, fromIsoformat_text m (plain_micros _) (readFraction_micros _), htime,
    Moment.make, dif_pos ⟨m.years, m.time_lt, m.offset_lt⟩]

/-- The characters of a text. -/
theorem mem_isoformat {m : Moment} {c : Char} (h : c ∈ m.isoformat) :
    c.isDigit = true ∨ c ∈ ['-', 'T', ':', '.', '+'] := by
  have hplain : ∀ {text : Text}, Plain text → c ∈ text →
      c.isDigit = true ∨ c ∈ ['-', 'T', ':', '.', '+'] := by
    intro text htext hc
    obtain hdigit | rfl | rfl := htext c hc
    · exact .inl hdigit
    · exact .inr (by simp)
    · exact .inr (by simp)
  rw [Moment.isoformat, Moment.text, isoText] at h
  simp only [List.mem_append, List.mem_cons] at h
  obtain (h | rfl | h | rfl | h) | rfl | (h | h) | h := h
  · exact .inl (isDigit_padded h)
  · exact .inr (by simp)
  · exact .inl (isDigit_padded h)
  · exact .inr (by simp)
  · exact .inl (isDigit_padded h)
  · exact .inr (by simp)
  · exact hplain (plain_clock _) h
  · exact hplain (plain_micros _) h
  · cases hoffset : m.offset with
    | none =>
      rw [hoffset] at h
      cases h
    | some o =>
      rw [hoffset] at h
      obtain rfl | h := List.mem_cons.mp h
      · split <;> exact .inr (by simp)
      · split at h
        · exact hplain (plain_hourMinute _) h
        · exact hplain (plain_append (plain_clock _) (plain_micros _)) h

theorem isoformat_injective {m m' : Moment} (h : m.isoformat = m'.isoformat) : m = m' := by
  have hread := fromIsoformat_isoformat m
  rw [h, fromIsoformat_isoformat] at hread
  exact (Option.some.inj hread).symm

/-- The start of the millisecond. -/
def Moment.truncate (m : Moment) : Moment where
  day := m.day
  time := m.time / 1000 * 1000
  offset := m.offset
  years := m.years
  time_lt := (Nat.div_mul_le_self _ _).trans_lt m.time_lt
  offset_lt := m.offset_lt

/-- **In milliseconds** the start of the millisecond is read back. -/
theorem fromIsoformat_isoMillis (m : Moment) : fromIsoformat m.isoMillis = some m.truncate := by
  have htime : m.time / 1000000 * 1000000 + m.time / 1000 % 1000 * 1000 = m.time / 1000 * 1000 := by
    omega
  rw [Moment.isoMillis, fromIsoformat_text m (plain_millis _) (readFraction_millis _), htime,
    Moment.make, dif_pos ⟨m.years, m.truncate.time_lt, m.offset_lt⟩]
  rfl

end Calendar
