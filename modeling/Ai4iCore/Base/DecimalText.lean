import Mathlib.Data.List.TakeWhile
import Mathlib.Data.Rat.Defs
import Mathlib.Tactic.Ring

/-!
# Decimals and their texts

A finite decimal number keeps its coefficient and its exponent apart. `toText` writes it with the
point inside its digits, or in scientific notation when the exponent is positive or the number
small (`to-scientific-string` of the general decimal arithmetic); `parse` reads both back.

* `parse_toText` — what is written is read back as the same number, with the same exponent.
-/

/-- `(-1) ^ negative * coefficient * 10 ^ exponent`. -/
structure Decimal where
  negative : Bool
  coefficient : Nat
  exponent : Int
deriving Repr, DecidableEq

namespace Decimal

/-- The number. -/
def value (d : Decimal) : ℚ := (if d.negative then -1 else 1) * d.coefficient * 10 ^ d.exponent

/-! ## Writing -/

/-- The digits with the point behind the first `dotplace` ones. -/
def mantissa (digits : List Char) (dotplace : Int) : List Char :=
  if dotplace ≤ 0 then ['0', '.'] ++ List.replicate (-dotplace).toNat '0' ++ digits
  else if digits.length ≤ dotplace then
    digits ++ List.replicate (dotplace - digits.length).toNat '0'
  else digits.take dotplace.toNat ++ '.' :: digits.drop dotplace.toNat

/-- The exponent, always with a sign. -/
def exponentText (e : Int) : List Char :=
  'E' :: (if e < 0 then '-' else '+') :: Nat.toDigits 10 e.natAbs

/-- `str(d)`. -/
def toText (d : Decimal) : List Char :=
  let digits := Nat.toDigits 10 d.coefficient
  let leftdigits := d.exponent + digits.length
  let dotplace := if d.exponent ≤ 0 ∧ -6 < leftdigits then leftdigits else 1
  (if d.negative then ['-'] else []) ++ mantissa digits dotplace ++
    if leftdigits = dotplace then [] else exponentText (leftdigits - dotplace)

/-! ## Reading -/

/-- A sign and what follows it. -/
def splitSign : List Char → Bool × List Char
  | '-' :: rest => (true, rest)
  | '+' :: rest => (false, rest)
  | rest => (false, rest)

/-- The digits behind the point and what follows them. -/
def splitFraction : List Char → List Char × List Char
  | '.' :: rest => (rest.takeWhile Char.isDigit, rest.dropWhile Char.isDigit)
  | rest => ([], rest)

/-- The exponent, 0 when there is none. -/
def parseExponent : List Char → Option Int
  | [] => some 0
  | c :: rest =>
    let (negative, digits) := splitSign rest
    let e := Nat.ofDigitChars 10 digits 0
    if (c = 'E' ∨ c = 'e') ∧ digits ≠ [] ∧ digits.all Char.isDigit then
      some (if negative then -e else e)
    else none

/-- `int(text)`, for a run of plain digits. -/
def parseNat (text : List Char) : Option Nat :=
  if text ≠ [] ∧ text.all Char.isDigit then some (Nat.ofDigitChars 10 text 0) else none

/-- `Decimal(text)`, for a finite number in plain digits. -/
def parse (text : List Char) : Option Decimal :=
  let (negative, body) := splitSign text
  let whole := body.takeWhile Char.isDigit
  let (fraction, tail) := splitFraction (body.dropWhile Char.isDigit)
  if whole ++ fraction = [] then none
  else (parseExponent tail).map fun e =>
    ⟨negative, Nat.ofDigitChars 10 (whole ++ fraction) 0, e - fraction.length⟩

/-! ## The round trip -/

/-- No digit at the head, so a run of digits before it ends there. -/
def NoDigitHead (text : List Char) : Prop := ∀ c ∈ text.head?, c.isDigit = false

section RoundTrip

variable {digits rest : List Char}

theorem takeWhile_digits (hdigits : ∀ c ∈ digits, c.isDigit = true) (hrest : NoDigitHead rest) :
    (digits ++ rest).takeWhile Char.isDigit = digits := by
  rw [List.takeWhile_append_of_pos hdigits]
  cases rest with
  | nil => exact List.append_nil _
  | cons c rest =>
    rw [List.takeWhile_cons_of_neg (by simp [hrest c rfl]), List.append_nil]

theorem dropWhile_digits (hdigits : ∀ c ∈ digits, c.isDigit = true) (hrest : NoDigitHead rest) :
    (digits ++ rest).dropWhile Char.isDigit = rest := by
  rw [List.dropWhile_append_of_pos hdigits]
  cases rest with
  | nil => rfl
  | cons c rest => exact List.dropWhile_cons_of_neg (by simp [hrest c rfl])

theorem splitSign_digit {c : Char} (hc : c.isDigit = true) :
    splitSign (c :: rest) = (false, c :: rest) := by
  unfold splitSign
  split
  · rename_i heq
    obtain ⟨rfl, -⟩ := List.cons.inj heq
    cases hc
  · rename_i heq
    obtain ⟨rfl, -⟩ := List.cons.inj heq
    cases hc
  · rfl

/-- A point and the digits behind it, when there are any. -/
def pointed (fraction : List Char) : List Char := if fraction = [] then [] else '.' :: fraction

theorem splitFraction_pointed {fraction : List Char} (hfraction : ∀ c ∈ fraction, c.isDigit = true)
    (hrest : NoDigitHead rest) (hpoint : ∀ c ∈ rest.head?, c ≠ '.') :
    splitFraction (pointed fraction ++ rest) = (fraction, rest) := by
  unfold pointed
  split
  · rename_i hnil
    rw [hnil, List.nil_append]
    cases rest with
    | nil => rfl
    | cons c rest =>
      unfold splitFraction
      split
      · rename_i heq
        exact absurd (List.cons.inj heq).1 (hpoint c rfl)
      · rfl
  · show ((fraction ++ rest).takeWhile Char.isDigit, (fraction ++ rest).dropWhile Char.isDigit) = _
    rw [takeWhile_digits hfraction hrest, dropWhile_digits hfraction hrest]

/-- A text is read part by part. -/
theorem parse_parts {c : Char} {whole fraction tail : List Char} (negative : Bool)
    (hwhole : ∀ d ∈ c :: whole, d.isDigit = true) (hfraction : ∀ d ∈ fraction, d.isDigit = true)
    (htail : NoDigitHead tail) (hpoint : ∀ d ∈ tail.head?, d ≠ '.') :
    parse ((if negative then ['-'] else []) ++ (c :: whole) ++ pointed fraction ++ tail) =
      (parseExponent tail).map fun e =>
        ⟨negative, Nat.ofDigitChars 10 (c :: whole ++ fraction) 0, e - fraction.length⟩ := by
  have hsign : splitSign ((if negative then ['-'] else []) ++ (c :: whole) ++ pointed fraction ++
      tail) = (negative, c :: whole ++ (pointed fraction ++ tail)) := by
    cases negative with
    | true => simp [splitSign]
    | false =>
      rw [if_neg Bool.false_ne_true, List.nil_append, List.append_assoc, List.cons_append]
      exact splitSign_digit (hwhole c List.mem_cons_self)
  have hrest : NoDigitHead (pointed fraction ++ tail) := by
    unfold pointed
    split
    · exact htail
    · intro d hd
      obtain rfl := Option.some.inj hd
      rfl
  unfold parse
  rw [hsign]
  dsimp only
  rw [takeWhile_digits hwhole hrest, dropWhile_digits hwhole hrest,
    splitFraction_pointed hfraction htail hpoint]
  exact if_neg (by simp)

theorem all_isDigit_toDigits (n : Nat) : (Nat.toDigits 10 n).all Char.isDigit = true :=
  List.all_eq_true.mpr fun _ hc => Nat.isDigit_of_mem_toDigits (by decide) (by decide) hc

theorem parseNat_toDigits (n : Nat) : parseNat (Nat.toDigits 10 n) = some n := by
  rw [parseNat, if_pos ⟨Nat.toDigits_ne_nil, all_isDigit_toDigits n⟩, Nat.ofDigitChars_ten_toDigits]

theorem parseExponent_exponentText (e : Int) : parseExponent (exponentText e) = some e := by
  have hdigits := all_isDigit_toDigits e.natAbs
  have hread : ∀ negative : Bool, parseExponent ('E' :: (if negative then '-' else '+') ::
      Nat.toDigits 10 e.natAbs) = some (if negative then -(e.natAbs : Int) else e.natAbs) := by
    intro negative
    have hsign : splitSign ((if negative then '-' else '+') :: Nat.toDigits 10 e.natAbs) =
        (negative, Nat.toDigits 10 e.natAbs) := by
      cases negative <;> rfl
    rw [parseExponent, hsign]
    dsimp only
    rw [Nat.ofDigitChars_ten_toDigits]
    exact if_pos ⟨.inl rfl, Nat.toDigits_ne_nil, hdigits⟩
  by_cases hneg : e < 0
  · rw [exponentText, if_pos hneg]
    refine (hread true).trans (congrArg some ?_)
    show -(e.natAbs : Int) = e
    omega
  · rw [exponentText, if_neg hneg]
    refine (hread false).trans (congrArg some ?_)
    show (e.natAbs : Int) = e
    omega

/-- The parts of a mantissa: no point where all digits stand before it. -/
theorem mantissa_parts {dotplace : Int} (hne : digits ≠ []) (hlen : dotplace ≤ digits.length)
    (hdigits : ∀ c ∈ digits, c.isDigit = true) :
    ∃ c whole fraction, mantissa digits dotplace = c :: whole ++ pointed fraction ∧
      (∀ d ∈ c :: whole, d.isDigit = true) ∧ (∀ d ∈ fraction, d.isDigit = true) ∧
      Nat.ofDigitChars 10 (c :: whole ++ fraction) 0 = Nat.ofDigitChars 10 digits 0 ∧
      (fraction.length : Int) = digits.length - dotplace := by
  unfold mantissa
  by_cases hleft : dotplace ≤ 0
  · -- zeros between the point and the digits
    rw [if_pos hleft]
    refine ⟨'0', [], List.replicate (-dotplace).toNat '0' ++ digits, ?_, by simp, ?_, ?_, ?_⟩
    · rw [pointed, if_neg (by simp [hne])]
      simp
    · intro d hd
      obtain hd | hd := List.mem_append.mp hd
      · rw [List.eq_of_mem_replicate hd]
        rfl
      · exact hdigits d hd
    · rw [List.singleton_append, Nat.ofDigitChars_cons, Nat.ofDigitChars_append,
        Nat.ofDigitChars_replicate_zero]
      simp
    · rw [List.length_append, List.length_replicate]
      omega
  · rw [if_neg hleft]
    by_cases hall : digits.length ≤ dotplace
    · obtain rfl := Int.le_antisymm hlen hall
      rw [if_pos (Int.le_refl _), Int.sub_self]
      obtain ⟨c, whole, rfl⟩ := List.exists_cons_of_ne_nil hne
      exact ⟨c, whole, [], rfl, hdigits, by simp, by rw [List.append_nil], by simp⟩
    · rw [if_neg hall]
      have hdrop : digits.drop dotplace.toNat ≠ [] := by
        rw [Ne, List.drop_eq_nil_iff]
        omega
      obtain ⟨c, whole, htake⟩ := List.exists_cons_of_ne_nil
        (show digits.take dotplace.toNat ≠ [] by
          rw [Ne, List.take_eq_nil_iff]
          simp only [hne, or_false]
          omega)
      refine ⟨c, whole, digits.drop dotplace.toNat, ?_, ?_, fun d hd => ?_, ?_, ?_⟩
      · rw [htake, pointed, if_neg hdrop]
      · rw [← htake]
        exact fun d hd => hdigits d (List.mem_of_mem_take hd)
      · exact hdigits d (List.mem_of_mem_drop hd)
      · rw [← htake, List.take_append_drop]
      · rw [List.length_drop]
        omega

/-- **The round trip of a decimal.** -/
theorem parse_toText (d : Decimal) : parse d.toText = some d := by
  obtain ⟨negative, coefficient, exponent⟩ := d
  have hdigits := List.all_eq_true.mp (all_isDigit_toDigits coefficient)
  have hvalue : Nat.ofDigitChars 10 (Nat.toDigits 10 coefficient) 0 = coefficient :=
    Nat.ofDigitChars_ten_toDigits
  have hpos : 0 < (Nat.toDigits 10 coefficient).length := Nat.length_toDigits_pos
  unfold toText
  dsimp only
  generalize Nat.toDigits 10 coefficient = digits at hdigits hvalue hpos
  have hne : digits ≠ [] := List.length_pos_iff.mp hpos
  generalize hplace : (if exponent ≤ 0 ∧ -6 < exponent + digits.length
    then exponent + digits.length else 1 : Int) = dotplace
  have hlen : dotplace ≤ digits.length := by
    split at hplace <;> omega
  obtain ⟨c, whole, fraction, hmantissa, hwhole, hfraction, hcoefficient, hlength⟩ :=
    mantissa_parts hne hlen hdigits
  rw [hmantissa, ← List.append_assoc, hvalue.symm.trans hcoefficient.symm]
  by_cases hplain : exponent + digits.length = dotplace
  · rw [if_pos hplain, parse_parts negative hwhole hfraction (by simp [NoDigitHead]) (by simp)]
    simp only [parseExponent, Option.map_some, Option.some.injEq, Decimal.mk.injEq, true_and]
    omega
  · rw [if_neg hplain, parse_parts negative hwhole hfraction (by simp [NoDigitHead, exponentText])
      (by simp [exponentText]), parseExponent_exponentText]
    simp only [Option.map_some, Option.some.injEq, Decimal.mk.injEq, true_and]
    omega

example : (toText ⟨false, 120, -8⟩, toText ⟨false, 12, -8⟩, toText ⟨true, 250000000, -8⟩) =
    ("0.00000120".toList, "1.2E-7".toList, "-2.50000000".toList) := by decide

end RoundTrip

end Decimal
