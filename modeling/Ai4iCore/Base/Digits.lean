import Mathlib

/-!
# Digits of any script

`str.isdigit` and `int` differ on what a digit is: the former also takes digits without a place
value, such as superscripts, which the latter refuses. The tables are those of Unicode 14.
-/

namespace UnicodeDigits

/-- The zeros of the decimal digits; the other nine follow each. -/
def zeros : List Nat :=
  [0x30, 0x660, 0x6f0, 0x7c0, 0x966, 0x9e6, 0xa66, 0xae6, 0xb66, 0xbe6, 0xc66, 0xce6, 0xd66, 0xde6,
    0xe50, 0xed0, 0xf20, 0x1040, 0x1090, 0x17e0, 0x1810, 0x1946, 0x19d0, 0x1a80, 0x1a90, 0x1b50,
    0x1bb0, 0x1c40, 0x1c50, 0xa620, 0xa8d0, 0xa900, 0xa9d0, 0xa9f0, 0xaa50, 0xabf0, 0xff10, 0x104a0,
    0x10d30, 0x11066, 0x110f0, 0x11136, 0x111d0, 0x112f0, 0x11450, 0x114d0, 0x11650, 0x116c0,
    0x11730, 0x118e0, 0x11950, 0x11c50, 0x11d50, 0x11da0, 0x16a60, 0x16ac0, 0x16b50, 0x1d7ce,
    0x1d7d8, 0x1d7e2, 0x1d7ec, 0x1d7f6, 0x1e140, 0x1e2f0, 0x1e950, 0x1fbf0]

/-- The digits that are no decimal digits, first and last of each range. -/
def others : List (Nat × Nat) :=
  [(0xb2, 0xb3), (0xb9, 0xb9), (0x1369, 0x1371), (0x19da, 0x19da), (0x2070, 0x2070),
    (0x2074, 0x2079), (0x2080, 0x2089), (0x2460, 0x2468), (0x2474, 0x247c), (0x2488, 0x2490),
    (0x24ea, 0x24ea), (0x24f5, 0x24fd), (0x24ff, 0x24ff), (0x2776, 0x277e), (0x2780, 0x2788),
    (0x278a, 0x2792), (0x10a40, 0x10a43), (0x10e60, 0x10e68), (0x11052, 0x1105a),
    (0x1f100, 0x1f10a)]

/-- The value of a decimal digit. -/
def decimal (c : Char) : Option Nat :=
  (zeros.find? fun first => first ≤ c.toNat && c.toNat < first + 10).map fun first => c.toNat - first

/-- `text.isdigit()`. -/
def isDigit (text : List Char) : Bool :=
  text ≠ [] && text.all fun c =>
    (decimal c).isSome || others.any fun range => range.1 ≤ c.toNat && c.toNat ≤ range.2

/-- `sys.int_info.default_max_str_digits`. -/
def maxStrDigits : Nat := 4300

/-- `int(text)` of a text of digits: `none` when it raises, which it does at a digit without a place
value and beyond 4300 digits. -/
def int (text : List Char) : Option Nat :=
  if text.length ≤ maxStrDigits then
    (text.mapM decimal).map fun digits => digits.foldl (fun n digit => 10 * n + digit) 0
  else none

/-! ## ASCII digits -/

theorem decimal_digitChar : ∀ d : Fin 10, decimal (Nat.digitChar d) = some (d : Nat) := by
  decide +kernel

theorem mapM_decimal_toDigits (n : Nat) : ∃ digits, (Nat.toDigits 10 n).mapM decimal = some digits ∧
    digits.foldl (fun n digit => 10 * n + digit) 0 = n := by
  induction n using Nat.strongRecOn with
  | ind n ih =>
    by_cases hsmall : n < 10
    · refine ⟨[n], ?_, by simp⟩
      rw [Nat.toDigits_of_lt_base hsmall, List.mapM_cons, decimal_digitChar ⟨n, hsmall⟩]
      rfl
    · obtain ⟨digits, hdigits, hvalue⟩ := ih (n / 10) (by omega)
      refine ⟨digits ++ [n % 10], ?_, ?_⟩
      · rw [Nat.toDigits_of_base_le (by decide) (by omega), List.mapM_append, hdigits,
          List.mapM_cons, decimal_digitChar ⟨n % 10, Nat.mod_lt n (by decide)⟩]
        rfl
      · rw [List.foldl_append, hvalue]
        show 10 * (n / 10) + n % 10 = n
        omega

/-- **The decimal text of a number is read back** when it is not too long. -/
theorem int_toDigits {n : Nat} (h : n < 10 ^ maxStrDigits) : int (Nat.toDigits 10 n) = some n := by
  obtain ⟨digits, hdigits, hvalue⟩ := mapM_decimal_toDigits n
  have hlength : (Nat.toDigits 10 n).length ≤ maxStrDigits :=
    (Nat.length_toDigits_le_iff (by decide) (by decide)).mpr h
  rw [int, if_pos hlength, hdigits, Option.map_some, hvalue]

theorem decimal_of_isDigit {c : Char} (h : c.isDigit = true) : (decimal c).isSome = true := by
  have hvalue : 48 ≤ c.toNat ∧ c.toNat ≤ 57 := by
    simpa [Char.isDigit, Char.le_def, UInt32.le_iff_toNat_le] using h
  rw [decimal, Option.isSome_map, List.find?_isSome]
  exact ⟨0x30, by decide, by simp; omega⟩

end UnicodeDigits
