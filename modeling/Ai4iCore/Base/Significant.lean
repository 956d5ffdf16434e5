import Ai4iCore.Base.Rounding
import Mathlib.Data.Int.Log

/-!
# Decimal arithmetic with a fixed number of digits

A result of decimal arithmetic is the exact one, rounded half to even to the significant digits of
the context (`toPrecision`). Sums of numbers of a few decimal places are exact as long as they have
room for these places (`sumWith_eq`).
-/

namespace Rounding

/-- Rounded to `precision` significant digits, half to even. -/
def toPrecision (precision : Nat) (x : ℚ) : ℚ :=
  let scale : ℤ := precision - 1 - Int.log 10 |x|
  halfEven (x * 10 ^ scale) / 10 ^ scale

/-- The sum as the context computes it, term after term. -/
def sumWith (precision : Nat) (terms : List ℚ) : ℚ :=
  terms.foldl (fun sum term => toPrecision precision (sum + term)) 0

/-- A number with `scale` decimal places that has room for them in `precision` digits. -/
def Fits (precision scale : Nat) (x : ℚ) : Prop :=
  HasScale scale x ∧ |x| * 10 ^ scale < 10 ^ precision

theorem halfEven_intCast (n : ℤ) : halfEven n = n := by
  unfold halfEven
  rw [Int.floor_intCast, sub_self, if_neg (by norm_num)]
  refine Int.floor_eq_iff.mpr ⟨?_, ?_⟩
  · linarith
  · linarith

/-- A number that fits is its own rounding. -/
theorem Fits.toPrecision_eq {precision scale : Nat} {x : ℚ} (h : Fits precision scale x) :
    toPrecision precision x = x := by
  obtain ⟨⟨n, hn⟩, hlt⟩ := h
  rcases eq_or_ne x 0 with rfl | hx
  · have hzero : halfEven (0 : ℚ) = 0 := by exact_mod_cast halfEven_intCast 0
    rw [toPrecision, zero_mul, hzero, Int.cast_zero, zero_div]
  · have hpos : 0 < |x| := abs_pos.mpr hx
    have hten : (10 : ℚ) ≠ 0 := by norm_num
    -- the places of the context reach at least as far as those of the number
    have hlog : (scale : ℤ) ≤ precision - 1 - Int.log 10 |x| := by
      have hle : ((10 : ℕ) : ℚ) ^ Int.log 10 |x| ≤ |x| :=
        Int.zpow_log_le_self (by norm_num) hpos
      have hbound : (10 : ℚ) ^ (Int.log 10 |x| + scale) < 10 ^ (precision : ℤ) := by
        rw [zpow_add₀ hten, zpow_natCast, zpow_natCast]
        refine lt_of_le_of_lt (mul_le_mul_of_nonneg_right ?_ (by positivity)) hlt
        exact_mod_cast hle
      have := (zpow_lt_zpow_iff_right₀ (by norm_num : (1 : ℚ) < 10)).mp hbound
      omega
    obtain ⟨d, hd⟩ := Int.le.dest hlog
    have hinteger : x * 10 ^ ((precision : ℤ) - 1 - Int.log 10 |x|) = ((n * 10 ^ d : ℤ) : ℚ) := by
      rw [← hd, zpow_add₀ hten, zpow_natCast, zpow_natCast, hn]
      push_cast
      field_simp
    rw [toPrecision, hinteger, halfEven_intCast, ← hinteger]
    exact mul_div_cancel_right₀ x (zpow_ne_zero _ hten)

theorem toPrecision_nonneg (precision : Nat) {x : ℚ} (hx : 0 ≤ x) :
    0 ≤ toPrecision precision x := by
  have hround : (0 : ℚ) ≤ halfEven (x * 10 ^ ((precision : ℤ) - 1 - Int.log 10 |x|)) := by
    exact_mod_cast halfEven_nonneg (mul_nonneg hx (zpow_nonneg (by norm_num) _))
  exact div_nonneg hround (zpow_nonneg (by norm_num) _)

/-- The relative error of a rounding. -/
theorem abs_toPrecision_sub_le (precision : Nat) (x : ℚ) :
    |toPrecision precision x - x| ≤ |x| * (10 ^ (1 - (precision : ℤ)) / 2) := by
  rcases eq_or_ne x 0 with rfl | hx
  · have hzero : halfEven (0 : ℚ) = 0 := by exact_mod_cast halfEven_intCast 0
    simp [toPrecision, hzero]
  · have hten : (10 : ℚ) ≠ 0 := by norm_num
    have hle : (10 : ℚ) ^ Int.log 10 |x| ≤ |x| := by
      have := Int.zpow_log_le_self (by norm_num : 1 < 10) (abs_pos.mpr hx)
      exact_mod_cast this
    rw [toPrecision]
    generalize hscale : (precision : ℤ) - 1 - Int.log 10 |x| = scale
    have hpos : (0 : ℚ) < 10 ^ scale := zpow_pos (by norm_num) _
    obtain ⟨hlow, hhigh⟩ := nearest_halfEven (x * 10 ^ scale)
    have hhalf : |(halfEven (x * 10 ^ scale) : ℚ) - x * 10 ^ scale| ≤ 1 / 2 :=
      abs_le.mpr ⟨by linarith, by linarith⟩
    have hunit : (10 : ℚ) ^ (-scale) ≤ |x| * 10 ^ (1 - (precision : ℤ)) := by
      have hsplit : -scale = Int.log 10 |x| + (1 - (precision : ℤ)) := by omega
      rw [hsplit, zpow_add₀ hten]
      exact mul_le_mul_of_nonneg_right hle (zpow_nonneg (by norm_num) _)
    calc |(halfEven (x * 10 ^ scale) : ℚ) / 10 ^ scale - x|
        = |(halfEven (x * 10 ^ scale) : ℚ) - x * 10 ^ scale| / 10 ^ scale := by
          rw [← abs_of_pos hpos, ← abs_div, abs_of_pos hpos, sub_div,
            mul_div_cancel_right₀ x hpos.ne']
      _ ≤ 1 / 2 / 10 ^ scale := div_le_div_of_nonneg_right hhalf hpos.le
      _ = 10 ^ (-scale) / 2 := by rw [zpow_neg]; ring
      _ ≤ |x| * (10 ^ (1 - (precision : ℤ)) / 2) := by linarith

theorem hasScale_sum {scale : Nat} {terms : List ℚ} (h : ∀ x ∈ terms, HasScale scale x) :
    HasScale scale terms.sum := by
  induction terms with
  | nil => exact ⟨0, by norm_num⟩
  | cons x terms ih =>
    rw [List.sum_cons]
    exact (h x List.mem_cons_self).add (ih fun y hy => h y (List.mem_cons_of_mem x hy))

/-- A number of few digits rounds to a whole number of few digits. -/
theorem HasScale.halfUp_lt {precision scale : Nat} {x : ℚ} (h : HasScale scale x) (hx : 0 ≤ x)
    (hroom : x * 10 ^ scale < 10 ^ precision) : halfUp x < 10 ^ precision := by
  obtain ⟨n, hn⟩ := h
  have hpow : (1 : ℚ) ≤ 10 ^ scale := one_le_pow₀ (by norm_num)
  have hdigits : x * 10 ^ scale = n := by
    rw [hn]
    field_simp
  have hle : x ≤ n := hdigits ▸ le_mul_of_one_le_right hx hpow
  have hhalf : halfUp x ≤ n := by
    have hfloor : halfUp (n : ℚ) = n := halfUp_intCast n
    rw [halfUp, if_pos (hx.trans hle)] at hfloor
    rw [halfUp, if_pos hx, ← hfloor]
    exact Int.floor_le_floor (by linarith)
  have hlt : n < 10 ^ precision := by
    rw [hdigits] at hroom
    exact_mod_cast hroom
  exact hhalf.trans_lt hlt

/-- **Sums that fit are exact.** -/
theorem sumWith_eq {precision scale : Nat} {terms : List ℚ} (hnonneg : ∀ x ∈ terms, 0 ≤ x)
    (hscale : ∀ x ∈ terms, HasScale scale x) (hroom : terms.sum * 10 ^ scale < 10 ^ precision) :
    sumWith precision terms = terms.sum := by
  induction terms using List.reverseRecOn with
  | nil => rfl
  | append_singleton terms x ih =>
    rw [List.sum_append, List.sum_singleton] at hroom
    have hx := hnonneg x (List.mem_append_right _ (List.mem_singleton_self x))
    have hterms : ∀ y ∈ terms, 0 ≤ y := fun y hy => hnonneg y (List.mem_append_left _ hy)
    have hsum : 0 ≤ terms.sum := List.sum_nonneg hterms
    have hpow : (0 : ℚ) < 10 ^ scale := by positivity
    have hbefore : sumWith precision terms = terms.sum := by
      refine ih hterms (fun y hy => hscale y (List.mem_append_left _ hy)) (lt_of_le_of_lt ?_ hroom)
      exact mul_le_mul_of_nonneg_right (by linarith) hpow.le
    have hplaces : HasScale scale (terms ++ [x]).sum := hasScale_sum hscale
    rw [List.sum_append, List.sum_singleton] at hplaces
    have hfits : Fits precision scale (terms.sum + x) :=
      ⟨hplaces, by rw [abs_of_nonneg (by linarith)]; exact hroom⟩
    rw [sumWith, List.foldl_append]
    show toPrecision precision (sumWith precision terms + x) = _
    rw [hbefore, hfits.toPrecision_eq, List.sum_append, List.sum_singleton]

end Rounding
