import Mathlib.Algebra.Order.Floor.Ring
import Mathlib.Algebra.Order.Round
import Mathlib.Data.Rat.Floor
import Mathlib.Tactic.Linarith
import Mathlib.Tactic.FieldSimp
import Mathlib.Tactic.Positivity

/-!
# Rounding to hundredths

Decimal arithmetic on amounts of money and on percentages keeps two decimal places.
A rounding mode is a function `ℚ → ℤ` on the number of hundredths; `quantize` applies
it. What a mode is worth to a proof is how far it moves its argument (`Within`) and
that it does not change its sign.
-/

namespace Rounding

/-- Half away from zero. -/
def halfUp (x : ℚ) : ℤ := if 0 ≤ x then ⌊x + 1 / 2⌋ else -⌊-x + 1 / 2⌋

/-- Half to the even neighbour. -/
def halfEven (x : ℚ) : ℤ :=
  if x - ⌊x⌋ = 1 / 2 then (if ⌊x⌋ % 2 = 0 then ⌊x⌋ else ⌊x⌋ + 1) else ⌊x + 1 / 2⌋

/-- Towards zero. -/
def down (x : ℚ) : ℤ := if 0 ≤ x then ⌊x⌋ else -⌊-x⌋

/-- `value.quantize(Decimal("0.01"), rounding=mode)`. -/
def quantize (mode : ℚ → ℤ) (value : ℚ) : ℚ := mode (value * 100) / 100

/-- The mode moves a number by at most a half. -/
def Nearest (mode : ℚ → ℤ) : Prop := ∀ x, x - 1 / 2 ≤ mode x ∧ (mode x : ℚ) ≤ x + 1 / 2

theorem nearest_halfUp : Nearest halfUp := by
  intro x
  have hpos := Int.floor_le (x + 1 / 2)
  have hpos' := Int.lt_floor_add_one (x + 1 / 2)
  have hneg := Int.floor_le (-x + 1 / 2)
  have hneg' := Int.lt_floor_add_one (-x + 1 / 2)
  unfold halfUp
  split
  · constructor <;> linarith
  · push_cast
    constructor <;> linarith

theorem nearest_halfEven : Nearest halfEven := by
  intro x
  have hfloor := Int.floor_le x
  have hfloor' := Int.lt_floor_add_one x
  unfold halfEven
  split
  · rename_i htie
    split
    · constructor <;> linarith
    · push_cast
      constructor <;> linarith
  · have hhalf := Int.floor_le (x + 1 / 2)
    have hhalf' := Int.lt_floor_add_one (x + 1 / 2)
    constructor <;> linarith

theorem halfUp_nonneg {x : ℚ} (hx : 0 ≤ x) : 0 ≤ halfUp x := by
  rw [halfUp, if_pos hx]
  exact Int.floor_nonneg.mpr (by linarith)

/-- Half way between an even number and the next one. -/
def EvenTie (x : ℚ) : Prop := ∃ k : ℤ, x = 2 * k + 1 / 2

/-- The two nearest modes part at an even tie and nowhere else. -/
theorem halfEven_eq_halfUp_iff {x : ℚ} (hx : 0 ≤ x) : halfEven x = halfUp x ↔ ¬EvenTie x := by
  rw [halfUp, if_pos hx]
  unfold halfEven
  constructor
  · rintro h ⟨k, hk⟩
    have hfloor : ⌊x⌋ = 2 * k :=
      Int.floor_eq_iff.mpr ⟨by push_cast; linarith, by push_cast; linarith⟩
    have hup : ⌊x + 1 / 2⌋ = 2 * k + 1 :=
      Int.floor_eq_iff.mpr ⟨by push_cast; linarith, by push_cast; linarith⟩
    rw [hfloor, if_pos (by push_cast; linarith), if_pos (by omega), hup] at h
    omega
  · intro h
    split
    · rename_i htie
      have hup : ⌊x + 1 / 2⌋ = ⌊x⌋ + 1 :=
        Int.floor_eq_iff.mpr ⟨by push_cast; linarith, by push_cast; linarith⟩
      rw [if_neg fun heven => ?_, hup]
      refine h ⟨⌊x⌋ / 2, ?_⟩
      have hdiv : ((2 * (⌊x⌋ / 2) : ℤ) : ℚ) = ⌊x⌋ := by
        rw [Int.mul_ediv_cancel' (Int.dvd_of_emod_eq_zero heven)]
      push_cast at hdiv
      linarith
    · rfl

theorem halfEven_nonneg {x : ℚ} (hx : 0 ≤ x) : 0 ≤ halfEven x := by
  have hfloor : 0 ≤ ⌊x⌋ := Int.floor_nonneg.mpr hx
  unfold halfEven
  split
  · split <;> omega
  · exact Int.floor_nonneg.mpr (by linarith)

section Quantize

variable {mode : ℚ → ℤ}

theorem quantize_nonneg (hmode : ∀ {x : ℚ}, 0 ≤ x → 0 ≤ mode x) {x : ℚ} (hx : 0 ≤ x) :
    0 ≤ quantize mode x := by
  have h : (0 : ℚ) ≤ mode (x * 100) := by exact_mod_cast hmode (by linarith)
  unfold quantize
  linarith

/-- A nearest mode moves a quantized number by at most half a hundredth. -/
theorem Nearest.quantize_ge (hmode : Nearest mode) (x : ℚ) : x - 1 / 200 ≤ quantize mode x := by
  have h := (hmode (x * 100)).1
  unfold quantize
  linarith

theorem Nearest.quantize_le (hmode : Nearest mode) (x : ℚ) : quantize mode x ≤ x + 1 / 200 := by
  have h := (hmode (x * 100)).2
  unfold quantize
  linarith

theorem quantize_down_ge {x : ℚ} (hx : 0 ≤ x) : x - 1 / 100 ≤ quantize down x := by
  have h := Int.lt_floor_add_one (x * 100)
  rw [quantize, down, if_pos (by linarith)]
  linarith

theorem quantize_down_le {x : ℚ} (hx : 0 ≤ x) : quantize down x ≤ x := by
  have h := Int.floor_le (x * 100)
  rw [quantize, down, if_pos (by linarith)]
  linarith

end Quantize

theorem down_nonneg {x : ℚ} (hx : 0 ≤ x) : 0 ≤ down x := by
  rw [down, if_pos hx]
  exact Int.floor_nonneg.mpr hx

theorem quantize_eq_iff {mode mode' : ℚ → ℤ} {x : ℚ} :
    quantize mode x = quantize mode' x ↔ mode (x * 100) = mode' (x * 100) := by
  unfold quantize
  rw [div_left_inj' (by norm_num), Int.cast_inj]

/-! ## Columns of a fixed scale -/

/-- The number has at most `scale` decimal places. -/
def HasScale (scale : Nat) (x : ℚ) : Prop := ∃ n : ℤ, x = n / 10 ^ scale

/-- What a column `NUMERIC(p, scale)` keeps of a number. -/
def toScale (scale : Nat) (x : ℚ) : ℚ := halfUp (x * 10 ^ scale) / 10 ^ scale

theorem halfUp_intCast (n : ℤ) : halfUp n = n := by
  obtain ⟨hlow, hhigh⟩ := nearest_halfUp n
  have hlow' : (n : ℚ) < halfUp n + 1 := by linarith
  have hhigh' : (halfUp n : ℚ) < n + 1 := by linarith
  have hle : n < halfUp n + 1 := by exact_mod_cast hlow'
  have hge : halfUp n < n + 1 := by exact_mod_cast hhigh'
  omega

theorem HasScale.quantize_eq {x : ℚ} (hx : HasScale 2 x) : quantize halfUp x = x := by
  obtain ⟨n, rfl⟩ := hx
  rw [quantize, show (n / 10 ^ 2 * 100 : ℚ) = n by norm_num, halfUp_intCast]
  norm_num

theorem hasScale_toScale (scale : Nat) (x : ℚ) : HasScale scale (toScale scale x) := ⟨_, rfl⟩

theorem hasScale_of_toScale {scale : Nat} {x : ℚ} (h : toScale scale x = x) : HasScale scale x :=
  h ▸ hasScale_toScale scale x

theorem HasScale.add {scale : Nat} {x y : ℚ} (hx : HasScale scale x) (hy : HasScale scale y) :
    HasScale scale (x + y) := by
  obtain ⟨n, rfl⟩ := hx
  obtain ⟨m, rfl⟩ := hy
  refine ⟨n + m, ?_⟩
  push_cast
  exact (add_div ..).symm

theorem HasScale.sub {scale : Nat} {x y : ℚ} (hx : HasScale scale x) (hy : HasScale scale y) :
    HasScale scale (x - y) := by
  obtain ⟨n, rfl⟩ := hx
  obtain ⟨m, rfl⟩ := hy
  refine ⟨n - m, ?_⟩
  push_cast
  exact (sub_div ..).symm

theorem hasScale_quantize (mode : ℚ → ℤ) (x : ℚ) : HasScale 2 (quantize mode x) :=
  ⟨mode (x * 100), by norm_num [quantize]⟩

/-- Between a negative number of hundredths and zero lies a whole hundredth. -/
theorem HasScale.nonneg_of_gt {x : ℚ} (hx : HasScale 2 x) (h : -(1 / 100) < x) : 0 ≤ x := by
  obtain ⟨n, rfl⟩ := hx
  have hn : (-1 : ℚ) < n := by
    rw [lt_div_iff₀ (by norm_num)] at h
    linarith
  have hn' : -1 < n := by exact_mod_cast hn
  have hnonneg : 0 ≤ n := by omega
  positivity

/-- A number that fits the column is stored as it is. -/
theorem HasScale.toScale_eq {scale : Nat} {x : ℚ} (hx : HasScale scale x) :
    toScale scale x = x := by
  obtain ⟨n, rfl⟩ := hx
  have hpow : (10 : ℚ) ^ scale ≠ 0 := by positivity
  rw [toScale, div_mul_cancel₀ _ hpow, halfUp_intCast]

end Rounding
