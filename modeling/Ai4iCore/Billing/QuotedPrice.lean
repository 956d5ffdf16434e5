import Ai4iCore.Base.Significant
import Ai4iCore.Billing.Usage
import Mathlib

/-!
# The quoted price and the price that is charged

A service quotes `cost_per_unit` for `unit_size` units. `create_service` and `update_service`
(service_service.py) keep their quotient in `unit_rate`, rounded to eight places, and the consumer
(_billing.py) charges the units at this rate; only when it is 0 or absent does it divide itself.

What the rounding leaves out of the rate is charged, or not, once for every unit. In hundred
millionths the price is a whole number, and what is left out of it is its distance to the nearest
multiple of the unit size (`quoted_price_iff`).
-/

namespace Ai4iCore.Billing.QuotedPrice

open Rounding

/-! ## The stored rate -/

/-- The two functions that write a price. -/
inductive Writer
  | createService
  | updateService
  deriving DecidableEq, Repr

/-- What `NUMERIC(16, 8)` keeps of the quotient: `create_service` divides `Decimal`s, with 28
digits. -/
def Writer.unitRate (cost : ℚ) (size : Nat) : Writer → ℚ
  | .createService => toScale 8 (toPrecision 28 (cost / size))
  | .updateService => toScale 8 (cost / size)

/-- A price in hundred millionths. -/
def costPerUnit (price : Nat) : ℚ := price / 10 ^ 8

/-- The prices and unit sizes that the two functions accept. -/
structure Accepted (price size : Nat) : Prop where
  price : price ≤ 10 ^ 15
  pos : 1 ≤ size
  size : size ≤ 10 ^ 7

/-- The row of a service, as the consumer reads it. -/
def stored (writer : Writer) (taskType : String) (price size : Nat)
    (cachedInputCostPerUnit outputCostPerUnit : Option ℚ) : ServicePricing where
  taskType
  unitRate := some (writer.unitRate (costPerUnit price) size)
  costPerUnit := some (costPerUnit price)
  unitSize := some size
  cachedInputCostPerUnit
  outputCostPerUnit

/-- A row without a rate. -/
def derived (p : ServicePricing) : ServicePricing := { p with unitRate := none }

/-! ## The rounded quotient -/

/-- The nearest whole number to a quotient. -/
def nearest (price size : Nat) : Nat := (2 * price + size) / (2 * size)

theorem half_add_div (price : Nat) {size : Nat} (hsize : 0 < size) :
    (price : ℚ) / size + 1 / 2 = ((2 * price + size : Nat) : ℚ) / (2 * size : Nat) := by
  have hpos : (size : ℚ) ≠ 0 := by exact_mod_cast hsize.ne'
  push_cast
  field_simp

theorem halfUp_div (price : Nat) {size : Nat} (hsize : 0 < size) :
    halfUp ((price : ℚ) / size) = nearest price size := by
  have hnonneg : (0 : ℚ) ≤ (price : ℚ) / size := by positivity
  rw [halfUp, if_pos hnonneg, half_add_div price hsize, Rat.floor_natCast_div_natCast]
  rfl

theorem nearest_eq (price : Nat) {size : Nat} (hsize : 0 < size) :
    nearest price size = price / size + if 2 * (price % size) < size then 0 else 1 := by
  have hdiv := Nat.div_add_mod price size
  have hmod := Nat.mod_lt price hsize
  have hsplit : 2 * price + size = 2 * (price % size) + size + 2 * size * (price / size) := by
    rw [mul_assoc]
    omega
  rw [nearest, hsplit, Nat.add_mul_div_left _ _ (by omega), Nat.add_comm]
  congr 1
  split
  · exact Nat.div_eq_of_lt (by omega)
  · exact Nat.div_eq_of_lt_le (by omega) (by omega)

/-- What the rounding leaves out of a price, or adds to it. -/
theorem abs_nearest_mul_sub (price : Nat) {size : Nat} (hsize : 0 < size) :
    |((nearest price size * size : Nat) : ℚ) - price| =
      (min (price % size) (size - price % size) : Nat) := by
  have hdiv := Nat.div_add_mod price size
  have hmod := Nat.mod_lt price hsize
  rw [nearest_eq price hsize]
  split
  · rename_i hlow
    have hprice : (price : ℚ) = (price / size * size : Nat) + (price % size : Nat) := by
      rw [← Nat.cast_add, Nat.mul_comm, hdiv]
    rw [min_eq_left (by omega), Nat.add_zero, abs_sub_comm, abs_of_nonneg]
    · linarith
    · have : (0 : ℚ) ≤ (price % size : Nat) := Nat.cast_nonneg _
      linarith
  · rename_i hhigh
    have hprice : ((price / size + 1) * size : Nat) = price + (size - price % size) := by
      rw [Nat.add_mul, Nat.mul_comm, Nat.one_mul]
      omega
    rw [min_eq_right (by omega), hprice, Nat.cast_add, add_sub_cancel_left, abs_of_nonneg]
    exact Nat.cast_nonneg _

theorem nearest_eq_zero_iff (price : Nat) {size : Nat} (hsize : 0 < size) :
    nearest price size = 0 ↔ 2 * price < size := by
  rw [nearest, Nat.div_eq_zero_iff]
  omega

/-! ## Both writers keep the nearest rate -/

/-- A number of few digits that is cut to 28 digits moves by less than half a twentieth decimal. -/
theorem abs_toPrecision_sub {x : ℚ} (hpos : 0 < x) (hle : x ≤ 10 ^ 7) :
    |toPrecision 28 x - x| ≤ 1 / 2 / 10 ^ 20 := by
  have hten : (0 : ℚ) < 10 := by norm_num
  set scale : ℤ := ((28 : Nat) : ℤ) - 1 - Int.log 10 |x| with hscale
  have hpow : (0 : ℚ) < 10 ^ scale := zpow_pos hten _
  -- the places of the context reach at least to the twentieth decimal
  have hplaces : (20 : ℤ) ≤ scale := by
    have hlog : ((10 : ℕ) : ℚ) ^ Int.log 10 |x| ≤ |x| :=
      Int.zpow_log_le_self (by norm_num) (abs_pos.mpr hpos.ne')
    have hbound : (10 : ℚ) ^ Int.log 10 |x| ≤ 10 ^ (7 : ℤ) := by
      rw [abs_of_pos hpos] at hlog ⊢
      refine le_trans ?_ hle
      exact_mod_cast hlog
    have := (zpow_le_zpow_iff_right₀ (by norm_num : (1 : ℚ) < 10)).mp hbound
    omega
  have hpow' : (10 : ℚ) ^ 20 ≤ 10 ^ scale := by
    rw [← zpow_natCast]
    exact zpow_le_zpow_right₀ (by norm_num) (by exact_mod_cast hplaces)
  obtain ⟨hlow, hhigh⟩ := nearest_halfEven (x * 10 ^ scale)
  have hround : toPrecision 28 x = halfEven (x * 10 ^ scale) / 10 ^ scale := rfl
  have hmoved : |toPrecision 28 x - x| ≤ 1 / 2 / 10 ^ scale := by
    rw [hround, div_sub' hpow.ne', abs_div, abs_of_pos hpow]
    refine div_le_div_of_nonneg_right ?_ hpow.le
    rw [abs_le, mul_comm (10 ^ scale)]
    constructor <;> linarith
  exact hmoved.trans (div_le_div_of_nonneg_left (by norm_num) (by positivity) hpow')

theorem toPrecision_nonneg {precision : Nat} {x : ℚ} (hx : 0 ≤ x) : 0 ≤ toPrecision precision x := by
  unfold toPrecision
  have hround : 0 ≤ halfEven (x * 10 ^ ((precision : ℤ) - 1 - Int.log 10 |x|)) :=
    halfEven_nonneg (by positivity)
  have hcast : (0 : ℚ) ≤ halfEven (x * 10 ^ ((precision : ℤ) - 1 - Int.log 10 |x|)) := by
    exact_mod_cast hround
  positivity

section Writers

variable {price size : Nat}

theorem costPerUnit_div (hsize : 0 < size) :
    costPerUnit price / size * 10 ^ 8 = (price : ℚ) / size := by
  have hpos : (size : ℚ) ≠ 0 := by exact_mod_cast hsize.ne'
  unfold costPerUnit
  field_simp

theorem toScale_quotient (hsize : 0 < size) :
    toScale 8 (costPerUnit price / size) = nearest price size / 10 ^ 8 := by
  rw [toScale, costPerUnit_div hsize, halfUp_div price hsize, Int.cast_natCast]

theorem Accepted.quotient_le (h : Accepted price size) : costPerUnit price / size ≤ 10 ^ 7 := by
  have hprice : (price : ℚ) ≤ 10 ^ 15 := by exact_mod_cast h.price
  have hone : (1 : ℚ) ≤ size := by exact_mod_cast h.pos
  have hcost : costPerUnit price ≤ 10 ^ 7 := by
    unfold costPerUnit
    linarith
  have hnonneg : 0 ≤ costPerUnit price := by
    unfold costPerUnit
    positivity
  exact (div_le_self hnonneg hone).trans hcost

/-- A quotient that is half way between two rates has nine places, and no digit is cut off. -/
theorem Accepted.toPrecision_tie (h : Accepted price size) (htie : size ∣ 2 * price) :
    toPrecision 28 (costPerUnit price / size) = costPerUnit price / size := by
  obtain ⟨m, hm⟩ := htie
  have hpos : (size : ℚ) ≠ 0 := by exact_mod_cast Nat.one_le_iff_ne_zero.mp h.pos
  have hm' : (price : ℚ) = size * m / 2 := by
    have : (2 : ℚ) * price = size * m := by exact_mod_cast hm
    linarith
  have hscale : HasScale 9 (costPerUnit price / size) := by
    refine ⟨5 * m, ?_⟩
    unfold costPerUnit
    rw [hm']
    push_cast
    field_simp
    ring
  refine Fits.toPrecision_eq ⟨hscale, ?_⟩
  have hnonneg : 0 ≤ costPerUnit price / size := by
    unfold costPerUnit
    positivity
  have hle := h.quotient_le
  rw [abs_of_nonneg hnonneg]
  calc costPerUnit price / size * 10 ^ 9 ≤ 10 ^ 7 * 10 ^ 9 := by gcongr
    _ < 10 ^ 28 := by norm_num

/-- Away from a tie the digits that are cut off do not reach it. -/
theorem Accepted.toScale_toPrecision (h : Accepted price size) (htie : ¬size ∣ 2 * price) :
    toScale 8 (toPrecision 28 (costPerUnit price / size)) = nearest price size / 10 ^ 8 := by
  have hsize : 0 < size := h.pos
  have hpos : (0 : ℚ) < size := by exact_mod_cast hsize
  have hprice : (0 : ℚ) < price := by
    have : price ≠ 0 := by
      rintro rfl
      exact htie (dvd_zero size)
    exact_mod_cast Nat.pos_of_ne_zero this
  set x := costPerUnit price / size with hx
  have hxpos : 0 < x := by
    rw [hx, costPerUnit]
    positivity
  have hmoved := abs_le.mp (abs_toPrecision_sub hxpos h.quotient_le)
  have hplaces : x * 10 ^ 8 = (price : ℚ) / size := costPerUnit_div hsize
  -- the quotient keeps a distance of half a unit from the bounds of its rate
  have hdiv := Nat.div_add_mod (2 * price + size) (2 * size)
  have hmod := Nat.mod_lt (2 * price + size) (show 0 < 2 * size by omega)
  have hne : (2 * price + size) % (2 * size) ≠ 0 := by
    intro hzero
    refine htie ((Nat.dvd_add_left (dvd_refl size)).mp ?_)
    exact dvd_trans (Dvd.intro_left 2 rfl) (Nat.dvd_of_mod_eq_zero hzero)
  have hlow : (nearest price size : ℚ) * (2 * size) + 1 ≤ 2 * price + size := by
    have : nearest price size * (2 * size) + 1 ≤ 2 * price + size := by
      rw [nearest, Nat.mul_comm]
      omega
    exact_mod_cast this
  have hhigh : (2 : ℚ) * price + size + 1 ≤ (nearest price size + 1) * (2 * size) := by
    have : 2 * price + size + 1 ≤ (nearest price size + 1) * (2 * size) := by
      rw [nearest, Nat.add_mul, Nat.one_mul, Nat.mul_comm ((2 * price + size) / (2 * size))]
      omega
    exact_mod_cast this
  have hgap : (1 : ℚ) / 10 ^ 7 ≤ 1 / size :=
    one_div_le_one_div_of_le hpos (by exact_mod_cast h.size)
  have hhalf : (price : ℚ) / size + 1 / 2 = (2 * price + size) / (2 * size) := by
    field_simp
  have hlow' : (nearest price size : ℚ) + 1 / size / 2 ≤ (price : ℚ) / size + 1 / 2 := by
    rw [hhalf, le_div_iff₀ (by positivity)]
    calc ((nearest price size : ℚ) + 1 / size / 2) * (2 * size)
        = nearest price size * (2 * size) + 1 := by field_simp
      _ ≤ _ := hlow
  have hhigh' : (price : ℚ) / size + 1 / 2 ≤ (nearest price size : ℚ) + 1 - 1 / size / 2 := by
    rw [hhalf, div_le_iff₀ (by positivity)]
    calc (2 : ℚ) * price + size ≤ (nearest price size + 1) * (2 * size) - 1 := by linarith
      _ = ((nearest price size : ℚ) + 1 - 1 / size / 2) * (2 * size) := by field_simp
  have hnonneg : 0 ≤ toPrecision 28 x * 10 ^ 8 :=
    mul_nonneg (toPrecision_nonneg hxpos.le) (by norm_num)
  have hround : halfUp (toPrecision 28 x * 10 ^ 8) = nearest price size := by
    rw [halfUp, if_pos hnonneg, Int.floor_eq_iff]
    push_cast
    constructor
    · linarith [hmoved.1]
    · linarith [hmoved.2]
  rw [toScale, hround, Int.cast_natCast]

/-- **Both writers keep the nearest rate.** -/
theorem Accepted.unitRate_eq (h : Accepted price size) (writer : Writer) :
    writer.unitRate (costPerUnit price) size = nearest price size / 10 ^ 8 := by
  cases writer with
  | updateService => exact toScale_quotient h.pos
  | createService =>
    change toScale 8 (toPrecision 28 (costPerUnit price / size)) = _
    by_cases htie : size ∣ 2 * price
    · rw [h.toPrecision_tie htie]
      exact toScale_quotient h.pos
    · exact h.toScale_toPrecision htie

end Writers

/-! ## What is charged -/

section Charges

variable {price size : Nat}

/-- Within one unit of the eighth decimal. -/
def Within (charge quoted : ℚ) : Prop := |charge - quoted| ≤ 1 / 10 ^ 8

/-- Both biller functions charge `units` of a row at the quoted price. -/
structure ChargesQuoted (p : ServicePricing) (price size : Nat) (units : ℚ) : Prop where
  cost : Within (calculateCost units p) (units * (costPerUnit price / size))
  llm : ∀ input cached output, input - min (max cached 0) input = units →
    Within (calculateLlmCost input cached output p).inputCost (units * (costPerUnit price / size))

/-- The rate a row is charged at. -/
theorem calculateCost_of_rate {p : ServicePricing} {rate : ℚ} (hrate : p.unitRate = some rate)
    (hne : rate ≠ 0) (units : ℚ) : calculateCost units p = units * rate := by
  simp only [calculateCost, hrate, orElse, if_neg hne]

theorem inputCost_of_rate {p : ServicePricing} {rate : ℚ} (hrate : p.unitRate = some rate)
    (hne : rate ≠ 0) (input cached output : ℚ) :
    (calculateLlmCost input cached output p).inputCost =
      (input - min (max cached 0) input) * rate := by
  simp only [calculateLlmCost, hrate, orElse, if_neg hne, Option.getD_some]

/-- **A row without a rate is charged exactly.** -/
theorem calculateCost_derived {p : ServicePricing} (hrate : p.unitRate.getD 0 = 0)
    (hcost : p.costPerUnit = some (costPerUnit price)) (hunit : p.unitSize = some size)
    (hsize : 0 < size) (units : ℚ) :
    calculateCost units p = units * (costPerUnit price / size) := by
  have hnone : orElse p.unitRate none = none := by
    cases hp : p.unitRate with
    | none => rfl
    | some rate => simp_all [orElse]
  unfold calculateCost
  rw [hnone]
  by_cases hzero : costPerUnit price = 0
  · simp [hcost, orElse, hzero]
  · simp only [hcost, hunit, orElse, if_neg hzero, if_neg hsize.ne']
    ring

theorem inputCost_derived {p : ServicePricing} (hrate : p.unitRate.getD 0 = 0)
    (hcost : p.costPerUnit = some (costPerUnit price)) (hunit : p.unitSize = some size)
    (hsize : 0 < size) (input cached output : ℚ) :
    (calculateLlmCost input cached output p).inputCost =
      (input - min (max cached 0) input) * (costPerUnit price / size) := by
  have hper : perUnitRate p.costPerUnit p = some (costPerUnit price / size) := by
    simp [perUnitRate, hcost, hunit, hsize.ne']
  have hnone : orElse p.unitRate (some (costPerUnit price / size)) =
      some (costPerUnit price / size) := by
    cases hp : p.unitRate with
    | none => rfl
    | some rate => simp_all [orElse]
  unfold calculateLlmCost
  dsimp only
  rw [hper, hnone]
  by_cases hzero : costPerUnit price / size = 0
  · simp [orElse, hzero]
  · simp [orElse, hzero]

theorem chargesQuoted_derived {p : ServicePricing} (hrate : p.unitRate.getD 0 = 0)
    (hcost : p.costPerUnit = some (costPerUnit price)) (hunit : p.unitSize = some size)
    (hsize : 0 < size) (units : ℚ) : ChargesQuoted p price size units := by
  refine ⟨?_, fun input cached output hunits => ?_⟩
  · rw [calculateCost_derived hrate hcost hunit hsize, Within, sub_self, abs_zero]
    positivity
  · rw [inputCost_derived hrate hcost hunit hsize, hunits, Within, sub_self, abs_zero]
    positivity

/-- What units at the nearest rate cost beside the quoted price. -/
theorem within_nearest_iff (hsize : 0 < size) (units : ℚ) :
    Within (units * (nearest price size / 10 ^ 8)) (units * (costPerUnit price / size)) ↔
      |units| * (min (price % size) (size - price % size) : Nat) ≤ size := by
  have hpos : (0 : ℚ) < size := by exact_mod_cast hsize
  have hdiff : units * (nearest price size / 10 ^ 8) - units * (costPerUnit price / size) =
      units * ((nearest price size * size : Nat) - price) / size / 10 ^ 8 := by
    unfold costPerUnit
    push_cast
    field_simp
  rw [Within, hdiff, abs_div, abs_div, abs_mul, abs_nearest_mul_sub price hsize,
    abs_of_pos hpos, abs_of_pos (by norm_num : (0 : ℚ) < 10 ^ 8),
    div_le_div_iff_of_pos_right (by norm_num), div_le_one hpos]

end Charges

/-- **When the quoted price is the price charged.** -/
theorem quoted_price_iff {price size : Nat} (h : Accepted price size) (writer : Writer)
    (taskType : String) (cachedInput output : Option ℚ) (units : ℚ) :
    (ChargesQuoted (stored writer taskType price size cachedInput output) price size units ∧
      ChargesQuoted (derived (stored writer taskType price size cachedInput output)) price size
        units) ↔
      2 * price < size ∨ |units| * (min (price % size) (size - price % size) : Nat) ≤ size := by
  have hsize : 0 < size := h.pos
  have hderived : ChargesQuoted (derived (stored writer taskType price size cachedInput output))
      price size units := chargesQuoted_derived rfl rfl rfl hsize units
  have hrate : (stored writer taskType price size cachedInput output).unitRate =
      some ((nearest price size : ℚ) / 10 ^ 8) := congrArg some (h.unitRate_eq writer)
  rw [← nearest_eq_zero_iff price hsize]
  rcases eq_or_ne (nearest price size) 0 with hzero | hne
  · -- the rate has rounded away, and the biller divides
    refine ⟨fun _ => .inl hzero, fun _ => ⟨chargesQuoted_derived ?_ rfl rfl hsize units, hderived⟩⟩
    rw [hrate, hzero]
    norm_num
  · have hne' : (nearest price size : ℚ) / 10 ^ 8 ≠ 0 := by
      have : (nearest price size : ℚ) ≠ 0 := by exact_mod_cast hne
      positivity
    rw [or_iff_right hne, ← within_nearest_iff hsize]
    constructor
    · rintro ⟨⟨hcost, -⟩, -⟩
      rwa [calculateCost_of_rate hrate hne'] at hcost
    · intro hwithin
      refine ⟨⟨?_, fun input cached output' hunits => ?_⟩, hderived⟩
      · rwa [calculateCost_of_rate hrate hne']
      · rwa [inputCost_of_rate hrate hne', hunits]

/-- Whole rates are charged as quoted, at every volume. -/
theorem quoted_price_whole :
    ChargesQuoted (stored .createService "asr" (4 * 10 ^ 8) 1000 none none) (4 * 10 ^ 8) 1000
        123456789 ∧
      ChargesQuoted (derived (stored .createService "asr" (4 * 10 ^ 8) 1000 none none))
        (4 * 10 ^ 8) 1000 123456789 :=
  (quoted_price_iff ⟨by norm_num, by norm_num, by norm_num⟩ .createService "asr" none none
    123456789).mpr (.inr (by norm_num))

/-- One for three units: a million units cost a third of a hundredth less than quoted. -/
theorem quoted_price_third :
    Accepted (10 ^ 8) 3 ∧
    ¬ChargesQuoted (stored .createService "asr" (10 ^ 8) 3 none none) (10 ^ 8) 3 (10 ^ 6) ∧
    calculateCost (10 ^ 6) (stored .createService "asr" (10 ^ 8) 3 none none) = 333333.33 := by
  have haccepted : Accepted (10 ^ 8) 3 := ⟨by norm_num, by norm_num, by norm_num⟩
  have hrate : (stored .createService "asr" (10 ^ 8) 3 none none).unitRate =
      some ((nearest (10 ^ 8) 3 : ℚ) / 10 ^ 8) :=
    congrArg some (haccepted.unitRate_eq .createService)
  have hnearest : nearest (10 ^ 8) 3 = 33333333 := by decide
  rw [hnearest] at hrate
  have hcost := calculateCost_of_rate hrate (by norm_num) (10 ^ 6)
  refine ⟨haccepted, fun hcharges => ?_, ?_⟩
  · have hwithin := hcharges.cost
    rw [hcost, Within, costPerUnit] at hwithin
    norm_num [abs_le] at hwithin
  · rw [hcost]
    norm_num

end Ai4iCore.Billing.QuotedPrice
