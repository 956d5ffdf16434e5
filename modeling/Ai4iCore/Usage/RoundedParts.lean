import Ai4iCore.Base.Significant
import Mathlib

/-!
# Breakdowns that add up

`round_parts` and `round_shares` (rounding.py). Every part is rounded by itself, half up, and what
the rounded parts are short of or over the rounded total is put on the first largest part. So they
add up, all but one are rounded as they are, and the one is off by half a unit for each part at
most.

The one can become negative. Shares are percentages of a sum, and a long list of small ones that
are all rounded up leaves less than nothing for it; with few parts for the number of places this
does not happen (`rounded_breakdowns`).

Decimals are exact here, but for the divisions, which are rounded to the 28 digits of the context.
-/

namespace Ai4iCore.Usage.RoundedParts

open Rounding

/-- `Decimal(1).scaleb(-places)`. -/
def quantum (places : ℤ) : ℚ := 10 ^ (-places)

/-- `x.quantize(quantum, ROUND_HALF_UP)`. -/
def quantize (places : ℤ) (x : ℚ) : ℚ := halfUp (x / quantum places) * quantum places

/-- The first index of a largest part. -/
def largest (parts : List ℚ) : Nat := parts.findIdx fun p => parts.all (· ≤ p)

/-- `round_parts`. -/
def roundParts (parts : List ℚ) (total : ℚ) (places : ℤ) : List ℚ :=
  let rounded := parts.map (quantize places)
  if rounded = [] then rounded
  else
    let residual := quantize places total - rounded.sum
    if residual ≠ 0 then
      rounded.modify (largest parts) (· + residual)
    else rounded

/-- The digits of the default context. -/
def precision : Nat := 28

/-- `Decimal(p) / whole * 100`. -/
def percentage (whole p : ℚ) : ℚ := toPrecision precision (p / whole) * 100

/-- `round_shares`. -/
def roundShares (parts : List ℚ) (places : ℤ) : List ℚ :=
  let whole := parts.sum
  if whole = 0 then parts.map fun _ => quantize places 0
  else roundParts (parts.map (percentage whole)) 100 places

/-! ## Rounding one number -/

section

variable {places : ℤ}

theorem quantum_pos (places : ℤ) : 0 < quantum places := zpow_pos (by norm_num) _

theorem abs_quantize_sub_le (places : ℤ) (x : ℚ) :
    |quantize places x - x| ≤ quantum places / 2 := by
  have hpos := quantum_pos places
  obtain ⟨hlow, hhigh⟩ := nearest_halfUp (x / quantum places)
  have hx : x = x / quantum places * quantum places := (div_mul_cancel₀ x hpos.ne').symm
  have hdiff : quantize places x - x =
      (halfUp (x / quantum places) - x / quantum places) * quantum places := by
    rw [quantize, sub_mul, ← hx]
  rw [hdiff, abs_mul, abs_of_pos hpos]
  have hhalf : |(halfUp (x / quantum places) : ℚ) - x / quantum places| ≤ 1 / 2 :=
    abs_le.mpr ⟨by linarith, by linarith⟩
  calc |(halfUp (x / quantum places) : ℚ) - x / quantum places| * quantum places
      ≤ 1 / 2 * quantum places := mul_le_mul_of_nonneg_right hhalf hpos.le
    _ = quantum places / 2 := by ring

theorem quantize_nonneg {x : ℚ} (hx : 0 ≤ x) : 0 ≤ quantize places x := by
  have hpos := quantum_pos places
  have hround : (0 : ℚ) ≤ halfUp (x / quantum places) := by
    exact_mod_cast halfUp_nonneg (div_nonneg hx hpos.le)
  exact mul_nonneg hround hpos.le

theorem quantize_zero : quantize places 0 = 0 := by
  have hzero : halfUp (0 : ℚ) = 0 := by exact_mod_cast halfUp_intCast 0
  rw [quantize, zero_div, hzero, Int.cast_zero, zero_mul]

/-- A hundred has no digits that are cut off. -/
theorem quantize_hundred (h : -2 ≤ places) : quantize places 100 = 100 := by
  have hpos := quantum_pos places
  obtain ⟨n, hn⟩ := Int.le.dest h
  have hwhole : (100 : ℚ) / quantum places = ((10 ^ n : ℤ) : ℚ) := by
    rw [quantum, ← hn, zpow_neg, div_inv_eq_mul, zpow_add₀ (by norm_num)]
    norm_num
    ring
  rw [quantize, hwhole, halfUp_intCast, ← hwhole, div_mul_cancel₀ _ hpos.ne']

/-- Rounding errors add up. -/
theorem abs_sum_quantize_sub_le (parts : List ℚ) :
    |(parts.map (quantize places)).sum - parts.sum| ≤ parts.length * (quantum places / 2) := by
  induction parts with
  | nil => simp
  | cons p parts ih =>
    have hp := abs_quantize_sub_le places p
    rw [List.map_cons, List.sum_cons, List.sum_cons, List.length_cons, add_sub_add_comm]
    calc |quantize places p - p + ((parts.map (quantize places)).sum - parts.sum)|
        ≤ |quantize places p - p| + |(parts.map (quantize places)).sum - parts.sum| :=
          abs_add_le _ _
      _ ≤ quantum places / 2 + parts.length * (quantum places / 2) := add_le_add hp ih
      _ = ((parts.length + 1 : Nat) : ℚ) * (quantum places / 2) := by
          push_cast
          ring

end

/-! ## The parts -/

theorem exists_largest {parts : List ℚ} (hne : parts ≠ []) :
    ∃ before p after, parts = before ++ p :: after ∧ before.length = largest parts ∧
      ∀ q ∈ parts, q ≤ p := by
  obtain ⟨m, hm, hmax⟩ :=
    parts.toFinset.exists_max_image id ((List.toFinset_nonempty_iff _).mpr hne)
  have hexists : ∃ p ∈ parts, parts.all (· ≤ p) = true :=
    ⟨m, List.mem_toFinset.mp hm, List.all_eq_true.mpr fun q hq =>
      decide_eq_true (hmax q (List.mem_toFinset.mpr hq))⟩
  have hlt : largest parts < parts.length := List.findIdx_lt_length_of_exists hexists
  have hall : parts.all (· ≤ parts[largest parts]) = true :=
    List.findIdx_getElem (p := fun p => parts.all (· ≤ p))
  refine ⟨parts.take (largest parts), parts[largest parts], parts.drop (largest parts + 1), ?_, ?_,
    fun q hq => of_decide_eq_true (List.all_eq_true.mp hall q hq)⟩
  · rw [List.getElem_cons_drop, List.take_append_drop]
  · rw [List.length_take, min_eq_left hlt.le]

theorem modify_append_cons {α : Type} (before after : List α) (x : α) (f : α → α) :
    (before ++ x :: after).modify before.length f = before ++ f x :: after := by
  induction before with
  | nil => rfl
  | cons b before ih => exact congrArg (b :: ·) ih

/-- What the rounding puts on one part. -/
def residual (parts : List ℚ) (total : ℚ) (places : ℤ) : ℚ :=
  quantize places total - (parts.map (quantize places)).sum

/-- **All parts but a largest one are rounded as they are.** -/
theorem roundParts_split {parts : List ℚ} (hne : parts ≠ []) (total : ℚ) (places : ℤ) :
    ∃ before p after, parts = before ++ p :: after ∧ (∀ q ∈ parts, q ≤ p) ∧
      roundParts parts total places = before.map (quantize places) ++
        (quantize places p + residual parts total places) :: after.map (quantize places) := by
  obtain ⟨before, p, after, hsplit, hlength, hmax⟩ := exists_largest hne
  refine ⟨before, p, after, hsplit, hmax, ?_⟩
  have hrounded : parts.map (quantize places) =
      before.map (quantize places) ++ quantize places p :: after.map (quantize places) := by
    rw [hsplit, List.map_append, List.map_cons]
  have hnonempty : parts.map (quantize places) ≠ [] := fun h => hne (List.map_eq_nil_iff.mp h)
  unfold roundParts
  dsimp only
  rw [if_neg hnonempty]
  change (if residual parts total places ≠ 0 then
    (parts.map (quantize places)).modify (largest parts) (· + residual parts total places)
    else parts.map (quantize places)) = _
  split
  · rw [hrounded, ← hlength]
    have hlen : before.length = (before.map (quantize places)).length := by rw [List.length_map]
    rw [hlen]
    exact modify_append_cons _ _ _ _
  · rename_i hzero
    rw [hrounded, not_not.mp hzero, add_zero]

section

variable {before after : List ℚ} {p total : ℚ} {places : ℤ}

theorem sum_split (x : ℚ) :
    (before.map (quantize places) ++ x :: after.map (quantize places)).sum =
      ((before ++ after).map (quantize places)).sum + x := by
  rw [List.sum_append, List.sum_cons, List.map_append, List.sum_append]
  ring

theorem residual_split :
    quantize places p + residual (before ++ p :: after) total places =
      quantize places total - ((before ++ after).map (quantize places)).sum := by
  have hsum := @sum_split before after places (quantize places p)
  rw [residual, List.map_append, List.map_cons, hsum]
  ring

/-- The adjusted part is off by half a unit for each part at most. -/
theorem abs_adjusted_sub_le (htotal : total = (before ++ p :: after).sum) :
    |quantize places total - ((before ++ after).map (quantize places)).sum - p| ≤
      (before ++ p :: after).length * (quantum places / 2) := by
  have hone := abs_quantize_sub_le places total
  have hothers := @abs_sum_quantize_sub_le places (before ++ after)
  have hp : p = total - (before ++ after).sum := by
    rw [htotal, List.sum_append, List.sum_cons, List.sum_append]
    ring
  have hcount : ((before ++ p :: after).length : ℚ) = 1 + (before ++ after).length := by
    simp only [List.length_append, List.length_cons]
    push_cast
    ring
  -- it is the error of the total less that of the other parts
  have hdiff : quantize places total - ((before ++ after).map (quantize places)).sum - p =
      (quantize places total - total) -
        (((before ++ after).map (quantize places)).sum - (before ++ after).sum) := by
    rw [hp]
    ring
  rw [hdiff, hcount]
  calc |(quantize places total - total) -
        (((before ++ after).map (quantize places)).sum - (before ++ after).sum)|
      ≤ |quantize places total - total| +
        |((before ++ after).map (quantize places)).sum - (before ++ after).sum| := abs_sub _ _
    _ ≤ quantum places / 2 + (before ++ after).length * (quantum places / 2) :=
        add_le_add hone hothers
    _ = (1 + (before ++ after).length) * (quantum places / 2) := by ring

end

/-! ## Shares -/

section

variable {parts : List ℚ}

/-- The relative error of a division. -/
def relativeError : ℚ := 10 ^ (-27 : ℤ) / 2

theorem percentage_nonneg {whole p : ℚ} (hwhole : 0 ≤ whole) (hp : 0 ≤ p) :
    0 ≤ percentage whole p :=
  mul_nonneg (toPrecision_nonneg _ (div_nonneg hp hwhole)) (by norm_num)

theorem percentage_le {whole p : ℚ} (hwhole : 0 ≤ whole) (hp : 0 ≤ p) :
    |percentage whole p - p / whole * 100| ≤ p / whole * (100 * relativeError) := by
  have herror := abs_toPrecision_sub_le precision (p / whole)
  rw [abs_of_nonneg (div_nonneg hp hwhole)] at herror
  rw [percentage, ← sub_mul, abs_mul, abs_of_pos (by norm_num : (0 : ℚ) < 100)]
  have hprecision : (10 : ℚ) ^ (1 - (precision : ℤ)) / 2 = relativeError := by
    norm_num [precision, relativeError]
  rw [hprecision] at herror
  linarith

/-- The shares before they are rounded to their places add up to a hundred, but for the error of
the divisions. -/
theorem abs_sum_percentage_sub_le (hnonneg : ∀ p ∈ parts, 0 ≤ p) {whole : ℚ} (hwhole : 0 ≤ whole) :
    |(parts.map (percentage whole)).sum - parts.sum / whole * 100| ≤
      parts.sum / whole * (100 * relativeError) := by
  induction parts with
  | nil => simp
  | cons p parts ih =>
    have hp := percentage_le hwhole (hnonneg p List.mem_cons_self)
    have hrest := ih fun q hq => hnonneg q (List.mem_cons_of_mem _ hq)
    rw [List.map_cons, List.sum_cons, List.sum_cons, add_div, add_mul, add_mul, add_sub_add_comm]
    exact (abs_add_le _ _).trans (add_le_add hp hrest)

/-- With few parts for the number of places, the others leave something for a largest share. -/
theorem sum_others_le {before after : List ℚ} {p : ℚ} {places : ℤ} {n : Nat}
    (hn : n = (before ++ p :: after).length)
    (hsum : |(before ++ p :: after).sum - 100| ≤ 100 * relativeError)
    (hmax : ∀ q ∈ before ++ p :: after, q ≤ p)
    (hfew : (n : ℚ) ^ 2 * quantum places ≤ 100) (hbound : n ≤ 10 ^ 20) :
    ((before ++ after).map (quantize places)).sum ≤ 100 := by
  have hothers := (abs_le.mp (@abs_sum_quantize_sub_le places (before ++ after))).2
  obtain ⟨hlow, hhigh⟩ := abs_le.mp hsum
  have hsplit : (before ++ p :: after).sum = (before ++ after).sum + p := by
    rw [List.sum_append, List.sum_cons, List.sum_append]
    ring
  have hcount : (n : ℚ) = 1 + (before ++ after).length := by
    rw [hn]
    simp only [List.length_append, List.length_cons]
    push_cast
    ring
  -- the largest of `n` shares is at least their mean
  have hmean : (before ++ p :: after).sum ≤ n * p := by
    have hle := List.sum_le_card_nsmul _ p hmax
    rwa [nsmul_eq_mul, ← hn] at hle
  have hone : (1 : ℚ) ≤ n := by
    rw [hcount]
    linarith [(Nat.cast_nonneg (before ++ after).length : (0 : ℚ) ≤ _)]
  have hpos := quantum_pos places
  have hbound' : (n : ℚ) ≤ 10 ^ 20 := by exact_mod_cast hbound
  have herror : relativeError = 1 / (2 * 10 ^ 27) := by norm_num [relativeError]
  rw [herror] at hlow hhigh
  have hlength : ((before ++ after).length : ℚ) = n - 1 := by linarith
  rw [hlength] at hothers
  have hrounding : n * ((n - 1) * (quantum places / 2)) ≤ 50 := by
    have hsmaller : (n : ℚ) * (n - 1) ≤ n ^ 2 := by linarith [sq (n : ℚ)]
    have := mul_le_mul_of_nonneg_right hsmaller hpos.le
    linarith
  have hdivisions : n * ((before ++ p :: after).sum - 100) ≤ 1 := by
    have := mul_le_mul_of_nonneg_left hhigh (by linarith : (0 : ℚ) ≤ n)
    linarith
  -- the mean leaves the others `n - 1` parts of a hundred, and the errors are less than the last
  have hscaled : n * ((before ++ after).map (quantize places)).sum ≤ n * 100 :=
    calc n * ((before ++ after).map (quantize places)).sum
        ≤ n * ((before ++ after).sum + (n - 1) * (quantum places / 2)) :=
          mul_le_mul_of_nonneg_left (by linarith) (by linarith)
      _ = n * (before ++ p :: after).sum - n * p + n * ((n - 1) * (quantum places / 2)) := by
          rw [hsplit]
          ring
      _ ≤ n * 100 := by linarith
  exact le_of_mul_le_mul_left hscaled (by linarith)

theorem sum_roundParts (hne : parts ≠ []) (total : ℚ) (places : ℤ) :
    (roundParts parts total places).sum = quantize places total := by
  obtain ⟨before, p, after, rfl, -, hresult⟩ := roundParts_split hne total places
  rw [hresult, sum_split, residual_split]
  ring

/-- What is rounded and what is adjusted of the parts. -/
theorem roundParts_spec (hne : parts ≠ []) (total : ℚ) (places : ℤ) :
    ∃ before p after adjusted, parts = before ++ p :: after ∧ (∀ q ∈ parts, q ≤ p) ∧
      roundParts parts total places =
        before.map (quantize places) ++ adjusted :: after.map (quantize places) ∧
      (total = parts.sum → |adjusted - p| ≤ parts.length * (quantum places / 2)) := by
  obtain ⟨before, p, after, rfl, hmax, hresult⟩ := roundParts_split hne total places
  rw [residual_split] at hresult
  exact ⟨before, p, after, _, rfl, hmax, hresult, abs_adjusted_sub_le⟩

/-- What is rounded and what is adjusted of the shares. -/
theorem roundShares_spec (hnonneg : ∀ p ∈ parts, 0 ≤ p) (hsum : parts.sum ≠ 0) (places : ℤ) :
    ∃ before share after adjusted,
      parts.map (percentage parts.sum) = before ++ share :: after ∧
      (∀ s ∈ before ++ share :: after, s ≤ share) ∧
      roundShares parts places =
        before.map (quantize places) ++ adjusted :: after.map (quantize places) ∧
      (∀ s ∈ before.map (quantize places) ++ after.map (quantize places), 0 ≤ s) ∧
      (-2 ≤ places → (roundShares parts places).sum = 100 ∧
        (0 ≤ adjusted ↔
          (before.map (quantize places) ++ after.map (quantize places)).sum ≤ 100)) ∧
      ((parts.length : ℚ) ^ 2 * quantum places ≤ 100 → parts.length ≤ 10 ^ 20 →
        -2 ≤ places → 0 ≤ adjusted) := by
  have hwhole : 0 < parts.sum := lt_of_le_of_ne (List.sum_nonneg hnonneg) (Ne.symm hsum)
  have hne : parts.map (percentage parts.sum) ≠ [] := by
    intro hnil
    rw [List.map_eq_nil_iff.mp hnil] at hsum
    exact hsum rfl
  have hshares : ∀ s ∈ parts.map (percentage parts.sum), 0 ≤ s := by
    intro s hs
    obtain ⟨p, hp, rfl⟩ := List.mem_map.mp hs
    exact percentage_nonneg hwhole.le (hnonneg p hp)
  have hround : roundShares parts places =
      roundParts (parts.map (percentage parts.sum)) 100 places := if_neg hsum
  obtain ⟨before, share, after, hsplit, hmax, hresult⟩ := roundParts_split hne 100 places
  rw [hsplit] at hshares hmax
  have hadjusted : quantize places share + residual (parts.map (percentage parts.sum)) 100 places =
      quantize places 100 - ((before ++ after).map (quantize places)).sum := by
    rw [hsplit, residual_split]
  rw [hadjusted] at hresult
  refine ⟨before, share, after, _, hsplit, hmax, hround.trans hresult, ?_,
    fun hplaces => ⟨?_, ?_⟩, ?_⟩
  · intro s hs
    rw [← List.map_append] at hs
    obtain ⟨q, hq, rfl⟩ := List.mem_map.mp hs
    refine quantize_nonneg (hshares q ?_)
    obtain hq | hq := List.mem_append.mp hq
    · exact List.mem_append_left _ hq
    · exact List.mem_append_right _ (List.mem_cons_of_mem _ hq)
  · rw [hround, sum_roundParts hne, quantize_hundred hplaces]
  · rw [quantize_hundred hplaces, ← List.map_append, sub_nonneg]
  · intro hfew hbound hplaces
    have herror := abs_sum_percentage_sub_le hnonneg hwhole.le
    rw [div_self hwhole.ne', one_mul, one_mul, hsplit] at herror
    have hcount : parts.length = (before ++ share :: after).length := by
      rw [← hsplit, List.length_map]
    rw [quantize_hundred hplaces, sub_nonneg]
    exact sum_others_le hcount herror hmax hfew hbound

/-- **Rounded breakdowns add up.** Rounded parts sum to the rounded total, all but one are rounded
as they are, and the one is off by half a unit for each part at most. Shares sum to a hundred, and
all but one are not negative; nor is the one, unless the others are more than a hundred, which few
parts never are. -/
theorem rounded_breakdowns (parts : List ℚ) (places : ℤ) :
    (parts ≠ [] → ∀ total, (roundParts parts total places).sum = quantize places total ∧
      ∃ before p after adjusted, parts = before ++ p :: after ∧ (∀ q ∈ parts, q ≤ p) ∧
        roundParts parts total places =
          before.map (quantize places) ++ adjusted :: after.map (quantize places) ∧
        (total = parts.sum → |adjusted - p| ≤ parts.length * (quantum places / 2))) ∧
    ((∀ p ∈ parts, 0 ≤ p) →
      (parts.sum = 0 → roundShares parts places = parts.map fun _ => 0) ∧
      (parts.sum ≠ 0 → ∃ before share after adjusted,
        parts.map (percentage parts.sum) = before ++ share :: after ∧
        (∀ s ∈ before ++ share :: after, s ≤ share) ∧
        roundShares parts places =
          before.map (quantize places) ++ adjusted :: after.map (quantize places) ∧
        (∀ s ∈ before.map (quantize places) ++ after.map (quantize places), 0 ≤ s) ∧
        (-2 ≤ places → (roundShares parts places).sum = 100 ∧
          (0 ≤ adjusted ↔
            (before.map (quantize places) ++ after.map (quantize places)).sum ≤ 100)) ∧
        ((parts.length : ℚ) ^ 2 * quantum places ≤ 100 → parts.length ≤ 10 ^ 20 →
          -2 ≤ places → 0 ≤ adjusted))) := by
  refine ⟨fun hne total => ⟨sum_roundParts hne total places, roundParts_spec hne total places⟩,
    fun hnonneg => ⟨fun hzero => ?_, fun hsum => roundShares_spec hnonneg hsum places⟩⟩
  rw [roundShares, if_pos hzero, quantize_zero]

/-- Three equal costs, and three equal shares. -/
theorem thirds_add_up : (roundShares [1, 1, 1] 2).sum = 100 := by
  obtain ⟨-, hshares⟩ := rounded_breakdowns [1, 1, 1] 2
  obtain ⟨_, _, _, _, -, -, -, -, hsum, -⟩ := (hshares (by simp)).2 (by norm_num)
  exact (hsum (by norm_num)).1

/-- A hundred and sixty equal parts: 0.625 percent each are 0.63, which is 0.8 too much. -/
theorem negative_share : (roundShares (List.replicate 160 1) 2).head? = some (-17 / 100) ∧
    ¬∀ s ∈ roundShares (List.replicate 160 1) 2, 0 ≤ s := by
  have hhead : (roundShares (List.replicate 160 1) 2).head? = some (-17 / 100) := by
    decide +kernel
  exact ⟨hhead, fun h => absurd (h _ (List.mem_of_head? hhead)) (by norm_num)⟩

end

end Ai4iCore.Usage.RoundedParts
