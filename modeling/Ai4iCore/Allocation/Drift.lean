import Ai4iCore.Allocation.Writes

/-!
# What a key counts for

Creating a key is checked on percentages: a key of an Application with the budget `B`
counts with `percentage / 100 * B`, which differs from the key's own budget by what was
rounded off. `Drifts` bounds that difference by a hundredth of a percent of `B` and half a
cent. Every way a share is written keeps within it: converting a row, deriving one from
the other on creation, and recomputing the percentages when the Application was resized.
-/

namespace Ai4iCore.Allocation

open Checked Rounding

/-- The reservation of a key in `_committed_total_for_application`. -/
def reservation (share : Share) (budget : ℚ) : ℚ :=
  match share.allocatedPercentage with
  | some percentage => percentage / 100 * budget
  | none => share.amount

/-- The budget of a key is at most what it counts for and what was rounded off. -/
def Drifts (budget : ℚ) (share : Share) : Prop :=
  share.amount ≤ reservation share budget + (budget / 10000 + 1 / 200)

section Drift

variable {budget : ℚ}

theorem convert_drifts {id : Nat} {allocation : AllocationValue} {amount percentage : ℚ}
    (hbudget : 0 < budget)
    (h : convert (explicitInput id allocation) budget = .ok (amount, percentage)) :
    Drifts budget ⟨some percentage, some amount⟩ := by
  show amount ≤ percentage / 100 * budget + (budget / 10000 + 1 / 200)
  unfold explicitInput at h
  cases htype : allocation.type with
  | percentage =>
    rw [htype] at h
    obtain ⟨rfl, rfl⟩ := Prod.mk.inj (Except.ok.inj h)
    have hround := nearest_halfUp.quantize_le
      (budget * quantize halfUp allocation.value / 100)
    linarith
  | fixed =>
    rw [htype] at h
    obtain ⟨rfl, rfl⟩ := Prod.mk.inj (Except.ok.inj h)
    have hround := nearest_halfUp.quantize_ge
      (quantize halfUp allocation.value / budget * 100)
    rw [if_neg hbudget.ne']
    have hscaled := mul_le_mul_of_nonneg_right hround (le_of_lt hbudget)
    have hcancel : quantize halfUp allocation.value / budget * 100 * budget =
        quantize halfUp allocation.value * 100 := by
      field_simp
    rw [sub_mul, hcancel] at hscaled
    linarith

/-- The percentages `_recompute_unlisted_percentages` hands out are at most a hundredth
below the true shares. `target - running` is what is left for the rest of the list. -/
theorem residualPercentages_ge (hbudget : 0 < budget) {target : ℚ} {l : List (Nat × Share)}
    (hids : (l.map Prod.fst).Nodup) (hnonneg : ∀ e ∈ l, 0 ≤ e.2.amount) {running : ℚ}
    (hleft : (l.map fun e => e.2.amount / budget * 100).sum - 1 / 200 ≤ target - running) :
    ∀ e ∈ l, ∃ percentage,
      (residualPercentages budget target running l).get? e.1 = some percentage ∧
        e.2.amount / budget * 100 - 1 / 100 ≤ percentage := by
  have hshare : ∀ e ∈ l, 0 ≤ e.2.amount / budget * 100 := fun e he =>
    mul_nonneg (div_nonneg (hnonneg e he) (le_of_lt hbudget)) (by norm_num)
  fun_induction residualPercentages budget target running l with
  | case1 => exact fun e he => absurd he List.not_mem_nil
  | case2 running e =>
    intro e' he'
    obtain rfl := List.mem_singleton.mp he'
    refine ⟨target - running, by simp [Dict.get?], ?_⟩
    rw [List.map_cons, List.map_nil, List.sum_singleton] at hleft
    linarith
  | case3 running e e' rest percentage ih =>
    intro x hx
    rw [List.map_cons, List.nodup_cons] at hids
    have hdown : percentage ≤ e.2.amount / budget * 100 :=
      quantize_down_le (hshare e List.mem_cons_self)
    obtain rfl | hx := List.mem_cons.mp hx
    · exact ⟨percentage, by simp [Dict.get?], quantize_down_ge (hshare x List.mem_cons_self)⟩
    · rw [List.map_cons, List.sum_cons] at hleft
      obtain ⟨p, hp, hge⟩ := ih hids.2 (fun y hy => hnonneg y (List.mem_cons_of_mem e hy))
        (by linarith) (fun y hy => hshare y (List.mem_cons_of_mem e hy)) x hx
      refine ⟨p, ?_, hge⟩
      have hne : e.1 ≠ x.1 := fun heq => hids.1 (heq ▸ List.mem_map_of_mem hx)
      rw [Dict.get?, List.find?_cons]
      simp only [hne, decide_false]
      exact hp

/-- A child without an amount has no share. -/
theorem sum_funded (budget : ℚ) (entities : List (Nat × Share)) :
    ((entities.filter fun e => e.2.amount ≠ 0).map fun e => e.2.amount / budget * 100).sum =
      (entities.map fun e => e.2.amount).sum / budget * 100 := by
  induction entities with
  | nil => simp
  | cons x l ih =>
    rw [List.map_cons, List.sum_cons, add_div, add_mul, ← ih]
    by_cases hx : x.2.amount = 0
    · rw [List.filter_cons_of_neg (by simpa using hx), hx]
      simp
    · rw [List.filter_cons_of_pos (by simpa using hx), List.map_cons, List.sum_cons]

/-- A key that is recomputed gets a percentage at most a hundredth below its share. -/
theorem recomputeUnlistedPercentages_ge (hbudget : 0 < budget) {entities : List (Nat × Share)}
    (hids : (entities.map Prod.fst).Nodup) (hnonneg : ∀ e ∈ entities, 0 ≤ e.2.amount)
    {e : Nat × Share} (he : e ∈ entities) (hfunded : e.2.amount ≠ 0) :
    ∃ percentage, (recomputeUnlistedPercentages budget entities).get? e.1 = some percentage ∧
      e.2.amount / budget * 100 - 1 / 100 ≤ percentage := by
  unfold recomputeUnlistedPercentages
  rw [if_neg hbudget.ne']
  refine residualPercentages_ge hbudget (hids.sublist (List.filter_sublist.map _))
    (fun x hx => hnonneg x (List.mem_filter.mp hx).1) ?_ e
    (List.mem_filter.mpr ⟨he, by simpa using hfunded⟩)
  have hround := nearest_halfUp.quantize_ge
    ((entities.map fun e => e.2.amount).sum / budget * 100)
  rw [sum_funded]
  linarith

/-- The entry a percentage was computed for is the one with a budget. -/
theorem recomputeUnlistedPercentages_funded {entities : List (Nat × Share)}
    (hids : (entities.map Prod.fst).Nodup) {e : Nat × Share} (he : e ∈ entities) {percentage : ℚ}
    (h : (recomputeUnlistedPercentages budget entities).get? e.1 = some percentage) :
    e.2.amount ≠ 0 := by
  have hmem : e.1 ∈ (entities.filter fun e => e.2.amount ≠ 0).map Prod.fst := by
    rw [← recomputeUnlistedPercentages_ids budget]
    exact List.mem_map_of_mem (Dict.mem_of_get? h)
  obtain ⟨x, hx, hxid⟩ := List.mem_map.mp hmem
  obtain ⟨hxmem, hxfunded⟩ := List.mem_filter.mp hx
  obtain rfl := List.inj_on_of_nodup_map hids hxmem he hxid
  simpa using hxfunded

/-- A percentage is at most a hundredth below zero: the last of a recomputation takes what
is left. -/
def Share.AlmostNonneg (share : Share) : Prop :=
  ∀ percentage, share.allocatedPercentage = some percentage → -(1 / 100) ≤ percentage

theorem drifts_of_amount_eq_zero (hbudget : 0 ≤ budget) {share : Share}
    (hzero : share.amount = 0) (hpercentage : share.AlmostNonneg) : Drifts budget share := by
  unfold Drifts reservation
  rw [hzero]
  cases hp : share.allocatedPercentage with
  | none =>
    show (0 : ℚ) ≤ 0 + _
    linarith
  | some percentage =>
    have hscaled := mul_le_mul_of_nonneg_right (hpercentage percentage hp) hbudget
    show 0 ≤ percentage / 100 * budget + _
    linarith

/-- Recomputing a share against a positive budget. -/
theorem recompute_drifts (hbudget : 0 < budget) {entities : List (Nat × Share)}
    (hids : (entities.map Prod.fst).Nodup) (hnonneg : ∀ e ∈ entities, 0 ≤ e.2.amount)
    {e : Nat × Share} (he : e ∈ entities) (hpercentage : e.2.AlmostNonneg) :
    Drifts budget (e.2.recompute (recomputeUnlistedPercentages budget entities) e.1) := by
  by_cases hfunded : e.2.amount = 0
  · have hnone : (recomputeUnlistedPercentages budget entities).get? e.1 = none := by
      cases hget : (recomputeUnlistedPercentages budget entities).get? e.1 with
      | none => rfl
      | some percentage =>
        exact absurd hfunded (recomputeUnlistedPercentages_funded hids he hget)
    unfold Share.recompute
    rw [hnone]
    exact drifts_of_amount_eq_zero (le_of_lt hbudget) hfunded hpercentage
  · obtain ⟨percentage, hget, hge⟩ :=
      recomputeUnlistedPercentages_ge hbudget hids hnonneg he hfunded
    have hscaled := mul_le_mul_of_nonneg_right hge (le_of_lt hbudget)
    have hcancel : e.2.amount / budget * 100 * budget = e.2.amount * 100 := by
      field_simp
    rw [sub_mul, hcancel] at hscaled
    unfold Share.recompute
    rw [hget]
    dsimp only
    split
    · show e.2.amount ≤ percentage / 100 * budget + _
      linarith
    · rename_i hsame
      unfold Drifts reservation
      cases hp : e.2.allocatedPercentage with
      | none =>
        show e.2.amount ≤ e.2.amount + _
        linarith
      | some q =>
        rw [hp] at hsame
        have hq : percentage = q := not_not.mp hsame
        show e.2.amount ≤ q / 100 * budget + _
        rw [← hq]
        linarith

theorem recompute_almostNonneg (hbudget : 0 ≤ budget) {entities : List (Nat × Share)}
    (hids : (entities.map Prod.fst).Nodup) (hnonneg : ∀ e ∈ entities, 0 ≤ e.2.amount)
    {e : Nat × Share} (he : e ∈ entities) (hpercentage : e.2.AlmostNonneg) :
    (e.2.recompute (recomputeUnlistedPercentages budget entities) e.1).AlmostNonneg := by
  unfold Share.recompute
  cases hget : (recomputeUnlistedPercentages budget entities).get? e.1 with
  | none => exact hpercentage
  | some percentage =>
    have hge : -(1 / 100) ≤ percentage := by
      obtain hzero | hpos := hbudget.eq_or_lt
      · unfold recomputeUnlistedPercentages at hget
        rw [if_pos hzero.symm] at hget
        obtain ⟨x, -, hx⟩ := List.mem_map.mp (Dict.mem_of_get? hget)
        rw [← (Prod.mk.inj hx).2]
        norm_num
      · obtain ⟨p, hp, hle⟩ := recomputeUnlistedPercentages_ge hpos hids hnonneg he
          (recomputeUnlistedPercentages_funded hids he hget)
        obtain rfl := Option.some.inj (hget.symm.trans hp)
        have := mul_nonneg (div_nonneg (hnonneg e he) (le_of_lt hpos)) (by norm_num : (0 : ℚ) ≤ 100)
        linarith
    dsimp only
    split
    · intro q hq
      exact Option.some.inj hq ▸ hge
    · exact hpercentage

end Drift

end Ai4iCore.Allocation
