import Ai4iCore.Allocation.Drift

/-!
# Percentages after a resize

`_recompute_unlisted_percentages` derives the percentages of the children of a resized parent
again from their rupees. Every child but the last gets its share rounded down, the last one what
is left of the rounded total. What is left is a whole number of hundredths and at most half a
hundredth below what is left of the true shares, so it is not negative; and it is above it by at
most a hundredth for every child before (`recomputed_fair`).
-/

namespace Ai4iCore.Allocation

open Checked Rounding

/-- The share of a child in its parent, in percent. -/
def trueShare (parent : ℚ) (e : Nat × Share) : ℚ := e.2.amount / parent * 100

section Residual

variable {parent target : ℚ}

/-- The percentages that are handed out are what is left of the target. -/
theorem residualPercentages_sum {l : List (Nat × Share)} (hl : l ≠ []) (running : ℚ) :
    ((residualPercentages parent target running l).map Prod.snd).sum = target - running := by
  fun_induction residualPercentages parent target running l with
  | case1 => exact absurd rfl hl
  | case2 running e => simp
  | case3 running e e' rest percentage ih =>
    rw [List.map_cons, List.sum_cons, ih (List.cons_ne_nil _ _)]
    ring

/-- What one child is given for its share. -/
structure Fair (parent error : ℚ) (e : Nat × Share) (given : Nat × ℚ) : Prop where
  id : given.1 = e.1
  nonneg : 0 ≤ given.2
  close : |given.2 - trueShare parent e| ≤ error

/-- A share that is rounded down. -/
theorem fair_down {e : Nat × Share} {error : ℚ} (hshare : 0 ≤ trueShare parent e)
    (herror : 1 / 100 ≤ error) : Fair parent error e (e.1, quantize down (trueShare parent e)) := by
  have hlow := quantize_down_ge hshare
  have hhigh := quantize_down_le hshare
  constructor
  · rfl
  · exact quantize_nonneg down_nonneg hshare
  · rw [abs_le]
    constructor <;> linarith

/-- `left` bounds by how much the rounding so far has left more than the rest is due. -/
theorem residualPercentages_fair {l : List (Nat × Share)} {running left : ℚ}
    (hshare : ∀ e ∈ l, 0 ≤ trueShare parent e) (hleft : 0 ≤ left)
    (hscale : HasScale 2 (target - running))
    (hlow : (l.map (trueShare parent)).sum - 1 / 200 ≤ target - running)
    (hhigh : target - running ≤ (l.map (trueShare parent)).sum + 1 / 200 + left) :
    List.Forall₂ (Fair parent (left + l.length / 100)) l
      (residualPercentages parent target running l) := by
  fun_induction residualPercentages parent target running l generalizing left with
  | case1 => exact .nil
  | case2 running e =>
    have he := hshare e List.mem_cons_self
    rw [List.map_cons, List.map_nil, List.sum_singleton] at hlow hhigh
    refine .cons ⟨rfl, hscale.nonneg_of_gt (by linarith), ?_⟩ .nil
    rw [abs_le, List.length_singleton]
    constructor <;> (push_cast; linarith)
  | case3 running e e' rest percentage =>
    rename_i ih
    have he := hshare e List.mem_cons_self
    have hdown := quantize_down_ge he
    have hup := quantize_down_le he
    rw [List.map_cons, List.sum_cons] at hlow hhigh
    have hlength : (0 : ℚ) ≤ (e' :: rest).length := Nat.cast_nonneg _
    have herror : left + 1 / 100 + ((e' :: rest).length : ℚ) / 100 =
        left + ((e :: e' :: rest).length : ℚ) / 100 := by
      rw [List.length_cons (a := e)]
      push_cast
      ring
    refine .cons (fair_down he ?_) ?_
    · rw [← herror]
      linarith [div_nonneg hlength (by norm_num : (0 : ℚ) ≤ 100)]
    · rw [← herror]
      -- rounding this share down leaves at most a hundredth more for the others
      refine ih (fun x hx => hshare x (List.mem_cons_of_mem _ hx)) (by linarith) ?_ ?_ ?_
      · rw [← sub_sub]
        exact hscale.sub (hasScale_quantize down _)
      · show _ ≤ target - (running + quantize down (trueShare parent e))
        linarith
      · show target - (running + quantize down (trueShare parent e)) ≤ _
        linarith

end Residual

section Recomputed

variable {parent : ℚ} {entities : List (Nat × Share)}

/-- The children that have an amount get a fair percentage each. -/
theorem recomputeUnlistedPercentages_fair (hparent : 0 < parent)
    (hnonneg : ∀ e ∈ entities, 0 ≤ e.2.amount) :
    List.Forall₂ (Fair parent (entities.length / 100))
      (entities.filter fun e => e.2.amount ≠ 0) (recomputeUnlistedPercentages parent entities) := by
  have hshare : ∀ e ∈ entities.filter (fun e => e.2.amount ≠ 0), 0 ≤ trueShare parent e := by
    intro e he
    have := hnonneg e (List.mem_filter.mp he).1
    unfold trueShare
    positivity
  have hsum : ((entities.filter fun e => e.2.amount ≠ 0).map (trueShare parent)).sum =
      (entities.map fun e => e.2.amount).sum / parent * 100 := sum_funded parent entities
  have hlow := nearest_halfUp.quantize_ge ((entities.map fun e => e.2.amount).sum / parent * 100)
  have hhigh := nearest_halfUp.quantize_le ((entities.map fun e => e.2.amount).sum / parent * 100)
  have hlength : ((entities.filter fun e => e.2.amount ≠ 0).length : ℚ) ≤ entities.length := by
    exact_mod_cast List.length_filter_le _ _
  unfold recomputeUnlistedPercentages
  rw [if_neg hparent.ne']
  refine (residualPercentages_fair hshare le_rfl ?_ ?_ ?_).imp fun e w h =>
    ⟨h.id, h.nonneg, h.close.trans ?_⟩
  · rw [sub_zero]
    exact hasScale_quantize halfUp _
  · rw [hsum, sub_zero]
    exact hlow
  · rw [hsum, sub_zero, add_zero]
    exact hhigh
  · linarith

/-- `_recompute_unlisted_percentages` with a positive new amount: what it computes, and what the
rows hold afterwards. -/
structure FairlyRecomputed (parent : ℚ) (entities : List (Nat × Share)) (written : Dict Nat ℚ) :
    Prop where
  nonneg : ∀ w ∈ written, 0 ≤ w.2
  total : (written.map Prod.snd).sum =
    quantize halfUp ((entities.map fun e => e.2.amount).sum / parent * 100)
  stored : ∀ e ∈ entities, e.2.amount ≠ 0 →
    written.get? e.1 = some ((e.2.recompute written e.1).allocatedPercentage.getD 0)
  close : ∀ e ∈ entities, e.2.amount ≠ 0 →
    |(e.2.recompute written e.1).allocatedPercentage.getD 0 - e.2.amount / parent * 100| ≤
      1 / 100 * entities.length
  untouched : ∀ e ∈ entities, e.2.amount = 0 →
    written.get? e.1 = none ∧ e.2.recompute written e.1 = e.2

/-- The percentages of the children of a resized parent are fair shares and add up. -/
theorem recomputed_fair (hparent : 0 < parent) (hids : (entities.map Prod.fst).Nodup)
    (hnonneg : ∀ e ∈ entities, 0 ≤ e.2.amount) :
    FairlyRecomputed parent entities (recomputeUnlistedPercentages parent entities) := by
  have hfair := recomputeUnlistedPercentages_fair hparent hnonneg
  have hkeys : ((recomputeUnlistedPercentages parent entities).map Prod.fst).Nodup := by
    rw [recomputeUnlistedPercentages_ids]
    exact hids.sublist (List.filter_sublist.map _)
  have hgiven : ∀ e ∈ entities, e.2.amount ≠ 0 → ∃ percentage,
      (recomputeUnlistedPercentages parent entities).get? e.1 = some percentage ∧
        |percentage - trueShare parent e| ≤ entities.length / 100 := by
    intro e he hfunded
    obtain ⟨w, hw, h⟩ :=
      exists_of_forall₂ hfair (List.mem_filter.mpr ⟨he, decide_eq_true hfunded⟩)
    exact ⟨w.2, h.id ▸ Dict.get?_of_mem hkeys hw, h.close⟩
  constructor
  case nonneg =>
    intro w hw
    obtain ⟨e, -, h⟩ := exists_of_forall₂ hfair.flip hw
    exact h.nonneg
  case total =>
    by_cases hfunded : (entities.filter fun e => e.2.amount ≠ 0) = []
    · have hsum := sum_funded parent entities
      have hempty : recomputeUnlistedPercentages parent entities = [] := by
        rw [hfunded] at hfair
        exact List.forall₂_nil_left_iff.mp hfair
      rw [hempty, ← hsum, hfunded]
      norm_num [quantize, halfUp]
    · unfold recomputeUnlistedPercentages
      rw [if_neg hparent.ne', residualPercentages_sum hfunded, sub_zero]
  case stored =>
    intro e he hfunded
    obtain ⟨percentage, hget, -⟩ := hgiven e he hfunded
    rw [recompute_percentage _ hget, hget]
  case close =>
    intro e he hfunded
    obtain ⟨percentage, hget, hclose⟩ := hgiven e he hfunded
    rw [recompute_percentage _ hget, one_div_mul_eq_div]
    exact hclose
  case untouched =>
    intro e he hzero
    have hnone : (recomputeUnlistedPercentages parent entities).get? e.1 = none := by
      cases hget : (recomputeUnlistedPercentages parent entities).get? e.1 with
      | none => rfl
      | some percentage =>
        exact absurd hzero (recomputeUnlistedPercentages_funded hids he hget)
    unfold Share.recompute
    rw [hnone]
    exact ⟨rfl, rfl⟩

/-- Two children with a rupee each under three rupees, and one that has only a percentage. -/
theorem recomputed_fair_thirds :
    FairlyRecomputed 3 [(1, ⟨some 10, some 1⟩), (2, ⟨none, some 1⟩), (3, ⟨some 5, none⟩)]
      (recomputeUnlistedPercentages 3
        [(1, ⟨some 10, some 1⟩), (2, ⟨none, some 1⟩), (3, ⟨some 5, none⟩)]) :=
  recomputed_fair (by norm_num) (by decide) (by
    intro e he
    simp only [List.mem_cons, List.not_mem_nil, or_false] at he
    obtain rfl | rfl | rfl := he <;> norm_num [Share.amount])

end Recomputed

end Ai4iCore.Allocation
