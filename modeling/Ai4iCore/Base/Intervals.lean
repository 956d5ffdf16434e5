import Mathlib.Data.List.Sort
import Mathlib.Order.MinMax

/-!
# Merging half-open intervals

Intervals `[start, stop)` in the order of their starts are merged one after the other into the
last of the merged ones, or put after it. The merged intervals cover what the intervals did
(`covered_merge`).
-/

namespace Intervals

universe u

variable {α : Type u} [LinearOrder α]

/-- Some of the intervals has the point. -/
def Covered (intervals : List (α × α)) (t : α) : Prop := ∃ i ∈ intervals, i.1 ≤ t ∧ t < i.2

instance (intervals : List (α × α)) (t : α) : Decidable (Covered intervals t) :=
  inferInstanceAs (Decidable (∃ i ∈ intervals, _))

/-- The next interval; the last of the merged ones comes first. -/
def absorb (merged : List (α × α)) (i : α × α) : List (α × α) :=
  match merged with
  | [] => [i]
  | last :: rest =>
    if i.1 ≤ last.2 then (last.1, max last.2 i.2) :: rest else i :: last :: rest

/-- The order of pairs. -/
def pairLe (i j : α × α) : Bool := i.1 < j.1 || (i.1 = j.1 && i.2 ≤ j.2)

def merge (intervals : List (α × α)) : List (α × α) :=
  (((intervals.filter fun i => i.1 < i.2).mergeSort pairLe).foldl absorb []).reverse

theorem covered_cons {i : α × α} {intervals : List (α × α)} {t : α} :
    Covered (i :: intervals) t ↔ (i.1 ≤ t ∧ t < i.2) ∨ Covered intervals t :=
  List.exists_mem_cons_iff _ _ _

theorem covered_absorb {merged : List (α × α)} {i : α × α} {t : α}
    (h : ∀ last ∈ merged, last.1 ≤ i.1) :
    Covered (absorb merged i) t ↔ Covered merged t ∨ (i.1 ≤ t ∧ t < i.2) := by
  cases merged with
  | nil => simp [absorb, Covered]
  | cons last rest =>
    have hstart := h last List.mem_cons_self
    unfold absorb
    dsimp only
    split
    · rename_i htouch
      rw [covered_cons, covered_cons]
      -- what the merged interval has is in one of the two
      have hboth : (last.1 ≤ t ∧ t < max last.2 i.2) ↔
          (last.1 ≤ t ∧ t < last.2) ∨ (i.1 ≤ t ∧ t < i.2) := by
        rw [lt_max_iff]
        constructor
        · rintro ⟨hlow, hhigh | hhigh⟩
          · exact .inl ⟨hlow, hhigh⟩
          · rcases lt_or_ge t last.2 with hlast | hlast
            · exact .inl ⟨hlow, hlast⟩
            · exact .inr ⟨htouch.trans hlast, hhigh⟩
        · rintro (⟨hlow, hhigh⟩ | ⟨hlow, hhigh⟩)
          · exact ⟨hlow, .inl hhigh⟩
          · exact ⟨hstart.trans hlow, .inr hhigh⟩
      show (last.1 ≤ t ∧ t < max last.2 i.2) ∨ Covered rest t ↔ _
      rw [hboth, or_right_comm]
    · rw [covered_cons, or_comm]

/-- The starts of the merged intervals are starts of the intervals. -/
theorem start_of_mem_absorb {merged : List (α × α)} {i j : α × α} (h : j ∈ absorb merged i) :
    j.1 = i.1 ∨ ∃ last ∈ merged, j.1 = last.1 := by
  unfold absorb at h
  split at h
  · exact .inl (congrArg Prod.fst (List.mem_singleton.mp h))
  · rename_i last rest
    split at h
    · rcases List.mem_cons.mp h with rfl | hrest
      · exact .inr ⟨last, List.mem_cons_self, rfl⟩
      · exact .inr ⟨j, List.mem_cons_of_mem _ hrest, rfl⟩
    · rcases List.mem_cons.mp h with rfl | hold
      · exact .inl rfl
      · exact .inr ⟨j, hold, rfl⟩

theorem covered_foldl {intervals merged : List (α × α)} {t : α}
    (hsorted : intervals.Pairwise fun i j => i.1 ≤ j.1)
    (hmerged : ∀ last ∈ merged, ∀ i ∈ intervals, last.1 ≤ i.1) :
    Covered (intervals.foldl absorb merged) t ↔ Covered merged t ∨ Covered intervals t := by
  induction intervals generalizing merged with
  | nil => simp [Covered]
  | cons i intervals ih =>
    obtain ⟨hfirst, hsorted⟩ := List.pairwise_cons.mp hsorted
    have hnext : ∀ last ∈ absorb merged i, ∀ j ∈ intervals, last.1 ≤ j.1 := by
      intro last hlast j hj
      rcases start_of_mem_absorb hlast with hstart | ⟨old, hold, hstart⟩
      · rw [hstart]
        exact hfirst j hj
      · rw [hstart]
        exact hmerged old hold j (List.mem_cons_of_mem _ hj)
    rw [List.foldl_cons, ih hsorted hnext,
      covered_absorb fun last hlast => hmerged last hlast i List.mem_cons_self, covered_cons,
      or_assoc]

theorem pairLe_iff {i j : α × α} : pairLe i j = true ↔ i.1 < j.1 ∨ (i.1 = j.1 ∧ i.2 ≤ j.2) := by
  simp only [pairLe, Bool.or_eq_true, decide_eq_true_eq, Bool.and_eq_true]

theorem pairLe_trans (i j k : α × α) (hij : pairLe i j = true) (hjk : pairLe j k = true) :
    pairLe i k = true := by
  rw [pairLe_iff] at *
  rcases hij with hij | ⟨hij, hij'⟩
  · rcases hjk with hjk | ⟨hjk, -⟩
    · exact .inl (hij.trans hjk)
    · exact .inl (hij.trans_eq hjk)
  · rcases hjk with hjk | ⟨hjk, hjk'⟩
    · exact .inl (hij.trans_lt hjk)
    · exact .inr ⟨hij.trans hjk, hij'.trans hjk'⟩

theorem pairLe_total (i j : α × α) : (pairLe i j || pairLe j i) = true := by
  rw [Bool.or_eq_true, pairLe_iff, pairLe_iff]
  rcases lt_trichotomy i.1 j.1 with h | h | h
  · exact .inl (.inl h)
  · rcases le_total i.2 j.2 with h' | h'
    · exact .inl (.inr ⟨h, h'⟩)
    · exact .inr (.inr ⟨h.symm, h'⟩)
  · exact .inr (.inl h)

theorem start_le_of_pairLe {i j : α × α} (h : pairLe i j = true) : i.1 ≤ j.1 := by
  rcases pairLe_iff.mp h with h | ⟨h, -⟩
  · exact h.le
  · exact h.le

/-- The merged intervals cover what the intervals did. -/
theorem covered_merge {intervals : List (α × α)} {t : α} :
    Covered (merge intervals) t ↔ Covered intervals t := by
  have hsorted : ((intervals.filter fun i => i.1 < i.2).mergeSort pairLe).Pairwise
      fun i j => i.1 ≤ j.1 :=
    (List.pairwise_mergeSort pairLe_trans pairLe_total _).imp start_le_of_pairLe
  have hreverse : Covered (merge intervals) t ↔
      Covered (((intervals.filter fun i => i.1 < i.2).mergeSort pairLe).foldl absorb []) t := by
    unfold Covered merge
    simp only [List.mem_reverse]
  have hnone : ¬ Covered ([] : List (α × α)) t := by simp [Covered]
  rw [hreverse, covered_foldl hsorted fun last hlast => absurd hlast List.not_mem_nil,
    or_iff_right hnone]
  constructor
  · rintro ⟨i, hi, ht⟩
    exact ⟨i, (List.mem_filter.mp (List.mem_mergeSort.mp hi)).1, ht⟩
  · rintro ⟨i, hi, ht⟩
    have hproper : decide (i.1 < i.2) = true := decide_eq_true (ht.1.trans_lt ht.2)
    exact ⟨i, List.mem_mergeSort.mpr (List.mem_filter.mpr ⟨hi, hproper⟩), ht⟩

end Intervals
