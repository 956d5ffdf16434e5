import Mathlib

/-!
# Tallies

Amounts are added to the entries of a list at indices. Every entry ends with what was added at its
index, and nothing is lost when all indices are in range.
-/

namespace Tally

variable {M : Type*} [AddCommMonoid M] {counts : List M} {amounts : List (Nat × M)}

def add (counts : List M) (amount : Nat × M) : List M :=
  counts.modify amount.1 fun count => count + amount.2

def addAll (counts : List M) (amounts : List (Nat × M)) : List M := amounts.foldl add counts

@[simp] theorem addAll_nil : addAll counts [] = counts := rfl

@[simp] theorem addAll_cons (amount : Nat × M) :
    addAll counts (amount :: amounts) = addAll (add counts amount) amounts := rfl

@[simp] theorem length_add (amount : Nat × M) : (add counts amount).length = counts.length :=
  List.length_modify _ _ _

@[simp] theorem length_addAll : (addAll counts amounts).length = counts.length := by
  induction amounts generalizing counts with
  | nil => rfl
  | cons amount amounts ih => rw [addAll_cons, ih, length_add]

/-- An entry has what is added at its index. -/
theorem getElem?_addAll (i : Nat) :
    (addAll counts amounts)[i]? = counts[i]?.map fun count =>
      count + ((amounts.filter fun a => a.1 = i).map Prod.snd).sum := by
  induction amounts generalizing counts with
  | nil => simp
  | cons amount amounts ih =>
    rw [addAll_cons, ih, add, List.getElem?_modify, List.filter_cons]
    by_cases hi : amount.1 = i
    · simp [hi, Function.comp_def, add_assoc]
    · simp [hi]

theorem sum_modify {x : M} {i : Nat} (hi : i < counts.length) :
    (counts.modify i fun count => count + x).sum = counts.sum + x := by
  induction counts generalizing i with
  | nil => exact absurd hi (Nat.not_lt_zero i)
  | cons count counts ih =>
    cases i with
    | zero => simp [add_right_comm]
    | succ i =>
      have hi : i < counts.length := Nat.lt_of_succ_lt_succ hi
      simp [ih hi, add_assoc]

/-- Nothing is lost. -/
theorem sum_addAll (h : ∀ a ∈ amounts, a.1 < counts.length) :
    (addAll counts amounts).sum = counts.sum + (amounts.map Prod.snd).sum := by
  induction amounts generalizing counts with
  | nil => simp
  | cons amount amounts ih =>
    have hhead := h amount List.mem_cons_self
    have htail : ∀ a ∈ amounts, a.1 < (add counts amount).length := by
      intro a ha
      rw [length_add]
      exact h a (List.mem_cons_of_mem _ ha)
    rw [addAll_cons, ih htail, add, sum_modify hhead, List.map_cons, List.sum_cons, add_assoc]

end Tally
