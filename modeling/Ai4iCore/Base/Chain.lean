import Mathlib.Data.List.Basic

/-!
# Chains of attempts

A task is given to one candidate after the other, each called in its turn, while the last result
asks for another attempt. Some of the candidates fall away before they are called.
-/

namespace Chain

variable {α β : Type}

/-- The candidates that are called, with their results. `none` is a candidate that falls away;
`call a n` is the result of the `n`-th call, to `a`. -/
def attempts (call : α → Nat → β) (again : β → Bool) : List (Option α) → Nat → List (α × β)
  | [], _ => []
  | none :: rest, n => attempts call again rest n
  | some a :: rest, n =>
    (a, call a n) :: if again (call a n) then attempts call again rest (n + 1) else []

variable {call : α → Nat → β} {again : β → Bool} {candidates : List (Option α)} {n : Nat}

theorem mem_candidates {p : α × β} (h : p ∈ attempts call again candidates n) :
    some p.1 ∈ candidates := by
  induction candidates generalizing n with
  | nil => cases h
  | cons c rest ih =>
    cases c with
    | none => exact List.mem_cons_of_mem _ (ih h)
    | some a =>
      rcases List.mem_cons.mp h with rfl | h
      · exact List.mem_cons_self
      · split at h
        · exact List.mem_cons_of_mem _ (ih h)
        · cases h

/-- The calls are numbered in their order. -/
theorem getElem?_attempts {k : Nat} {p : α × β}
    (h : (attempts call again candidates n)[k]? = some p) : p.2 = call p.1 (n + k) := by
  induction candidates generalizing n k with
  | nil => cases h
  | cons c rest ih =>
    cases c with
    | none => exact ih h
    | some a =>
      cases k with
      | zero =>
        obtain rfl := Option.some.inj h
        rfl
      | succ k =>
        rw [attempts, List.getElem?_cons_succ] at h
        split at h
        · rw [ih h, Nat.add_right_comm]
          rfl
        · cases h

/-- Every call but the last one asked for another attempt. -/
theorem again_of_mem_dropLast {p : α × β}
    (h : p ∈ (attempts call again candidates n).dropLast) : again p.2 = true := by
  induction candidates generalizing n with
  | nil => cases h
  | cons c rest ih =>
    cases c with
    | none => exact ih h
    | some a =>
      rw [attempts] at h
      split at h
      · rename_i hagain
        cases hrest : attempts call again rest (n + 1) with
        | nil =>
          rw [hrest] at h
          cases h
        | cons q qs =>
          rw [hrest, List.dropLast_cons_of_ne_nil (List.cons_ne_nil q qs), ← hrest] at h
          rcases List.mem_cons.mp h with rfl | h
          · exact hagain
          · exact ih h
      · cases h

end Chain
