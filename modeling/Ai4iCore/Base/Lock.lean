import Mathlib.Logic.Function.Basic
import Mathlib.Logic.Relation
import Mathlib.Order.Defs.PartialOrder

/-!
# Row locks

Who holds the lock of which row. A transaction takes the lock of every row it reads for
update or writes, waits while another one holds it, and gives all its locks back at its
end. What a transaction knows of the rows it holds therefore stays true until then:
`take_of_held` and `release_of_held` carry the locks of the others through a step.

Transactions that take their locks in one order never wait for each other in a circle
(`not_waits_cycle`).
-/

universe u v

/-- The holder of each lock. -/
abbrev Locks (κ : Type u) := κ → Option Nat

namespace Locks

variable {κ : Type u} {locks : Locks κ} {i j : Nat} {k k' : κ}

/-- Transaction `i` does not have to wait for the lock of `k`. -/
def mayTake (locks : Locks κ) (i : Nat) (k : κ) : Bool :=
  locks k = none || locks k = some i

/-- Transaction `i` takes the lock of `k`. -/
def take [DecidableEq κ] (locks : Locks κ) (i : Nat) (k : κ) : Locks κ :=
  Function.update locks k (some i)

/-- Transaction `i` ends. -/
def release (locks : Locks κ) (i : Nat) : Locks κ :=
  fun k => if locks k = some i then none else locks k

theorem mayTake_iff : locks.mayTake i k = true ↔ locks k = none ∨ locks k = some i := by
  rw [mayTake, Bool.or_eq_true, decide_eq_true_eq, decide_eq_true_eq]

/-- The holder of a lock that `i` may take is `i`. -/
theorem eq_of_mayTake (hmay : locks.mayTake i k = true) (h : locks k = some j) : j = i := by
  obtain hnone | hsome := mayTake_iff.mp hmay
  · exact absurd (hnone.symm.trans h) (by simp)
  · exact Option.some.inj (h.symm.trans hsome)

theorem take_self [DecidableEq κ] (locks : Locks κ) (i : Nat) (k : κ) :
    locks.take i k k = some i := by
  rw [take, Function.update_self]

/-- A lock that is held stays held when `i` takes one that it may take. -/
theorem take_of_held [DecidableEq κ] (hmay : locks.mayTake i k = true) (h : locks k' = some j) :
    locks.take i k k' = some j := by
  by_cases hk : k' = k
  · subst hk
    rw [take_self, eq_of_mayTake hmay h]
  · rw [take, Function.update_of_ne hk]
    exact h

theorem release_of_held (h : locks k = some j) (hj : j ≠ i) : locks.release i k = some j := by
  have hne : locks k ≠ some i := fun hi => hj (Option.some.inj (h.symm.trans hi))
  rw [release, if_neg hne]
  exact h

/-- A lock that another transaction holds after `i` took one was held before. -/
theorem held_of_take [DecidableEq κ] (h : locks.take i k k' = some j) (hj : j ≠ i) :
    locks k' = some j := by
  by_cases hk : k' = k
  · subst hk
    rw [take_self] at h
    exact absurd (Option.some.inj h).symm hj
  · rw [take, Function.update_of_ne hk] at h
    exact h

theorem held_of_release (h : locks.release i k = some j) : locks k = some j := by
  unfold release at h
  split at h
  · cases h
  · exact h

theorem release_self (locks : Locks κ) (i : Nat) (k : κ) : locks.release i k ≠ some i := by
  unfold release
  split
  · intro h
    cases h
  · assumption

/-! ## Waiting -/

/-- Transaction `i` waits for `j`, which holds the lock that `i` wants next. -/
def Waits (locks : Locks κ) (wants : Nat → Option κ) (i j : Nat) : Prop :=
  ∃ k, wants i = some k ∧ locks k = some j

section Order

variable {ρ : Type v} [Preorder ρ] {rank : κ → ρ} {wants : Nat → Option κ}

/-- Along a chain of waiting transactions the wanted locks ascend. -/
theorem wants_lt_of_transGen
    (hordered : ∀ i k k', wants i = some k → locks k' = some i → rank k' < rank k)
    (h : Relation.TransGen (Waits locks wants) i j) :
    ∃ k, wants i = some k ∧ ∀ k', wants j = some k' → rank k < rank k' := by
  induction h with
  | single hwaits =>
    obtain ⟨k, hwants, hheld⟩ := hwaits
    exact ⟨k, hwants, fun k' hk' => hordered _ k' k hk' hheld⟩
  | tail _ hwaits ih =>
    obtain ⟨k, hwants, hlt⟩ := ih
    obtain ⟨m, hm, hheld⟩ := hwaits
    exact ⟨k, hwants, fun k' hk' => lt_trans (hlt m hm) (hordered _ k' m hk' hheld)⟩

/-- **No deadlock.** Transactions that only want locks above all those they hold do not wait for
each other in a circle. -/
theorem not_waits_cycle
    (hordered : ∀ i k k', wants i = some k → locks k' = some i → rank k' < rank k) (i : Nat) :
    ¬ Relation.TransGen (Waits locks wants) i i := by
  intro h
  obtain ⟨k, hwants, hlt⟩ := wants_lt_of_transGen hordered h
  exact lt_irrefl _ (hlt k hwants)

end Order

end Locks
