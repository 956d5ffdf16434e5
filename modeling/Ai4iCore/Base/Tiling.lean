import Mathlib

/-!
# Blocks that tile the integers

Increasing bounds cut the integers into blocks, block `k` from `bound k` to before `bound (k + 1)`.
No integer is in two blocks, blocks of blocks are blocks, and blocks of one length are found by
division.
-/

namespace Tiling

/-- Block `k` holds `t`. -/
def Holds (bound : ℤ → ℤ) (k t : ℤ) : Prop := bound k ≤ t ∧ t < bound (k + 1)

section Bounds

variable {bound inner : ℤ → ℤ} {k k' t t' : ℤ}

theorem Holds.le (hmono : StrictMono bound) (h : Holds bound k t) (h' : Holds bound k' t')
    (hle : t ≤ t') : k ≤ k' := by
  have hlt : bound k < bound (k' + 1) := h.1.trans_lt (hle.trans_lt h'.2)
  have := hmono.lt_iff_lt.mp hlt
  omega

/-- **Blocks are disjoint.** -/
theorem Holds.unique (hmono : StrictMono bound) (h : Holds bound k t) (h' : Holds bound k' t) :
    k = k' :=
  le_antisymm (h.le hmono h' le_rfl) (h'.le hmono h le_rfl)

theorem holds_start (hmono : StrictMono bound) (k : ℤ) : Holds bound k (bound k) :=
  ⟨le_rfl, hmono (by omega)⟩

/-- Blocks of blocks. -/
theorem Holds.comp (hmono : StrictMono bound) (h : Holds bound k' t) (h' : Holds inner k k') :
    Holds (bound ∘ inner) k t :=
  ⟨(hmono.monotone h'.1).trans h.1, h.2.trans_le (hmono.monotone (Int.add_one_le_iff.mpr h'.2))⟩

end Bounds

/-! ## Blocks of one length -/

section Uniform

variable {length : ℤ}

theorem strictMono_uniform (origin : ℤ) (h : 0 < length) :
    StrictMono fun k : ℤ => origin + k * length := by
  intro k k' hlt
  have := Int.mul_lt_mul_of_pos_right hlt h
  dsimp only
  omega

theorem holds_uniform (origin t : ℤ) (h : 0 < length) :
    Holds (fun k : ℤ => origin + k * length) ((t - origin) / length) t := by
  have hlow := Int.ediv_mul_le (t - origin) h.ne'
  have hhigh := Int.lt_ediv_add_one_mul_self (t - origin) h
  constructor
  · dsimp only
    omega
  · dsimp only
    omega

end Uniform

end Tiling
