import Ai4iCore.Base.Pool

/-!
# One-shot resources

Some requests first *claim* a resource and then *use* it. When only one claim ever
succeeds, the resource is used once, however the requests are interleaved: this is a
matter of how the programs are written, and of the store that a claim changes for
good.

A program is in one of three positions: it still `Waits` for its claim, it `Holds`
the resource, or it is `Spent`. `OneShot.used_once` carries the positions of all
requests through a run.
-/

namespace Concurrent

open StepSystem

variable {S : Signature} {σ Env Req Out : Type}

namespace Prog

variable {α β : Type}

section Positions

variable (claim use : S.Op → Prop) (good : α → Prop)

/-- No use is left, and no good result. -/
def Spent : Prog S α → Prop
  | ret a => ¬ good a
  | raise _ => True
  | op o k => ¬ use o ∧ ∀ r, Spent (k r)

/-- At most one use is left, or a good result. -/
def Holds : Prog S α → Prop
  | ret _ => True
  | raise _ => True
  | op o k => (use o ∧ ∀ r, Spent use good (k r)) ∨ (¬ use o ∧ ∀ r, Holds (k r))

/-- There is no use and no good result before a claim has succeeded. -/
def Waits : Prog S α → Prop
  | ret a => ¬ good a
  | raise _ => True
  | op o k => ¬ use o ∧
    ((claim o ∧ Spent use good (k none) ∧ ∀ a, Holds use good (k (some a))) ∨
      (¬ claim o ∧ ∀ r, Waits (k r)))

end Positions

variable {claim use : S.Op → Prop} {good : α → Prop}

theorem Spent.holds {p : Prog S α} (h : Spent use good p) : Holds use good p := by
  induction p with
  | ret a => trivial
  | raise e => trivial
  | op o k ih => exact .inr ⟨h.1, fun r => ih r (h.2 r)⟩

theorem Spent.waits {p : Prog S α} (h : Spent use good p) : Waits claim use good p := by
  induction p with
  | ret a => exact h
  | raise e => trivial
  | op o k ih =>
    refine ⟨h.1, ?_⟩
    by_cases hclaim : claim o
    · exact .inl ⟨hclaim, h.2 none, fun a => (h.2 (some a)).holds⟩
    · exact .inr ⟨hclaim, fun r => ih r (h.2 r)⟩

/-- A program without uses whose results are never good. -/
theorem Only.spent {p : Prog S α} (h : Only (fun o => ¬ use o) p) (hgood : ∀ a, ¬ good a) :
    Spent use good p := by
  induction p with
  | ret a => exact hgood a
  | raise e => trivial
  | op o k ih => exact ⟨h.1, fun r => ih r (h.2 r)⟩

theorem spent_bind {p : Prog S β} {f : β → Prog S α} {any : β → Prop} (hp : Spent use any p)
    (hf : ∀ b, Spent use good (f b)) : Spent use good (p.bind f) := by
  induction p with
  | ret b => exact hf b
  | raise e => trivial
  | op o k ih => exact ⟨hp.1, fun r => ih r (hp.2 r)⟩

/-- The use is in the first part. -/
theorem holds_bind {p : Prog S β} {f : β → Prog S α} {any : β → Prop} (hp : Holds use any p)
    (hf : ∀ b, Spent use good (f b)) : Holds use good (p.bind f) := by
  induction p with
  | ret b => exact (hf b).holds
  | raise e => trivial
  | op o k ih =>
    obtain ⟨huse, hrest⟩ | ⟨huse, hrest⟩ := hp
    · exact .inl ⟨huse, fun r => spent_bind (hrest r) hf⟩
    · exact .inr ⟨huse, fun r => ih r (hrest r)⟩

/-- The use is in the second part. -/
theorem holds_bind_of_only {p : Prog S β} {f : β → Prog S α}
    (hp : Only (fun o => ¬ use o) p) (hf : ∀ b, Holds use good (f b)) :
    Holds use good (p.bind f) := by
  induction p with
  | ret b => exact hf b
  | raise e => trivial
  | op o k ih => exact .inr ⟨hp.1, fun r => ih r (hp.2 r)⟩

theorem holds_perform {o : S.Op} {f : S.Res o → Prog S α} (huse : use o)
    (hf : ∀ a, Spent use good (f a)) : Holds use good ((perform o).bind f) := by
  refine .inl ⟨huse, fun r => ?_⟩
  cases r with
  | none => trivial
  | some a => exact hf a

theorem waits_perform {o : S.Op} {f : S.Res o → Prog S α} (huse : ¬ use o)
    (hclaim : ¬ claim o) (hf : ∀ a, Waits claim use good (f a)) :
    Waits claim use good ((perform o).bind f) := by
  refine ⟨huse, .inr ⟨hclaim, fun r => ?_⟩⟩
  cases r with
  | none => trivial
  | some a => exact hf a

theorem waits_claim {o : S.Op} {f : S.Res o → Prog S α} (huse : ¬ use o) (hclaim : claim o)
    (hf : ∀ a, Holds use good (f a)) : Waits claim use good ((perform o).bind f) :=
  ⟨huse, .inl ⟨hclaim, trivial, hf⟩⟩

end Prog

/-- A resource of a service that can be claimed once. -/
structure OneShot (Y : System S σ Env Req Out) (A : Interference S σ) where
  /-- The operations that claim it. -/
  claim : S.Op → Prop
  /-- The operations that use it. -/
  use : S.Op → Prop
  /-- The answers that a request gives only after a claim. -/
  good : Req → Out → Prop
  /-- It was claimed, and cannot be claimed again. -/
  claimed : σ → Prop
  /-- The number of uses so far. -/
  uses : σ → Nat
  /-- What is known of the store. -/
  inv : σ → Prop
  code_waits : ∀ r, Prog.Waits claim use (good r) (Y.code r)
  inv_op : ∀ s o, A.allowed s o → inv s → inv (Y.exec o s).1
  inv_env : ∀ s e t, Y.env s e = some t → inv s → inv t
  claimed_op : ∀ s o, A.allowed s o → inv s → claimed s ∨ claim o → claimed (Y.exec o s).1
  claimed_env : ∀ s e t, Y.env s e = some t → claimed s → claimed t
  claim_once : ∀ s o, A.allowed s o → claim o → ¬ claimed s
  uses_use : ∀ s o, uses (Y.exec o s).1 ≤ uses s + 1
  uses_op : ∀ s o, ¬ use o → uses (Y.exec o s).1 = uses s
  uses_env : ∀ s e t, Y.env s e = some t → uses t = uses s

namespace OneShot

variable {Y : System S σ Env Req Out} {A : Interference S σ} (R : OneShot Y A)

/-- The position of request `i`: it waits, or it is the one holder `h`. -/
def Placed (h : Nat) (s : σ) (i : Nat) (t : Thread S Req Out) : Prop :=
  Prog.Waits R.claim R.use (R.good t.request) t.prog ∨
    (i = h ∧ R.claimed s ∧ R.uses s = 0 ∧ Prog.Holds R.use (R.good t.request) t.prog)

/-- All requests but one wait, and the resource was used at most once. -/
structure Safe (p : Pool S σ Req Out) : Prop where
  inv : R.inv p.shared
  once : R.uses p.shared ≤ 1
  claimed : R.uses p.shared = 1 → R.claimed p.shared
  placed : ∃ h, ∀ i t, p.threads i = some t → R.Placed h p.shared i t

variable {R}

/-- While the resource is not claimed, every request waits. -/
theorem Safe.waits {p : Pool S σ Req Out} (hp : R.Safe p) (hfree : ¬ R.claimed p.shared)
    {i : Nat} {t : Thread S Req Out} (ht : p.threads i = some t) :
    Prog.Waits R.claim R.use (R.good t.request) t.prog := by
  obtain ⟨h, hplaced⟩ := hp.placed
  obtain hwaits | ⟨-, hclaimed, -⟩ := hplaced i t ht
  · exact hwaits
  · exact absurd hclaimed hfree

/-- The store moves under a request and nothing is used. -/
theorem Placed.move {h i : Nat} {s s' : σ} {t : Thread S Req Out} (ht : R.Placed h s i t)
    (hclaimed : R.claimed s → R.claimed s') (huses : R.uses s' = R.uses s) :
    R.Placed h s' i t :=
  ht.imp_right fun ⟨hi, hold, hzero, hholds⟩ => ⟨hi, hclaimed hold, huses.trans hzero, hholds⟩

/-- The requests after one of them has moved. -/
theorem update_cases {threads : Nat → Option (Thread S Req Out)} {i j : Nat}
    {t t' : Thread S Req Out} (h : Function.update threads i (some t) j = some t') :
    (j = i ∧ t' = t) ∨ (j ≠ i ∧ threads j = some t') := by
  by_cases hj : j = i
  · subst hj
    rw [Function.update_self] at h
    exact .inl ⟨rfl, (Option.some.inj h).symm⟩
  · rw [Function.update_of_ne hj] at h
    exact .inr ⟨hj, h⟩

/-- A step of the store that uses nothing, after which request `i` is placed again. -/
theorem Safe.move {p : Pool S σ Req Out} (hp : R.Safe p) {s : σ} {i h : Nat}
    {t : Thread S Req Out} (hinv : R.inv s) (hclaimed : R.claimed p.shared → R.claimed s)
    (huses : R.uses s = R.uses p.shared) (ht : R.Placed h s i t)
    (hothers : ∀ j t', j ≠ i → p.threads j = some t' → R.Placed h p.shared j t') :
    R.Safe ⟨s, Function.update p.threads i (some t)⟩ where
  inv := hinv
  once := huses.symm ▸ hp.once
  claimed hone := hclaimed (hp.claimed (huses.symm.trans hone))
  placed := by
    refine ⟨h, fun j t' hj => ?_⟩
    obtain ⟨rfl, rfl⟩ | ⟨hne, hold⟩ := update_cases hj
    · exact ht
    · exact (hothers j t' hne hold).move hclaimed huses

/-- A request that waits performs its next operation. -/
theorem Safe.run_waits {p : Pool S σ Req Out} (hp : R.Safe p) {i : Nat} {r : Req} {o : S.Op}
    {k : Option (S.Res o) → Prog S Out} {s : σ} {a : Option (S.Res o)}
    (ho : A.allowed p.shared o)
    (hs : (s = (Y.exec o p.shared).1 ∧ a = some (Y.exec o p.shared).2) ∨
      (s = (Y.exec o p.shared).1 ∧ a = none) ∨ (s = p.shared ∧ a = none))
    (hwaits : Prog.Waits R.claim R.use (R.good r) (.op o k)) :
    R.Safe ⟨s, Function.update p.threads i (some ⟨r, k a⟩)⟩ := by
  obtain ⟨h, hplaced⟩ := hp.placed
  obtain ⟨huse, ⟨hclaim, hspent, hholds⟩ | ⟨hclaim, hrest⟩⟩ := hwaits
  · -- the claim: nobody else has one
    have hfree := R.claim_once _ o ho hclaim
    have hothers : ∀ j t', j ≠ i → p.threads j = some t' → R.Placed i p.shared j t' :=
      fun j t' _ hj => .inl (hp.waits hfree hj)
    have hclaimed := R.claimed_op _ o ho hp.inv (.inr hclaim)
    have hzero : R.uses (Y.exec o p.shared).1 = 0 := by
      rw [R.uses_op _ o huse]
      have honce := hp.once
      have hone : R.uses p.shared ≠ 1 := fun hone => hfree (hp.claimed hone)
      omega
    obtain ⟨rfl, rfl⟩ | ⟨rfl, rfl⟩ | ⟨rfl, rfl⟩ := hs
    · exact hp.move (R.inv_op _ o ho hp.inv) (fun _ => hclaimed) (R.uses_op _ o huse)
        (.inr ⟨rfl, hclaimed, hzero, hholds _⟩) hothers
    · exact hp.move (R.inv_op _ o ho hp.inv) (fun _ => hclaimed) (R.uses_op _ o huse)
        (.inl hspent.waits) hothers
    · exact hp.move hp.inv (fun hold => hold) rfl (.inl hspent.waits) hothers
  · have hothers : ∀ j t', j ≠ i → p.threads j = some t' → R.Placed h p.shared j t' :=
      fun j t' _ hj => hplaced j t' hj
    have hmoved : R.Safe ⟨(Y.exec o p.shared).1, Function.update p.threads i (some ⟨r, k a⟩)⟩ :=
      hp.move (R.inv_op _ o ho hp.inv) (fun hold => R.claimed_op _ o ho hp.inv (.inl hold))
        (R.uses_op _ o huse) (.inl (hrest a)) hothers
    obtain ⟨rfl, -⟩ | ⟨rfl, -⟩ | ⟨rfl, -⟩ := hs
    · exact hmoved
    · exact hmoved
    · exact hp.move hp.inv (fun hold => hold) rfl (.inl (hrest a)) hothers

/-- The holder performs its next operation. -/
theorem Safe.run_holds {p : Pool S σ Req Out} (hp : R.Safe p) {i : Nat} {r : Req} {o : S.Op}
    {k : Option (S.Res o) → Prog S Out} {s : σ} {a : Option (S.Res o)}
    (hplaced : ∀ j t, p.threads j = some t → R.Placed i p.shared j t)
    (ho : A.allowed p.shared o) (hs : s = (Y.exec o p.shared).1 ∨ s = p.shared)
    (hclaimed : R.claimed p.shared) (hzero : R.uses p.shared = 0)
    (hholds : Prog.Holds R.use (R.good r) (.op o k)) :
    R.Safe ⟨s, Function.update p.threads i (some ⟨r, k a⟩)⟩ := by
  have hothers : ∀ j t', j ≠ i → p.threads j = some t' →
      Prog.Waits R.claim R.use (R.good t'.request) t'.prog :=
    fun j t' hne hj => (hplaced j t' hj).resolve_right fun hholder => hne hholder.1
  have hkept := R.claimed_op _ o ho hp.inv (.inl hclaimed)
  obtain ⟨huse, hspent⟩ | ⟨huse, hrest⟩ := hholds
  · -- the use: from now on every request waits
    obtain rfl | rfl := hs
    · refine ⟨R.inv_op _ o ho hp.inv, ?_, fun _ => hkept, i, fun j t' hj => ?_⟩
      · have hone := R.uses_use p.shared o
        rwa [hzero] at hone
      · obtain ⟨rfl, rfl⟩ | ⟨hne, hold⟩ := update_cases hj
        · exact .inl (hspent a).waits
        · exact .inl (hothers j t' hne hold)
    · exact hp.move (h := i) hp.inv (fun hold => hold) rfl (.inl (hspent a).waits)
        fun j t' hne hj => .inl (hothers j t' hne hj)
  · obtain rfl | rfl := hs
    · exact hp.move (R.inv_op _ o ho hp.inv) (fun _ => hkept) (R.uses_op _ o huse)
        (.inr ⟨rfl, hkept, (R.uses_op _ o huse).trans hzero, hrest a⟩)
        fun j t' hne hj => .inl (hothers j t' hne hj)
    · exact hp.move hp.inv (fun hold => hold) rfl (.inr ⟨rfl, hclaimed, hzero, hrest a⟩)
        fun j t' hne hj => .inl (hothers j t' hne hj)

/-- **One step.** -/
theorem Safe.step {p p' : Pool S σ Req Out} {l : Label Env Req} (hp : R.Safe p)
    (hobeys : System.Obeys A p l) (hstep : Y.step p l = some p') : R.Safe p' := by
  obtain ⟨e, s, rfl, hs, rfl⟩ | ⟨i, r, rfl, hnone, rfl⟩ |
    ⟨i, io, r, o, k, s, a, rfl, ht, hs, rfl⟩ := Y.step_cases hstep
  · obtain ⟨h, hplaced⟩ := hp.placed
    have huses := R.uses_env _ _ _ hs
    refine ⟨R.inv_env _ _ _ hs hp.inv, huses.symm ▸ hp.once, fun hone => ?_, h, fun i t ht => ?_⟩
    · exact R.claimed_env _ _ _ hs (hp.claimed (huses.symm.trans hone))
    · exact (hplaced i t ht).move (R.claimed_env _ _ _ hs) huses
  · obtain ⟨h, hplaced⟩ := hp.placed
    exact hp.move (h := h) hp.inv (fun hold => hold) rfl (.inl (R.code_waits r))
      fun j t' _ hj => hplaced j t' hj
  · obtain ⟨h, hplaced⟩ := hp.placed
    have ho := hobeys r o k ht
    obtain hwaits | ⟨rfl, hclaimed, hzero, hholds⟩ := hplaced i _ ht
    · exact hp.run_waits ho hs hwaits
    · refine hp.run_holds hplaced ho ?_ hclaimed hzero hholds
      obtain ⟨rfl, -⟩ | ⟨rfl, -⟩ | ⟨rfl, -⟩ := hs
      · exact .inl rfl
      · exact .inl rfl
      · exact .inr rfl

/-- **Used once.** However the requests are interleaved, the resource is used at most once,
and at most one request gives a good answer. -/
theorem used_once {s₀ : σ} {p : Pool S σ Req Out} {ls : List (Label Env Req)}
    (hinv : R.inv s₀) (hunused : R.uses s₀ = 0) (hrun : Run Y.step (Pool.idle s₀) ls p)
    (hG : Guarded Y.step (System.Obeys A) (Pool.idle s₀) ls) :
    R.uses p.shared ≤ 1 ∧
      ∀ i j r r' a b, p.Returned i r a → R.good r a → p.Returned j r' b → R.good r' b → i = j := by
  have hsafe : R.Safe p := by
    refine Run.guardedInvariant (G := System.Obeys A) (P := R.Safe)
      (fun _ _ _ hq hobeys hstep => hq.step hobeys hstep) hrun hG ⟨hinv, ?_, fun hone => ?_, 0, ?_⟩
    · exact hunused.symm ▸ Nat.zero_le 1
    · exact absurd (hunused.symm.trans hone) (by decide)
    · intro i t ht
      cases ht
  refine ⟨hsafe.once, fun i j r r' a b hi ha hj hb => ?_⟩
  obtain ⟨h, hplaced⟩ := hsafe.placed
  have hholder : ∀ i r a, p.Returned i r a → R.good r a → i = h := by
    intro i r a hi ha
    obtain hwaits | ⟨hih, -⟩ := hplaced i _ hi
    · exact absurd ha hwaits
    · exact hih
  exact (hholder i r a hi ha).trans (hholder j r' b hj hb).symm

end OneShot

end Concurrent
