import Mathlib.Data.List.Basic

/-!
# Request handlers over one database transaction

A handler works in a session: it sees and changes the `staged` tables of its open
transaction, `commit` makes them the `committed` ones, and writes to stores outside the
database (another service's tables, a cache) take effect at once. It ends with a value
or by raising, and whatever it staged and did not commit is rolled back (`call`).

Three judgements are about handlers. `Stages`: nothing durable happens. `Total`: the
handler does not raise. `Triple P p Q`: from a session with `P` an accepted run of `p`
ends with `Q`. `atomic_bind` puts the first two together: a handler that stages first and
only then runs code that cannot raise leaves nothing behind when it is rejected.
-/

namespace Transaction

variable {ε σ ω α β τ : Type}

/-- A database session and the stores next to it. -/
structure Session (σ ω : Type) where
  committed : σ
  staged : σ
  outside : ω

/-- A handler that raises errors of type `ε`. -/
def Txn (ε σ ω α : Type) : Type := Session σ ω → Except ε α × Session σ ω

namespace Txn

protected def pure (a : α) : Txn ε σ ω α := fun s => (.ok a, s)

protected def bind (p : Txn ε σ ω α) (f : α → Txn ε σ ω β) : Txn ε σ ω β := fun s =>
  match p s with
  | (.ok a, s') => f a s'
  | (.error e, s') => (.error e, s')

instance : Monad (Txn ε σ ω) where
  pure := Txn.pure
  bind := Txn.bind

/-- Read the staged tables. -/
def read (f : σ → α) : Txn ε σ ω α := fun s => (.ok (f s.staged), s)

/-- Read a store outside the database. -/
def look (f : ω → α) : Txn ε σ ω α := fun s => (.ok (f s.outside), s)

/-- Write to the tables, inside the transaction. -/
def stage (f : σ → σ) : Txn ε σ ω Unit := fun s => (.ok (), { s with staged := f s.staged })

def commit : Txn ε σ ω Unit := fun s => (.ok (), { s with committed := s.staged })

/-- Write to a store outside the database. -/
def effect (f : ω → ω) : Txn ε σ ω Unit := fun s => (.ok (), { s with outside := f s.outside })

/-- A computation that may raise and does nothing else. -/
def check (x : Except ε α) : Txn ε σ ω α := fun s => (x, s)

theorem bind_of_ok {p : Txn ε σ ω α} {f : α → Txn ε σ ω β} {s m : Session σ ω} {a : α}
    (h : p s = (.ok a, m)) : (p >>= f) s = f a m := by
  show Txn.bind p f s = _
  rw [Txn.bind, h]

theorem bind_of_error {p : Txn ε σ ω α} {f : α → Txn ε σ ω β} {s m : Session σ ω} {e : ε}
    (h : p s = (.error e, m)) : (p >>= f) s = (.error e, m) := by
  show Txn.bind p f s = _
  rw [Txn.bind, h]

/-- One handled request: the tables and the stores outside before and after it. -/
def call (p : Txn ε σ ω α) (w : σ × ω) : Except ε α × (σ × ω) :=
  let r := p ⟨w.1, w.1, w.2⟩
  (r.1, (r.2.committed, r.2.outside))

end Txn

open Txn

/-! ## Nothing durable happens -/

/-- Every run of `p`, accepted or not, leaves the committed tables and the stores outside
as they are. -/
def Stages (p : Txn ε σ ω α) : Prop :=
  ∀ s, (p s).2.committed = s.committed ∧ (p s).2.outside = s.outside

theorem stages_pure (a : α) : Stages (pure a : Txn ε σ ω α) := fun _ => ⟨rfl, rfl⟩

theorem stages_read (f : σ → α) : Stages (read f : Txn ε σ ω α) := fun _ => ⟨rfl, rfl⟩

theorem stages_look (f : ω → α) : Stages (look f : Txn ε σ ω α) := fun _ => ⟨rfl, rfl⟩

theorem stages_stage (f : σ → σ) : Stages (stage f : Txn ε σ ω Unit) := fun _ => ⟨rfl, rfl⟩

theorem stages_check (x : Except ε α) : Stages (check x : Txn ε σ ω α) := fun _ => ⟨rfl, rfl⟩

theorem stages_bind {p : Txn ε σ ω α} {f : α → Txn ε σ ω β} (hp : Stages p)
    (hf : ∀ a, Stages (f a)) : Stages (p >>= f) := by
  intro s
  have hps := hp s
  cases hrun : p s with
  | mk r m =>
    rw [hrun] at hps
    cases r with
    | error e =>
      rw [bind_of_error hrun]
      exact hps
    | ok a =>
      rw [bind_of_ok hrun]
      exact ⟨(hf a m).1.trans hps.1, (hf a m).2.trans hps.2⟩

theorem stages_foldlM {l : List τ} {f : α → τ → Txn ε σ ω α} (hf : ∀ a x, Stages (f a x))
    (a : α) : Stages (l.foldlM f a) := by
  induction l generalizing a with
  | nil => exact stages_pure a
  | cons x l ih =>
    rw [List.foldlM_cons]
    exact stages_bind (hf a x) fun b => ih b

/-! ## No error -/

/-- No run of `p` raises. -/
def Total (p : Txn ε σ ω α) : Prop := ∀ s, ∃ a, (p s).1 = .ok a

theorem total_pure (a : α) : Total (pure a : Txn ε σ ω α) := fun _ => ⟨a, rfl⟩

theorem total_read (f : σ → α) : Total (read f : Txn ε σ ω α) := fun s => ⟨f s.staged, rfl⟩

theorem total_look (f : ω → α) : Total (look f : Txn ε σ ω α) := fun s => ⟨f s.outside, rfl⟩

theorem total_stage (f : σ → σ) : Total (stage f : Txn ε σ ω Unit) := fun _ => ⟨(), rfl⟩

theorem total_commit : Total (commit : Txn ε σ ω Unit) := fun _ => ⟨(), rfl⟩

theorem total_effect (f : ω → ω) : Total (effect f : Txn ε σ ω Unit) := fun _ => ⟨(), rfl⟩

theorem total_bind {p : Txn ε σ ω α} {f : α → Txn ε σ ω β} (hp : Total p)
    (hf : ∀ a, Total (f a)) : Total (p >>= f) := by
  intro s
  obtain ⟨a, ha⟩ := hp s
  rw [bind_of_ok (a := a) (m := (p s).2) (Prod.ext ha rfl)]
  exact hf a (p s).2

/-- A rejected request leaves everything as it was. -/
def Atomic (p : Txn ε σ ω α) : Prop :=
  ∀ w e, (call p w).1 = .error e → (call p w).2 = w

/-- **Rejected requests.** A handler that stages first and only then runs code that does
not raise is atomic. -/
theorem atomic_bind {p : Txn ε σ ω α} {f : α → Txn ε σ ω β} (hp : Stages p)
    (hf : ∀ a, Total (f a)) : Atomic (p >>= f) := by
  intro w e h
  have hps := hp ⟨w.1, w.1, w.2⟩
  unfold call at h ⊢
  cases hrun : p ⟨w.1, w.1, w.2⟩ with
  | mk r m =>
    rw [hrun] at hps
    cases r with
    | ok a =>
      rw [bind_of_ok hrun] at h
      obtain ⟨b, hb⟩ := hf a m
      exact nomatch hb.symm.trans h
    | error e' =>
      rw [bind_of_error hrun]
      show (m.committed, m.outside) = w
      rw [hps.1, hps.2]

/-! ## Accepted runs -/

theorem bind_accepted {p : Txn ε σ ω α} {f : α → Txn ε σ ω β} {s s' : Session σ ω} {b : β}
    (h : (p >>= f) s = (.ok b, s')) : ∃ a m, p s = (.ok a, m) ∧ f a m = (.ok b, s') := by
  cases hrun : p s with
  | mk r m =>
    cases r with
    | error e =>
      rw [bind_of_error hrun] at h
      exact nomatch (Prod.mk.inj h).1
    | ok a =>
      rw [bind_of_ok hrun] at h
      exact ⟨a, m, rfl, h⟩

section Peel

variable {k : α → Txn ε σ ω β} {s s' : Session σ ω} {b : β}

theorem read_bind (f : σ → α) : (read f >>= k) s = k (f s.staged) s := rfl

theorem stage_bind {k : Unit → Txn ε σ ω β} (f : σ → σ) :
    (stage f >>= k) s = k () { s with staged := f s.staged } := rfl

theorem commit_bind {k : Unit → Txn ε σ ω β} :
    (commit >>= k) s = k () { s with committed := s.staged } := rfl

theorem check_bind {x : Except ε α} (h : (check x >>= k) s = (.ok b, s')) :
    ∃ a, x = .ok a ∧ k a s = (.ok b, s') := by
  obtain ⟨a, m, ha, hk⟩ := bind_accepted h
  obtain ⟨hx, rfl⟩ := Prod.mk.inj ha
  exact ⟨a, hx, hk⟩

theorem pure_accepted {a b : α} (h : (pure a : Txn ε σ ω α) s = (.ok b, s')) :
    a = b ∧ s = s' := by
  obtain ⟨ha, hs⟩ := Prod.mk.inj h
  exact ⟨Except.ok.inj ha, hs⟩

end Peel

/-- From a session with `P`, an accepted run of `p` ends with `Q`. -/
def Triple (P : Session σ ω → Prop) (p : Txn ε σ ω α) (Q : α → Session σ ω → Prop) : Prop :=
  ∀ s a s', P s → p s = (.ok a, s') → Q a s'

section Rules

variable {P : Session σ ω → Prop} {Q : α → Session σ ω → Prop} {R : β → Session σ ω → Prop}

theorem triple_pure {a : α} (h : ∀ s, P s → Q a s) : Triple P (pure a : Txn ε σ ω α) Q := by
  intro s b s' hP hrun
  obtain ⟨ha, rfl⟩ := Prod.mk.inj hrun
  exact Except.ok.inj ha ▸ h s hP

theorem triple_read {f : σ → α} (h : ∀ s, P s → Q (f s.staged) s) :
    Triple P (read f : Txn ε σ ω α) Q := by
  intro s b s' hP hrun
  obtain ⟨ha, rfl⟩ := Prod.mk.inj hrun
  exact Except.ok.inj ha ▸ h s hP

theorem triple_stage {f : σ → σ} {Q : Unit → Session σ ω → Prop}
    (h : ∀ s, P s → Q () { s with staged := f s.staged }) :
    Triple P (stage f : Txn ε σ ω Unit) Q := by
  intro s b s' hP hrun
  obtain ⟨-, rfl⟩ := Prod.mk.inj hrun
  exact h s hP

theorem triple_commit {Q : Unit → Session σ ω → Prop}
    (h : ∀ s, P s → Q () { s with committed := s.staged }) :
    Triple P (commit : Txn ε σ ω Unit) Q := by
  intro s b s' hP hrun
  obtain ⟨-, rfl⟩ := Prod.mk.inj hrun
  exact h s hP

theorem triple_effect {f : ω → ω} {Q : Unit → Session σ ω → Prop}
    (h : ∀ s, P s → Q () { s with outside := f s.outside }) :
    Triple P (effect f : Txn ε σ ω Unit) Q := by
  intro s b s' hP hrun
  obtain ⟨-, rfl⟩ := Prod.mk.inj hrun
  exact h s hP

theorem triple_check {x : Except ε α} (h : ∀ a s, x = .ok a → P s → Q a s) :
    Triple P (check x : Txn ε σ ω α) Q := by
  intro s b s' hP hrun
  obtain ⟨ha, rfl⟩ := Prod.mk.inj hrun
  exact h b s ha hP

theorem triple_bind {p : Txn ε σ ω α} {f : α → Txn ε σ ω β} (hp : Triple P p Q)
    (hf : ∀ a, Triple (Q a) (f a) R) : Triple P (p >>= f) R := by
  intro s b s' hP hrun
  obtain ⟨a, m, ha, hb⟩ := bind_accepted hrun
  exact hf a m b s' (hp s a m hP ha) hb

/-- A loop keeps what each of its rounds keeps. -/
theorem triple_foldlM {l : List τ} {f : α → τ → Txn ε σ ω α}
    (hf : ∀ a, ∀ x ∈ l, Triple (Q a) (f a x) Q) (a : α) : Triple (Q a) (l.foldlM f a) Q := by
  induction l generalizing a with
  | nil => exact triple_pure fun _ hs => hs
  | cons x l ih =>
    rw [List.foldlM_cons]
    refine triple_bind (hf a x List.mem_cons_self) fun b => ih (fun c y hy => ?_) b
    exact hf c y (List.mem_cons_of_mem x hy)

end Rules

/-! ## Forgetting part of the value -/

/-- `q` does what `p` does and ends with what `f` keeps of its value. -/
def Erases (f : α → β) (p : Txn ε σ ω α) (q : Txn ε σ ω β) : Prop :=
  ∀ s, q s = ((p s).1.map f, (p s).2)

section Erases

variable {γ δ : Type}

theorem erases_refl (p : Txn ε σ ω α) : Erases id p p := by
  intro s
  cases hrun : p s with
  | mk r m => cases r <;> rfl

theorem erases_pure {f : α → β} (a : α) :
    Erases f (pure a : Txn ε σ ω α) (pure (f a) : Txn ε σ ω β) :=
  fun _ => rfl

theorem erases_bind {f : α → β} {g : γ → δ} {p : Txn ε σ ω α} {q : Txn ε σ ω β}
    {k : α → Txn ε σ ω γ} {l : β → Txn ε σ ω δ} (hp : Erases f p q)
    (hk : ∀ a, Erases g (k a) (l (f a))) : Erases g (p >>= k) (q >>= l) := by
  intro s
  have hq := hp s
  cases hrun : p s with
  | mk r m =>
    rw [hrun] at hq
    cases r with
    | error e =>
      rw [bind_of_error hrun, bind_of_error hq]
      rfl
    | ok a =>
      rw [bind_of_ok hrun, bind_of_ok hq]
      exact hk a m

/-- A shared first part. -/
theorem erases_after {g : γ → δ} (p : Txn ε σ ω α) {k : α → Txn ε σ ω γ} {l : α → Txn ε σ ω δ}
    (hk : ∀ a, Erases g (k a) (l a)) : Erases g (p >>= k) (p >>= l) :=
  erases_bind (erases_refl p) hk

/-- A last step that only repacks the value. -/
theorem erases_repack {f : α → β} {f' : γ → β} {p : Txn ε σ ω α} {q : Txn ε σ ω β}
    (hp : Erases f p q) {g : α → γ} (hg : ∀ a, f' (g a) = f a) :
    Erases f' (p >>= fun a => pure (g a)) q := by
  intro s
  rw [hp s]
  cases hrun : p s with
  | mk r m =>
    cases r with
    | error e =>
      rw [bind_of_error hrun]
      rfl
    | ok a =>
      rw [bind_of_ok hrun]
      show (Except.ok (f a), m) = (Except.ok (f' (g a)), m)
      rw [hg]

theorem erases_foldlM {f : α → β} {step : α → τ → Txn ε σ ω α} {step' : β → τ → Txn ε σ ω β}
    (hstep : ∀ a x, Erases f (step a x) (step' (f a) x)) (l : List τ) (a : α) :
    Erases f (l.foldlM step a) (l.foldlM step' (f a)) := by
  induction l generalizing a with
  | nil => exact erases_pure a
  | cons x l ih =>
    rw [List.foldlM_cons, List.foldlM_cons]
    exact erases_bind (hstep a x) ih

/-- An accepted run of `p` is one of `q`. -/
theorem Erases.accepted {f : α → β} {p : Txn ε σ ω α} {q : Txn ε σ ω β} (h : Erases f p q)
    {s s' : Session σ ω} {a : α} (hrun : p s = (.ok a, s')) : q s = (.ok (f a), s') := by
  rw [h s, hrun]
  rfl

end Erases

/-! ## Invariants of the tables -/

/-- `I` holds of what is committed and of what is staged. -/
def Holds (I : σ → Prop) (s : Session σ ω) : Prop := I s.committed ∧ I s.staged

/-- Every accepted run of `p` keeps the invariant `I`. -/
def Keeps (I : σ → Prop) (p : Txn ε σ ω α) : Prop := Triple (Holds I) p fun _ => Holds I

section Invariants

variable {I : σ → Prop}

theorem keeps_pure (a : α) : Keeps I (pure a : Txn ε σ ω α) := triple_pure fun _ h => h

theorem keeps_read (f : σ → α) : Keeps I (read f : Txn ε σ ω α) := triple_read fun _ h => h

theorem keeps_check (x : Except ε α) : Keeps I (check x : Txn ε σ ω α) :=
  triple_check fun _ _ _ h => h

theorem keeps_effect (f : ω → ω) : Keeps I (effect f : Txn ε σ ω Unit) :=
  triple_effect fun _ h => h

theorem keeps_commit : Keeps I (commit : Txn ε σ ω Unit) := triple_commit fun _ h => ⟨h.2, h.2⟩

theorem keeps_stage {f : σ → σ} (hf : ∀ t, I t → I (f t)) :
    Keeps I (stage f : Txn ε σ ω Unit) :=
  triple_stage fun s h => ⟨h.1, hf s.staged h.2⟩

theorem keeps_bind {p : Txn ε σ ω α} {f : α → Txn ε σ ω β} (hp : Keeps I p)
    (hf : ∀ a, Keeps I (f a)) : Keeps I (p >>= f) :=
  triple_bind hp hf

theorem keeps_foldlM {l : List τ} {f : α → τ → Txn ε σ ω α} (hf : ∀ a x, Keeps I (f a x))
    (a : α) : Keeps I (l.foldlM f a) :=
  triple_foldlM (Q := fun _ => Holds I) (fun a x _ => hf a x) a

/-- An accepted request keeps the invariant. -/
theorem Keeps.call {p : Txn ε σ ω α} (hp : Keeps I p) {w : σ × ω} {a : α}
    (h : (call p w).1 = .ok a) (hw : I w.1) : I (call p w).2.1 :=
  (hp ⟨w.1, w.1, w.2⟩ a _ ⟨hw, hw⟩ (Prod.ext h rfl)).1

end Invariants

end Transaction
