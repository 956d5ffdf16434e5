import Mathlib.Data.List.Forall2

/-!
# Checked computations

Code that checks its arguments and gives up at the first check that fails is a
computation in `Except ε`. `require` and `orRaise` are the two kinds of check. The
lemmas take an accepted computation apart: what is left of `x >>= f = .ok b` is the
value of `x` and the fact that the rest accepts it.
-/

namespace Checked

universe u v w

variable {ε : Type u} {α : Type v} {β : Type v} {σ : Type w}

/-- A condition that has to hold. -/
def require (condition : Bool) (e : ε) : Except ε PUnit :=
  if condition then .ok ⟨⟩ else .error e

/-- A value that has to be there. -/
def orRaise (value : Option α) (e : ε) : Except ε α :=
  match value with
  | some a => .ok a
  | none => .error e

theorem ok_bind (a : α) (f : α → Except ε β) : (Except.ok a >>= f) = f a := rfl

theorem bind_ok {x : Except ε α} {f : α → Except ε β} {b : β} (h : x >>= f = .ok b) :
    ∃ a, x = .ok a ∧ f a = .ok b := by
  cases x with
  | error e => cases h
  | ok a => exact ⟨a, rfl, h⟩

theorem require_ok {condition : Bool} {e : ε} {u : PUnit.{v + 1}}
    (h : require condition e = .ok u) : condition = true := by
  unfold require at h
  split at h
  · assumption
  · cases h

theorem require_bind {condition : Bool} {e : ε} {f : PUnit → Except ε β} {b : β}
    (h : require condition e >>= f = .ok b) : condition = true ∧ f ⟨⟩ = .ok b := by
  obtain ⟨u, hu, hf⟩ := bind_ok h
  exact ⟨require_ok hu, hf⟩

theorem bind_ok_iff {x : Except ε α} {f : α → Except ε β} {b : β} :
    x >>= f = .ok b ↔ ∃ a, x = .ok a ∧ f a = .ok b := by
  constructor
  · exact bind_ok
  · rintro ⟨a, rfl, h⟩
    exact h

theorem require_bind_iff {condition : Bool} {e : ε} {f : PUnit → Except ε β} {b : β} :
    require condition e >>= f = .ok b ↔ condition = true ∧ f ⟨⟩ = .ok b := by
  constructor
  · exact require_bind
  · rintro ⟨rfl, h⟩
    exact h

/-- A refused computation was refused here or by what is left. -/
theorem bind_error {x : Except ε α} {f : α → Except ε β} {e : ε} (h : x >>= f = .error e) :
    x = .error e ∨ ∃ a, x = .ok a ∧ f a = .error e := by
  cases x with
  | error e' => exact .inl (congrArg Except.error (Except.error.inj h))
  | ok a => exact .inr ⟨a, rfl, h⟩

theorem require_error {condition : Bool} {e e' : ε}
    (h : (require condition e : Except ε PUnit.{v + 1}) = .error e') :
    condition = false ∧ e' = e := by
  cases condition with
  | false => exact ⟨rfl, (Except.error.inj h).symm⟩
  | true => cases h

theorem require_bind_error {condition : Bool} {e e' : ε} {f : PUnit → Except ε β}
    (h : require condition e >>= f = .error e') : e' = e ∨ f ⟨⟩ = .error e' := by
  rcases bind_error h with hcheck | ⟨u, -, hf⟩
  · exact .inl (require_error hcheck).2
  · exact .inr hf

theorem orRaise_ok {value : Option α} {e : ε} {a : α} (h : orRaise value e = .ok a) :
    value = some a := by
  cases value with
  | none => cases h
  | some b => exact congrArg some (Except.ok.inj h)

theorem orRaise_bind {value : Option α} {e : ε} {f : α → Except ε β} {b : β}
    (h : orRaise value e >>= f = .ok b) : ∃ a, value = some a ∧ f a = .ok b := by
  obtain ⟨a, ha, hf⟩ := bind_ok h
  exact ⟨a, orRaise_ok ha, hf⟩

/-- Renaming the errors accepts the same computations. -/
theorem mapError_ok {ε' : Type*} {x : Except ε α} {f : ε → ε'} {a : α}
    (h : x.mapError f = .ok a) : x = .ok a := by
  cases x with
  | error e => cases h
  | ok b => exact congrArg Except.ok (Except.ok.inj h)

theorem toOption_ok {x : Except ε α} {a : α} (h : x.toOption = some a) : x = .ok a := by
  cases x with
  | error e => cases h
  | ok b => exact congrArg Except.ok (Option.some.inj h)

/-- The values of an accepted comprehension `[f(x) for x in l]`, in the order of `l`. -/
theorem mapM_ok_map {κ : Type} {f : σ → Except ε α} {g : α → κ} {k : σ → κ}
    (hf : ∀ x a, f x = .ok a → g a = k x) {l : List σ} {as : List α}
    (h : l.mapM f = .ok as) : as.map g = l.map k := by
  induction l generalizing as with
  | nil =>
    rw [List.mapM_nil] at h
    exact Except.ok.inj h ▸ rfl
  | cons x l ih =>
    rw [List.mapM_cons] at h
    obtain ⟨a, ha, h⟩ := bind_ok h
    obtain ⟨rest, hrest, h⟩ := bind_ok h
    obtain rfl := Except.ok.inj h
    rw [List.map_cons, List.map_cons, hf x a ha, ih hrest]

theorem mapM_ok_mem {f : σ → Except ε α} {l : List σ} {as : List α} (h : l.mapM f = .ok as)
    {a : α} (ha : a ∈ as) : ∃ x ∈ l, f x = .ok a := by
  induction l generalizing as with
  | nil =>
    rw [List.mapM_nil] at h
    obtain rfl := Except.ok.inj h
    exact absurd ha List.not_mem_nil
  | cons x l ih =>
    rw [List.mapM_cons] at h
    obtain ⟨b, hb, h⟩ := bind_ok h
    obtain ⟨rest, hrest, h⟩ := bind_ok h
    obtain rfl := Except.ok.inj h
    obtain rfl | ha := List.mem_cons.mp ha
    · exact ⟨x, List.mem_cons_self, hb⟩
    · obtain ⟨y, hy, hfy⟩ := ih hrest ha
      exact ⟨y, List.mem_cons_of_mem x hy, hfy⟩

theorem exists_of_forall₂ {R : σ → α → Prop} {l : List σ} {l' : List α}
    (h : List.Forall₂ R l l') {x : σ} (hx : x ∈ l) : ∃ a ∈ l', R x a := by
  induction h with
  | nil => exact absurd hx List.not_mem_nil
  | cons hxa _ ih =>
    obtain rfl | hx := List.mem_cons.mp hx
    · exact ⟨_, List.mem_cons_self, hxa⟩
    · obtain ⟨a, ha, hxa⟩ := ih hx
      exact ⟨a, List.mem_cons_of_mem _ ha, hxa⟩

/-- What the elements of two lists say one by one, the lists say. -/
theorem forall_mem_iff_of_forall₂ {R : σ → α → Prop} {P : σ → Prop} {Q : α → Prop} {l : List σ}
    {l' : List α} (h : List.Forall₂ R l l') (hiff : ∀ x a, R x a → (P x ↔ Q a)) :
    (∀ x ∈ l, P x) ↔ ∀ a ∈ l', Q a := by
  induction h with
  | nil => simp
  | cons hxa _ ih => rw [List.forall_mem_cons, List.forall_mem_cons, hiff _ _ hxa, ih]

/-- An accepted comprehension accepts its elements one by one. -/
theorem mapM_ok_iff {f : σ → Except ε α} {l : List σ} {as : List α} :
    l.mapM f = .ok as ↔ List.Forall₂ (fun x a => f x = .ok a) l as := by
  induction l generalizing as with
  | nil =>
    rw [List.mapM_nil, List.forall₂_nil_left_iff]
    constructor
    · intro h
      exact (Except.ok.inj h).symm
    · rintro rfl
      rfl
  | cons x l ih =>
    rw [List.mapM_cons]
    constructor
    · intro h
      obtain ⟨a, ha, h⟩ := bind_ok h
      obtain ⟨rest, hrest, h⟩ := bind_ok h
      obtain rfl := Except.ok.inj h
      exact .cons ha (ih.mp hrest)
    · rintro (_ | ⟨ha, hrest⟩)
      rw [ha, ih.mpr hrest]
      rfl

theorem exists_mapM_ok {f : σ → Except ε α} {l : List σ} (h : ∀ x ∈ l, ∃ a, f x = .ok a) :
    ∃ as, l.mapM f = .ok as := by
  induction l with
  | nil => exact ⟨[], rfl⟩
  | cons x l ih =>
    obtain ⟨a, ha⟩ := h x List.mem_cons_self
    obtain ⟨as, has⟩ := ih fun y hy => h y (List.mem_cons_of_mem x hy)
    exact ⟨a :: as, mapM_ok_iff.mpr (.cons ha (mapM_ok_iff.mp has))⟩

theorem mapM_eq_ok {f : σ → Except ε α} {g : σ → α} {l : List σ} (h : ∀ x ∈ l, f x = .ok (g x)) :
    l.mapM f = .ok (l.map g) := by
  induction l with
  | nil => rfl
  | cons x l ih =>
    rw [List.mapM_cons, h x List.mem_cons_self, ih fun y hy => h y (List.mem_cons_of_mem x hy)]
    rfl

/-- A loop raises what its first round that raises does. -/
theorem mapM_error_iff {f : σ → Except ε α} {l : List σ} {e : ε} :
    l.mapM f = .error e ↔ ∃ before x after, l = before ++ x :: after ∧
      (∀ y ∈ before, ∃ a, f y = .ok a) ∧ f x = .error e := by
  induction l with
  | nil =>
    constructor
    · intro h
      cases h
    · rintro ⟨before, x, after, h, -, -⟩
      simp at h
  | cons y l ih =>
    rw [List.mapM_cons]
    cases hy : f y with
    | error e' =>
      constructor
      · intro h
        obtain rfl : e' = e := Except.error.inj h
        exact ⟨[], y, l, rfl, fun _ h => absurd h List.not_mem_nil, hy⟩
      · rintro ⟨before, x, after, hl, hbefore, hx⟩
        cases before with
        | nil =>
          obtain ⟨rfl, rfl⟩ := List.cons.inj hl
          rw [hy] at hx
          obtain rfl : e' = e := Except.error.inj hx
          rfl
        | cons z before =>
          obtain ⟨rfl, rfl⟩ := List.cons.inj hl
          obtain ⟨a, ha⟩ := hbefore y List.mem_cons_self
          rw [hy] at ha
          cases ha
    | ok a =>
      constructor
      · intro h
        cases hl : l.mapM f with
        | ok as =>
          rw [hl] at h
          cases h
        | error e' =>
          rw [hl] at h
          obtain rfl : e' = e := Except.error.inj h
          obtain ⟨before, x, after, rfl, hbefore, hx⟩ := ih.mp hl
          refine ⟨y :: before, x, after, rfl, fun z hz => ?_, hx⟩
          rcases List.mem_cons.mp hz with rfl | hz
          · exact ⟨a, hy⟩
          · exact hbefore z hz
      · rintro ⟨before, x, after, hl, hbefore, hx⟩
        cases before with
        | nil =>
          obtain ⟨rfl, rfl⟩ := List.cons.inj hl
          rw [hy] at hx
          cases hx
        | cons z before =>
          obtain ⟨rfl, rfl⟩ := List.cons.inj hl
          have hrest := ih.mpr ⟨before, x, after, rfl,
            fun w hw => hbefore w (List.mem_cons_of_mem y hw), hx⟩
          rw [hrest]
          rfl

/-- A loop of checks is accepted when every round is. -/
theorem forM_ok {f : σ → Except ε PUnit.{v + 1}} {l : List σ} {u : PUnit} (h : l.forM f = .ok u) :
    ∀ x ∈ l, f x = .ok ⟨⟩ := by
  induction l with
  | nil => exact fun x hx => absurd hx List.not_mem_nil
  | cons y l ih =>
    change f y >>= (fun _ => l.forM f) = .ok u at h
    obtain ⟨_, hy, hrest⟩ := bind_ok h
    intro x hx
    obtain rfl | hx := List.mem_cons.mp hx
    · exact hy
    · exact ih hrest x hx

/-- What every accepted step of a loop keeps, the accepted loop keeps. -/
theorem foldlM_ok {P : α → Prop} {f : α → σ → Except ε α} {l : List σ}
    (hf : ∀ a, ∀ x ∈ l, ∀ a', P a → f a x = .ok a' → P a') {a a' : α}
    (h : l.foldlM f a = .ok a') (ha : P a) : P a' := by
  induction l generalizing a with
  | nil => exact Except.ok.inj h ▸ ha
  | cons x l ih =>
    rw [List.foldlM_cons] at h
    obtain ⟨m, hm, hrest⟩ := bind_ok h
    refine ih (fun b y hy => hf b y (List.mem_cons_of_mem x hy)) hrest ?_
    exact hf a x List.mem_cons_self m ha hm

end Checked
