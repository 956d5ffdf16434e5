import Mathlib.Data.List.Basic
import Mathlib.Logic.Function.Basic

/-!
# Runs of a labelled step system

A concurrent component is modelled by one partial step function
`step : σ → α → Option σ`: the label `a : α` names which party moves and every
choice the environment makes at that step (a clock reading, an I/O failure, the
next interleaving), and `none` says that the move is not enabled. An
interleaving is then a list of labels, and *every interleaving* is a
quantifier over lists.

Two rules carry all the safety arguments:

* `Run.invariant` — what the initial state has and every step keeps, every
  reached state has;
* `Run.guardedInvariant` — the same for runs in which every step meets a
  condition on the state it starts from (`Guarded`).
-/

namespace StepSystem

universe u v w

variable {σ : Type u} {α : Type v} {step : σ → α → Option σ}

/-- `Run step s as s'`: taking the labels `as` in order leads from `s` to `s'`. -/
def Run (step : σ → α → Option σ) (s : σ) (as : List α) (s' : σ) : Prop :=
  as.foldlM step s = some s'

instance [DecidableEq σ] (s : σ) (as : List α) (s' : σ) : Decidable (Run step s as s') :=
  inferInstanceAs (Decidable (as.foldlM step s = some s'))

theorem Run.nil (s : σ) : Run step s [] s := rfl

theorem run_nil_iff {s s' : σ} : Run step s [] s' ↔ s = s' := by
  constructor
  · intro h
    exact Option.some.inj h
  · rintro rfl
    exact Run.nil s

theorem run_cons_iff {s s' : σ} {a : α} {as : List α} :
    Run step s (a :: as) s' ↔ ∃ m, step s a = some m ∧ Run step m as s' := by
  unfold Run
  rw [List.foldlM_cons]
  exact Option.bind_eq_some_iff

theorem run_append_iff {s s' : σ} {as bs : List α} :
    Run step s (as ++ bs) s' ↔ ∃ m, Run step s as m ∧ Run step m bs s' := by
  unfold Run
  rw [List.foldlM_append]
  exact Option.bind_eq_some_iff

/-- A run found by evaluation: the end state exists and `f` of it is what was
computed. -/
theorem exists_run_of_map {τ : Type w} (step : σ → α → Option σ) (s : σ) (as : List α)
    (f : σ → τ) {x : τ} (h : (as.foldlM step s).map f = some x) :
    ∃ s', Run step s as s' ∧ f s' = x :=
  Option.map_eq_some_iff.mp h

/-- The state a run ends in, by evaluation. -/
def final (step : σ → α → Option σ) (s : σ) (as : List α) : σ := (as.foldlM step s).getD s

theorem run_final {s : σ} {as : List α} (h : (as.foldlM step s).isSome = true) :
    Run step s as (final step s as) := by
  obtain ⟨s', hs'⟩ := Option.isSome_iff_exists.mp h
  rw [Run, final, hs']
  rfl

/-- **Invariant rule.** A property kept by every step is kept by every run. -/
theorem Run.invariant {P : σ → Prop}
    (hstep : ∀ s a s', P s → step s a = some s' → P s')
    {s s' : σ} {as : List α} (h : Run step s as s') (hs : P s) : P s' := by
  induction as generalizing s with
  | nil =>
    rw [run_nil_iff] at h
    exact h ▸ hs
  | cons a as ih =>
    obtain ⟨m, hm, hrest⟩ := run_cons_iff.mp h
    exact ih hrest (hstep s a m hs hm)

/-! ## Runs whose steps all meet a condition -/

/-- Every step of the run of `as` from `s` meets `G` in the state it starts from. -/
def Guarded (step : σ → α → Option σ) (G : σ → α → Prop) : σ → List α → Prop
  | _, [] => True
  | s, a :: as => G s a ∧ ∀ s', step s a = some s' → Guarded step G s' as

theorem guarded_append {G : σ → α → Prop} {s m : σ} {as bs : List α}
    (h : Guarded step G s (as ++ bs)) (hrun : Run step s as m) :
    Guarded step G s as ∧ Guarded step G m bs := by
  induction as generalizing s with
  | nil =>
    rw [run_nil_iff] at hrun
    exact ⟨trivial, hrun ▸ h⟩
  | cons a as ih =>
    obtain ⟨m', hm', hrest⟩ := run_cons_iff.mp hrun
    obtain ⟨hG, hnext⟩ := h
    refine ⟨⟨hG, fun s' hs' => ?_⟩, (ih (hnext m' hm') hrest).2⟩
    obtain rfl := Option.some.inj (hm'.symm.trans hs')
    exact (ih (hnext m' hm') hrest).1

theorem Guarded.append {G : σ → α → Prop} {s : σ} {as bs : List α}
    (has : Guarded step G s as) (hbs : ∀ m, Run step s as m → Guarded step G m bs) :
    Guarded step G s (as ++ bs) := by
  induction as generalizing s with
  | nil => exact hbs s (Run.nil s)
  | cons a as ih =>
    refine ⟨has.1, fun m hm => ih (has.2 m hm) fun m' hm' => ?_⟩
    exact hbs m' (run_cons_iff.mpr ⟨m, hm, hm'⟩)

/-- A condition may be weakened, knowing that its label is one of the run. -/
theorem Guarded.mono {G G' : σ → α → Prop} {s : σ} {as : List α} (hG : Guarded step G s as)
    (h : ∀ s, ∀ a ∈ as, G s a → G' s a) : Guarded step G' s as := by
  induction as generalizing s with
  | nil => trivial
  | cons a as ih =>
    refine ⟨h s a List.mem_cons_self hG.1, fun m hm => ih (hG.2 m hm) fun s b hb => ?_⟩
    exact h s b (List.mem_cons_of_mem a hb)

theorem Guarded.and {G G' : σ → α → Prop} {s : σ} {as : List α} (hG : Guarded step G s as)
    (hG' : Guarded step G' s as) : Guarded step (fun s a => G s a ∧ G' s a) s as := by
  induction as generalizing s with
  | nil => trivial
  | cons a as ih => exact ⟨⟨hG.1, hG'.1⟩, fun m hm => ih (hG.2 m hm) (hG'.2 m hm)⟩

/-- A test that implies the condition, run along the labels. -/
def guardedCheck (step : σ → α → Option σ) (g : σ → α → Bool) : σ → List α → Bool
  | _, [] => true
  | s, a :: as =>
    g s a && match step s a with
      | some m => guardedCheck step g m as
      | none => true

theorem guarded_of_check {G : σ → α → Prop} {g : σ → α → Bool}
    (hg : ∀ s a, g s a = true → G s a) {s : σ} {as : List α}
    (h : guardedCheck step g s as = true) : Guarded step G s as := by
  induction as generalizing s with
  | nil => trivial
  | cons a as ih =>
    rw [guardedCheck, Bool.and_eq_true] at h
    refine ⟨hg s a h.1, fun m hm => ih ?_⟩
    have hrest := h.2
    rw [hm] at hrest
    exact hrest

/-- **Guarded invariant rule.** A property kept by every step that meets `G` is
kept by every run whose steps all meet `G`. -/
theorem Run.guardedInvariant {G : σ → α → Prop} {P : σ → Prop}
    (hstep : ∀ s a s', P s → G s a → step s a = some s' → P s')
    {s s' : σ} {as : List α} (h : Run step s as s') (hG : Guarded step G s as)
    (hs : P s) : P s' := by
  induction as generalizing s with
  | nil =>
    rw [run_nil_iff] at h
    exact h ▸ hs
  | cons a as ih =>
    obtain ⟨m, hm, hrest⟩ := run_cons_iff.mp h
    exact ih hrest (hG.2 m hm) (hstep s a m hs hG.1 hm)

/-- A run meets `G` when each of its steps does, in the state that the steps before it reach. -/
theorem Run.guarded_iff_forall {G : σ → α → Prop} {s s' : σ} {as : List α}
    (h : Run step s as s') :
    Guarded step G s as ↔ ∀ bs a cs m, as = bs ++ a :: cs → Run step s bs m → G m a := by
  constructor
  · rintro hG bs a cs m rfl hm
    exact (guarded_append hG hm).2.1
  · intro hall
    induction as generalizing s with
    | nil => trivial
    | cons a as ih =>
      obtain ⟨n, hn, hrest⟩ := run_cons_iff.mp h
      refine ⟨hall [] a as s rfl (Run.nil s), fun n' hn' => ?_⟩
      obtain rfl := Option.some.inj (hn.symm.trans hn')
      refine ih hrest fun bs b cs m heq hm => ?_
      exact hall (a :: bs) b cs m (by rw [heq]; rfl) (run_cons_iff.mpr ⟨n, hn, hm⟩)

/-- What holds before every step and at the end holds in every state of the run. -/
theorem Run.forall_prefix {P : σ → Prop} {s s' : σ} {as : List α} (h : Run step s as s')
    (hG : Guarded step (fun m _ => P m) s as) (hend : P s') :
    ∀ bs m, bs <+: as → Run step s bs m → P m := by
  rintro bs m ⟨cs, rfl⟩ hm
  cases cs with
  | nil =>
    rw [List.append_nil] at h
    exact Option.some.inj (h.symm.trans hm) ▸ hend
  | cons a cs => exact (guarded_append hG hm).2.1

/-- **Exact guard.** When a step from a state with `P` keeps `P` exactly if it meets `G`, the
runs on which `P` holds throughout are the ones whose steps all meet `G`. -/
theorem Run.guarded_iff {G : σ → α → Prop} {I P : σ → Prop}
    (hkeep : ∀ s a s', I s → step s a = some s' → I s')
    (hstep : ∀ s a s', I s → P s → step s a = some s' → (P s' ↔ G s a))
    {s s' : σ} {as : List α} (h : Run step s as s') (hI : I s) (hP : P s) :
    Guarded step G s as ↔ ∀ bs m, bs <+: as → Run step s bs m → P m := by
  induction as generalizing s with
  | nil =>
    refine ⟨fun _ bs m hbs hm => ?_, fun _ => trivial⟩
    rw [List.prefix_nil.mp hbs, run_nil_iff] at hm
    exact hm ▸ hP
  | cons a as ih =>
    obtain ⟨n, hn, hrest⟩ := run_cons_iff.mp h
    have hfirst := hstep s a n hI hP hn
    constructor
    · intro hG bs m hbs hm
      cases bs with
      | nil =>
        rw [run_nil_iff] at hm
        exact hm ▸ hP
      | cons b bs =>
        obtain ⟨rfl, hprefix⟩ := List.cons_prefix_cons.mp hbs
        obtain ⟨n', hn', hm⟩ := run_cons_iff.mp hm
        obtain rfl := Option.some.inj (hn.symm.trans hn')
        exact (ih hrest (hkeep s b n hI hn) (hfirst.mpr hG.1)).mp (hG.2 n hn) bs m hprefix hm
    · intro hall
      have hPn : P n := hall [a] n (by simp) (run_cons_iff.mpr ⟨n, hn, Run.nil n⟩)
      refine ⟨hfirst.mp hPn, fun n' hn' => ?_⟩
      obtain rfl := Option.some.inj (hn.symm.trans hn')
      refine (ih hrest (hkeep s a n hI hn) hPn).mpr fun bs m hbs hm => ?_
      exact hall (a :: bs) m (List.cons_prefix_cons.mpr ⟨rfl, hbs⟩)
        (run_cons_iff.mpr ⟨n, hn, hm⟩)

/-! ## How often something happens -/

/-- The number of steps of the run of `as` from `s` that `q` picks. -/
def occurrences (step : σ → α → Option σ) (q : σ → α → Bool) : σ → List α → Nat
  | _, [] => 0
  | s, a :: as =>
    (if q s a then 1 else 0) + match step s a with
      | some m => occurrences step q m as
      | none => 0

variable {G : σ → α → Prop} {q : σ → α → Bool}

/-- What is ruled out for good does not happen. -/
theorem occurrences_eq_zero {N : σ → Prop}
    (hkeep : ∀ s a s', N s → G s a → step s a = some s' → N s') (hq : ∀ s a, N s → q s a = false)
    {s : σ} {as : List α} (hG : Guarded step G s as) (hs : N s) :
    occurrences step q s as = 0 := by
  induction as generalizing s with
  | nil => rfl
  | cons a as ih =>
    rw [occurrences, hq s a hs]
    cases hm : step s a with
    | none => rfl
    | some m => simpa using ih (hG.2 m hm) (hkeep s a m hs hG.1 hm)

/-- **At most once.** What rules itself out happens at most once. -/
theorem occurrences_le_one {I N : σ → Prop}
    (hI : ∀ s a s', I s → G s a → step s a = some s' → I s')
    (hfirst : ∀ s a s', I s → G s a → q s a = true → step s a = some s' → N s')
    (hkeep : ∀ s a s', N s → G s a → step s a = some s' → N s') (hq : ∀ s a, N s → q s a = false)
    {s : σ} {as : List α} (hG : Guarded step G s as) (hs : I s) :
    occurrences step q s as ≤ 1 := by
  induction as generalizing s with
  | nil => exact Nat.zero_le 1
  | cons a as ih =>
    rw [occurrences]
    cases hm : step s a with
    | none =>
      split
      · exact Nat.le_refl 1
      · exact Nat.zero_le 1
    | some m =>
      dsimp only
      split
      · rename_i hqa
        have hnone := occurrences_eq_zero hkeep hq (hG.2 m hm) (hfirst s a m hs hG.1 hqa hm)
        omega
      · rw [Nat.zero_add]
        exact ih (hG.2 m hm) (hI s a m hs hG.1 hm)

end StepSystem
