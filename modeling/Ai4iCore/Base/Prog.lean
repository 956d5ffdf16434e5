import Mathlib.Logic.Function.Basic

/-!
# Request programs

A request handler is a finite tree of *operations* on stores it shares with
other handlers: every `await` of the handler is one `op` node, and what the
handler does next depends on the answer. Nothing here says what an operation
does; that is given separately by `exec`.

An operation can fail, and the failure reaches the handler as an exception, so
every node continues with `some answer` or with `none`. `Prog` is a monad with
`try … catch`, so that a handler is written the way it reads in its source.

`Ensures` is the program logic: between any two operations the other parties may
move the store along `rely`, and the scheduler runs only operations that are
`allowed`. The rules `ensures_bind` and `ensures_perform` take a handler apart.
-/

namespace Concurrent

/-- The operations a family of programs may perform: the type of answers of each,
the exceptions, and the exception a failed operation raises. -/
structure Signature where
  /-- The operations. -/
  Op : Type
  /-- The answers of an operation. -/
  Res : Op → Type
  /-- The exceptions. -/
  Err : Type
  /-- What a failed operation raises. -/
  ioError : Err

/-- A program over the operations of `S`. -/
inductive Prog (S : Signature) (α : Type) : Type
  | ret (a : α)
  | raise (e : S.Err)
  | op (o : S.Op) (k : Option (S.Res o) → Prog S α)

namespace Prog

variable {S : Signature} {α β : Type}

/-- Sequencing. -/
def bind : Prog S α → (α → Prog S β) → Prog S β
  | ret a, f => f a
  | raise e, _ => raise e
  | op o k, f => op o fun r => (k r).bind f

/-- `try p except e: h e`. -/
def tryCatch : Prog S α → (S.Err → Prog S α) → Prog S α
  | ret a, _ => ret a
  | raise e, h => h e
  | op o k, h => op o fun r => (k r).tryCatch h

instance : Monad (Prog S) where
  pure := ret
  bind := bind

instance : MonadExceptOf S.Err (Prog S) where
  throw := raise
  tryCatch := tryCatch

/-- Perform one operation and return its answer. -/
def perform (o : S.Op) : Prog S (S.Res o) :=
  op o fun
    | some r => ret r
    | none => raise S.ioError

/-- Run `f` on every element, in order: `for a in as: await f(a)`. -/
def each (f : α → Prog S Unit) : List α → Prog S Unit
  | [] => ret ()
  | a :: as => (f a).bind fun _ => each f as

end Prog

/-! ## Interference -/

variable {S : Signature} {σ : Type}

/-- What a program may assume of the rest of the system: how the others move the
store between two of its operations (`rely`), and in which states the scheduler
runs an operation (`allowed`). -/
structure Interference (S : Signature) (σ : Type) where
  /-- The moves of the others, taken together. -/
  rely : σ → σ → Prop
  /-- The operations that are run. -/
  allowed : σ → S.Op → Prop
  refl : ∀ s, rely s s
  trans : ∀ s t u, rely s t → rely t u → rely s u

namespace Prog

variable {α β : Type} (exec : (o : S.Op) → σ → σ × S.Res o) (A : Interference S σ)

/-- `Ensures exec A Q p s`: from store `s`, under the interference `A`, the program
`p` ends only with a result `Q` accepts, in the store at the end. A failed
operation may have taken effect or not. -/
def Ensures (Q : Except S.Err α → σ → Prop) : Prog S α → σ → Prop
  | ret a, s => ∀ t, A.rely s t → Q (.ok a) t
  | raise e, s => ∀ t, A.rely s t → Q (.error e) t
  | op o k, s => ∀ t, A.rely s t → A.allowed t o →
      Ensures Q (k (some (exec o t).2)) (exec o t).1 ∧
      Ensures Q (k none) (exec o t).1 ∧ Ensures Q (k none) t

variable {exec A}

/-- A moved store is a store the program was prepared for. -/
theorem Ensures.rely {Q : Except S.Err α → σ → Prop} {p : Prog S α} {s t : σ}
    (h : Ensures exec A Q p s) (hst : A.rely s t) : Ensures exec A Q p t := by
  cases p with
  | ret a => exact fun u hu => h u (A.trans s t u hst hu)
  | raise e => exact fun u hu => h u (A.trans s t u hst hu)
  | op o k => exact fun u hu => h u (A.trans s t u hst hu)

/-- Rule of consequence. -/
theorem Ensures.mono {Q Q' : Except S.Err α → σ → Prop} (hQ : ∀ r s, Q r s → Q' r s)
    {p : Prog S α} {s : σ} (h : Ensures exec A Q p s) : Ensures exec A Q' p s := by
  induction p generalizing s with
  | ret a => exact fun t ht => hQ _ _ (h t ht)
  | raise e => exact fun t ht => hQ _ _ (h t ht)
  | op o k ih =>
    intro t ht ho
    obtain ⟨hok, hafter, hbefore⟩ := h t ht ho
    exact ⟨ih _ hok, ih _ hafter, ih _ hbefore⟩

/-- A postcondition that holds anyway. -/
theorem Ensures.of_forall {Q : Except S.Err α → σ → Prop} (hQ : ∀ r s, Q r s)
    (p : Prog S α) (s : σ) : Ensures exec A Q p s := by
  induction p generalizing s with
  | ret a => exact fun t _ => hQ _ t
  | raise e => exact fun t _ => hQ _ t
  | op o k ih => exact fun t _ _ => ⟨ih _ _, ih _ _, ih _ _⟩

/-- Sequencing: the first part ends where the second may start. -/
theorem ensures_bind {Q : Except S.Err β → σ → Prop} {p : Prog S α} {f : α → Prog S β}
    {s : σ}
    (h : Ensures exec A (fun r t => match r with
      | .ok a => Ensures exec A Q (f a) t
      | .error e => Ensures exec A Q (raise e) t) p s) :
    Ensures exec A Q (p.bind f) s := by
  induction p generalizing s with
  | ret a => exact h s (A.refl s)
  | raise e => exact h s (A.refl s)
  | op o k ih =>
    intro t ht ho
    obtain ⟨hok, hafter, hbefore⟩ := h t ht ho
    exact ⟨ih _ hok, ih _ hafter, ih _ hbefore⟩

/-- A step that performs `o` and goes on with `f`: the continuation has to be right
in the store after `o`, wherever the others moved it before; a failure of `o`
ends the program. -/
theorem ensures_perform {Q : Except S.Err β → σ → Prop} {o : S.Op}
    {f : S.Res o → Prog S β} {s : σ}
    (hok : ∀ t, A.rely s t → A.allowed t o →
      Ensures exec A Q (f (exec o t).2) (exec o t).1)
    (hfail : ∀ t, Q (.error S.ioError) t) :
    Ensures exec A Q ((perform o).bind f) s := by
  intro t ht ho
  exact ⟨hok t ht ho, fun u _ => hfail u, fun u _ => hfail u⟩

/-! ## Programs by their operations -/

/-- Every operation the program may perform satisfies `P`. -/
def Only (P : S.Op → Prop) : Prog S α → Prop
  | ret _ => True
  | raise _ => True
  | op o k => P o ∧ ∀ r, Only P (k r)

theorem only_bind {P : S.Op → Prop} {p : Prog S α} {f : α → Prog S β} (hp : Only P p)
    (hf : ∀ a, Only P (f a)) : Only P (p.bind f) := by
  induction p with
  | ret a => exact hf a
  | raise e => trivial
  | op o k ih => exact ⟨hp.1, fun r => ih r (hp.2 r)⟩

theorem only_tryCatch {P : S.Op → Prop} {p : Prog S α} {h : S.Err → Prog S α}
    (hp : Only P p) (hh : ∀ e, Only P (h e)) : Only P (p.tryCatch h) := by
  induction p with
  | ret a => trivial
  | raise e => exact hh e
  | op o k ih => exact ⟨hp.1, fun r => ih r (hp.2 r)⟩

theorem only_perform {P : S.Op → Prop} {o : S.Op} (ho : P o) : Only P (perform o) := by
  refine ⟨ho, fun r => ?_⟩
  cases r with
  | none => trivial
  | some a => trivial

theorem Only.mono {P P' : S.Op → Prop} (h : ∀ o, P o → P' o) {p : Prog S α}
    (hp : Only P p) : Only P' p := by
  induction p with
  | ret a => trivial
  | raise e => trivial
  | op o k ih => exact ⟨h o hp.1, fun r => ih r (hp.2 r)⟩

theorem only_of_forall {P : S.Op → Prop} (hP : ∀ o, P o) (p : Prog S α) : Only P p := by
  induction p with
  | ret a => trivial
  | raise e => trivial
  | op o k ih => exact ⟨hP o, ih⟩

/-! ## A program on its own -/

variable (exec)

/-- The program run from start to end with nothing in between and no failures. -/
def run : Prog S α → σ → σ × Except S.Err α
  | ret a, s => (s, .ok a)
  | raise e, s => (s, .error e)
  | op o k, s => run (k (some (exec o s).2)) (exec o s).1

/-- `Yields exec Q p s`: run from `s`, the program ends as `Q` says. -/
def Yields (Q : Except S.Err α → σ → Prop) (p : Prog S α) (s : σ) : Prop :=
  Q (p.run exec s).2 (p.run exec s).1

variable {exec}

theorem Yields.mono {Q Q' : Except S.Err α → σ → Prop} (hQ : ∀ r s, Q r s → Q' r s)
    {p : Prog S α} {s : σ} (h : Yields exec Q p s) : Yields exec Q' p s :=
  hQ _ _ h

theorem yields_bind {Q : Except S.Err β → σ → Prop} {p : Prog S α} {f : α → Prog S β} {s : σ}
    (h : Yields exec (fun r t => match r with
      | .ok a => Yields exec Q (f a) t
      | .error e => Q (.error e) t) p s) :
    Yields exec Q (p.bind f) s := by
  induction p generalizing s with
  | ret a => exact h
  | raise e => exact h
  | op o k ih => exact ih _ h

theorem yields_tryCatch {Q : Except S.Err α → σ → Prop} {p : Prog S α}
    {h : S.Err → Prog S α} {s : σ}
    (hp : Yields exec (fun r t => match r with
      | .ok a => Q (.ok a) t
      | .error e => Yields exec Q (h e) t) p s) :
    Yields exec Q (p.tryCatch h) s := by
  induction p generalizing s with
  | ret a => exact hp
  | raise e => exact hp
  | op o k ih => exact ih _ hp

/-- What all operations of a program keep, the program keeps. -/
theorem Only.yields {P : S.Op → Prop} {I : σ → Prop}
    (hI : ∀ s o, I s → P o → I (exec o s).1) {p : Prog S α} (hp : Only P p) {s : σ}
    (hs : I s) : Yields exec (fun _ t => I t) p s := by
  induction p generalizing s with
  | ret a => exact hs
  | raise e => exact hs
  | op o k ih => exact ih _ (hp.2 _) (hI s o hs hp.1)

theorem yields_perform {Q : Except S.Err β → σ → Prop} {o : S.Op} {f : S.Res o → Prog S β}
    {s : σ} (h : Yields exec Q (f (exec o s).2) (exec o s).1) :
    Yields exec Q ((perform o).bind f) s :=
  h

end Prog

end Concurrent
