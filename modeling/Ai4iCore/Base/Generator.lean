import Mathlib.Data.List.Basic

/-!
# Generators

A generator runs only as far as its consumer reads. It keeps a local state, hands out values,
and ends by returning or by an exception of its own; a consumer that stops or is cancelled ends
it at the yield where it stands, by an exception that is thrown into it there. What a `with`
block around the body does at its end depends on which of the three it was.
-/

universe u v w

/-- A generator over a local state `σ` that hands out values of `β`. -/
inductive Gen (σ : Type u) (β : Type v)
  | done
  | raise
  | update (f : σ → σ) (rest : Gen σ β)
  | yield (b : β) (rest : Gen σ β)

namespace Gen

/-- How a run ends. -/
inductive Exit
  | returned
  | raised
  /-- the consumer stopped or was cancelled -/
  | exited
  deriving DecidableEq, Repr

/-- What a run hands out, the state it leaves and how it ends. -/
structure Ran (σ : Type u) (β : Type v) where
  yielded : List β
  state : σ
  exit : Exit

variable {σ : Type u} {β : Type v} {α : Type w}

def Ran.prepend (bs : List β) (r : Ran σ β) : Ran σ β := { r with yielded := bs ++ r.yielded }

/-- A run. The consumer reads to the end (`none`), or stops at the yield number `k`, counted
from 0, when there are that many. -/
def run : Gen σ β → Option Nat → σ → Ran σ β
  | .done, _, s => ⟨[], s, .returned⟩
  | .raise, _, s => ⟨[], s, .raised⟩
  | .update f rest, stop, s => rest.run stop (f s)
  | .yield b rest, none, s => (rest.run none s).prepend [b]
  | .yield b _, some 0, s => ⟨[b], s, .exited⟩
  | .yield b rest, some (k + 1), s => (rest.run (some k) s).prepend [b]

/-- `for x in xs: f(x)`. -/
def consume (f : α → σ → σ) (xs : List α) (rest : Gen σ β) : Gen σ β :=
  xs.foldr (fun x g => .update (f x) g) rest

/-- `for x in xs: f(x); yield x`. -/
def relay (f : β → σ → σ) (xs : List β) (rest : Gen σ β) : Gen σ β :=
  xs.foldr (fun x g => .update (f x) (.yield x g)) rest

/-- `for x in xs: yield x`. -/
def emit (bs : List β) (rest : Gen σ β) : Gen σ β := bs.foldr Gen.yield rest

/-! ## What a generator keeps -/

/-- Its updates keep `P`. -/
def Keeps (P : σ → Prop) : Gen σ β → Prop
  | .done => True
  | .raise => True
  | .update f rest => (∀ s, P s → P (f s)) ∧ rest.Keeps P
  | .yield _ rest => rest.Keeps P

/-- However far the consumer reads. -/
theorem Keeps.state {P : σ → Prop} {g : Gen σ β} (h : g.Keeps P) (stop : Option Nat) {s : σ}
    (hs : P s) : P (g.run stop s).state := by
  induction g generalizing stop s with
  | done => exact hs
  | raise => exact hs
  | update f rest ih => exact ih h.2 stop (h.1 s hs)
  | yield b rest ih =>
    cases stop with
    | none => exact ih h none hs
    | some k =>
      cases k with
      | zero => exact hs
      | succ k => exact ih h (some k) hs

theorem Keeps.consume {P : σ → Prop} {f : α → σ → σ} (hf : ∀ x s, P s → P (f x s)) (xs : List α)
    {rest : Gen σ β} (h : rest.Keeps P) : (Gen.consume f xs rest).Keeps P := by
  induction xs with
  | nil => exact h
  | cons x xs ih => exact ⟨hf x, ih⟩

theorem Keeps.relay {P : σ → Prop} {f : β → σ → σ} (hf : ∀ x s, P s → P (f x s)) (xs : List β)
    {rest : Gen σ β} (h : rest.Keeps P) : (Gen.relay f xs rest).Keeps P := by
  induction xs with
  | nil => exact h
  | cons x xs ih => exact ⟨hf x, ih⟩

theorem Keeps.emit {P : σ → Prop} (bs : List β) {rest : Gen σ β} (h : rest.Keeps P) :
    (Gen.emit bs rest).Keeps P := by
  induction bs with
  | nil => exact h
  | cons b bs ih => exact ih

/-! ## Runs -/

theorem run_consume (f : α → σ → σ) (xs : List α) (rest : Gen σ β) (stop : Option Nat) (s : σ) :
    (consume f xs rest).run stop s = rest.run stop (xs.foldl (fun s x => f x s) s) := by
  induction xs generalizing s with
  | nil => rfl
  | cons x xs ih => exact ih (f x s)

/-- A relay that is read to the end hands out everything. -/
theorem run_relay (f : β → σ → σ) (xs : List β) (rest : Gen σ β) (s : σ) :
    (relay f xs rest).run none s =
      (rest.run none (xs.foldl (fun s x => f x s) s)).prepend xs := by
  induction xs generalizing s with
  | nil => rfl
  | cons x xs ih =>
    show ((relay f xs rest).run none (f x s)).prepend [x] = _
    rw [ih]
    rfl

theorem run_emit (bs : List β) (rest : Gen σ β) (s : σ) :
    (emit bs rest).run none s = (rest.run none s).prepend bs := by
  induction bs with
  | nil => rfl
  | cons b bs ih =>
    show ((emit bs rest).run none s).prepend [b] = _
    rw [ih]
    rfl

end Gen
