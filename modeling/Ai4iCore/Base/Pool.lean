import Ai4iCore.Base.Prog
import Ai4iCore.Base.Run

/-!
# Requests in flight

A service runs any number of requests against its shared stores. Between two
operations of one request the others run, in any order, so the service is a step
system (`System.step`) whose labels say which request performs its next
operation and whether that operation fails. A request that dies is one that is
never scheduled again.

`System.follow` is the rule that carries a program's `Ensures` through a run of
the whole pool: what was proved of the program alone, under its interference,
holds of the request among all the others.
-/

namespace Concurrent

open StepSystem

/-- How an operation goes: it succeeds, or it fails having taken effect or not. -/
inductive IoOutcome
  | ok
  | failed (applied : Bool)
deriving Repr, DecidableEq

/-- A service: what its operations do to the store, how the store moves by itself,
and the program of each request. -/
structure System (S : Signature) (σ Env Req Out : Type) where
  /-- One operation. -/
  exec : (o : S.Op) → σ → σ × S.Res o
  /-- One move of the surroundings; `none` when it is not possible. -/
  env : σ → Env → Option σ
  /-- The program of a request. -/
  code : Req → Prog S Out

/-- A request in flight: what was asked, and what is left to do. -/
structure Thread (S : Signature) (Req Out : Type) where
  request : Req
  prog : Prog S Out

/-- The shared store and the requests, by number. A finished request stays in the
pool as `ret` or `raise`. -/
structure Pool (S : Signature) (σ Req Out : Type) where
  shared : σ
  threads : Nat → Option (Thread S Req Out)

/-- The moves of a pool. -/
inductive Label (Env Req : Type)
  | env (e : Env)
  | spawn (i : Nat) (r : Req)
  | run (i : Nat) (io : IoOutcome)
deriving Repr, DecidableEq

/-- Request `i` starts and performs `n` operations. -/
def performs {Env Req : Type} (i : Nat) (r : Req) (n : Nat) : List (Label Env Req) :=
  .spawn i r :: List.replicate n (.run i .ok)

variable {S : Signature} {σ Env Req Out : Type}

/-- A store with no request in flight. -/
def Pool.idle (s : σ) : Pool S σ Req Out := ⟨s, fun _ => none⟩

/-- Request `i` asked for `r` and was answered `out`. -/
def Pool.Returned (p : Pool S σ Req Out) (i : Nat) (r : Req) (out : Out) : Prop :=
  p.threads i = some ⟨r, .ret out⟩

/-- The answer of request `i`, if it has returned one. -/
def Pool.answer (p : Pool S σ Req Out) (i : Nat) : Option (Req × Out) :=
  match p.threads i with
  | some ⟨r, .ret out⟩ => some (r, out)
  | _ => none

theorem Pool.returned_of_answer {p : Pool S σ Req Out} {i : Nat} {r : Req} {out : Out}
    (h : p.answer i = some (r, out)) : p.Returned i r out := by
  unfold Pool.answer at h
  split at h
  next r' out' heq =>
    obtain ⟨rfl, rfl⟩ := Prod.mk.inj (Option.some.inj h)
    exact heq
  next => cases h

namespace System

variable (Y : System S σ Env Req Out)

/-- One move of the pool. -/
def step (p : Pool S σ Req Out) : Label Env Req → Option (Pool S σ Req Out)
  | .env e => (Y.env p.shared e).map fun s => { p with shared := s }
  | .spawn i r =>
    if (p.threads i).isNone then
      some { p with threads := Function.update p.threads i (some ⟨r, Y.code r⟩) }
    else none
  | .run i io =>
    match p.threads i with
    | some ⟨r, .op o k⟩ =>
      match io with
      | .ok =>
        some ⟨(Y.exec o p.shared).1,
          Function.update p.threads i (some ⟨r, k (some (Y.exec o p.shared).2)⟩)⟩
      | .failed applied =>
        some ⟨if applied then (Y.exec o p.shared).1 else p.shared,
          Function.update p.threads i (some ⟨r, k none⟩)⟩
    | _ => none

/-- The condition on runs an interference describes: every operation that is run
is allowed. -/
def Obeys (A : Interference S σ) (p : Pool S σ Req Out) : Label Env Req → Prop
  | .run i _ => ∀ r o k, p.threads i = some ⟨r, .op o k⟩ → A.allowed p.shared o
  | _ => True

/-- `Obeys` as a test. -/
def obeysCheck (allowed : σ → S.Op → Bool) (p : Pool S σ Req Out) :
    Label Env Req → Bool
  | .run i _ =>
    match p.threads i with
    | some ⟨_, .op o _⟩ => allowed p.shared o
    | _ => true
  | _ => true

theorem obeys_of_check {A : Interference S σ} {allowed : σ → S.Op → Bool}
    (h : ∀ s o, allowed s o = true → A.allowed s o) (p : Pool S σ Req Out)
    (l : Label Env Req) (hl : obeysCheck allowed p l = true) : Obeys A p l := by
  cases l with
  | env e => trivial
  | spawn i r => trivial
  | run i io =>
    intro r o k ht
    rw [obeysCheck, ht] at hl
    exact h _ _ hl

/-- What a move can do: the surroundings move the store, a request starts, or a
request performs the operation it stands at. -/
theorem step_cases {p p' : Pool S σ Req Out} {l : Label Env Req}
    (h : Y.step p l = some p') :
    (∃ e s, l = .env e ∧ Y.env p.shared e = some s ∧ p' = { p with shared := s }) ∨
    (∃ i r, l = .spawn i r ∧ p.threads i = none ∧
      p' = { p with threads := Function.update p.threads i (some ⟨r, Y.code r⟩) }) ∨
    (∃ i io r o k s a, l = .run i io ∧ p.threads i = some ⟨r, .op o k⟩ ∧
      ((s = (Y.exec o p.shared).1 ∧ a = some (Y.exec o p.shared).2) ∨
        (s = (Y.exec o p.shared).1 ∧ a = none) ∨ (s = p.shared ∧ a = none)) ∧
      p' = ⟨s, Function.update p.threads i (some ⟨r, k a⟩)⟩) := by
  cases l with
  | env e =>
    obtain ⟨s, hs, rfl⟩ := Option.map_eq_some_iff.mp h
    exact .inl ⟨e, s, rfl, hs, rfl⟩
  | spawn i r =>
    rw [step] at h
    split at h
    · rename_i hnone
      exact .inr (.inl ⟨i, r, rfl, Option.isNone_iff_eq_none.mp hnone,
        (Option.some.inj h).symm⟩)
    · cases h
  | run i io =>
    rw [step] at h
    split at h
    · rename_i r o k ht
      refine .inr (.inr ?_)
      cases io with
      | ok =>
        exact ⟨i, _, r, o, k, _, _, rfl, ht, .inl ⟨rfl, rfl⟩, (Option.some.inj h).symm⟩
      | failed applied =>
        cases applied with
        | true =>
          exact ⟨i, _, r, o, k, _, none, rfl, ht, .inr (.inl ⟨rfl, rfl⟩),
            (Option.some.inj h).symm⟩
        | false =>
          exact ⟨i, _, r, o, k, _, none, rfl, ht, .inr (.inr ⟨rfl, rfl⟩),
            (Option.some.inj h).symm⟩
    · cases h

/-- A request that was not there before stands at the beginning of its program,
and the store has not moved. -/
theorem step_new {p p' : Pool S σ Req Out} {l : Label Env Req}
    (h : Y.step p l = some p') {i : Nat} {r : Req} {prog : Prog S Out}
    (hold : p.threads i = none) (hnew : p'.threads i = some ⟨r, prog⟩) :
    prog = Y.code r ∧ p'.shared = p.shared := by
  obtain ⟨e, s, rfl, hs, rfl⟩ | ⟨j, r', rfl, hj, rfl⟩ |
    ⟨j, io, r', o, k, s, a, rfl, ht, hs, rfl⟩ := Y.step_cases h
  · exact absurd (hold.symm.trans hnew) (by simp)
  · change Function.update p.threads j _ i = _ at hnew
    by_cases hij : i = j
    · subst hij
      rw [Function.update_self] at hnew
      cases hnew
      exact ⟨rfl, rfl⟩
    · rw [Function.update_of_ne hij, hold] at hnew
      cases hnew
  · change Function.update p.threads j _ i = _ at hnew
    have hij : i ≠ j := by
      rintro rfl
      rw [hold] at ht
      cases ht
    rw [Function.update_of_ne hij, hold] at hnew
    cases hnew

section Follow

variable {Y} {A : Interference S σ}
  (hop : ∀ s o, A.allowed s o → A.rely s (Y.exec o s).1)
  (henv : ∀ s e t, Y.env s e = some t → A.rely s t)

include hop henv

/-- Every move of the pool is a move the programs rely on. -/
theorem step_rely {p p' : Pool S σ Req Out} {l : Label Env Req}
    (hG : Obeys A p l) (h : Y.step p l = some p') : A.rely p.shared p'.shared := by
  obtain ⟨e, s, rfl, hs, rfl⟩ | ⟨i, r, rfl, _, rfl⟩ |
    ⟨i, io, r, o, k, s, a, rfl, ht, hs, rfl⟩ := Y.step_cases h
  · exact henv _ _ _ hs
  · exact A.refl _
  · obtain ⟨rfl, _⟩ | ⟨rfl, _⟩ | ⟨rfl, _⟩ := hs
    · exact hop _ _ (hG r o k ht)
    · exact hop _ _ (hG r o k ht)
    · exact A.refl _

/-- One move keeps what a request's program ensures. -/
theorem step_ensures {p p' : Pool S σ Req Out} {l : Label Env Req}
    (hG : Obeys A p l) (h : Y.step p l = some p')
    {i : Nat} {r : Req} {prog : Prog S Out} {Q : Except S.Err Out → σ → Prop}
    (hi : p.threads i = some ⟨r, prog⟩) (hprog : Prog.Ensures Y.exec A Q prog p.shared) :
    ∃ prog', p'.threads i = some ⟨r, prog'⟩ ∧ Prog.Ensures Y.exec A Q prog' p'.shared := by
  have hrely := step_rely hop henv hG h
  obtain ⟨e, s, rfl, hs, rfl⟩ | ⟨j, r', rfl, hj, rfl⟩ |
    ⟨j, io, r', o, k, s, a, rfl, ht, hs, rfl⟩ := Y.step_cases h
  · exact ⟨prog, hi, hprog.rely hrely⟩
  · have hne : i ≠ j := by
      rintro rfl
      rw [hj] at hi
      cases hi
    exact ⟨prog, by rw [← hi]; exact Function.update_of_ne hne _ _, hprog.rely hrely⟩
  · by_cases hij : i = j
    · subst hij
      rw [ht] at hi
      cases hi
      refine ⟨k a, Function.update_self _ _ _, ?_⟩
      obtain ⟨hok, hafter, hbefore⟩ := hprog _ (A.refl _) (hG r o k ht)
      obtain ⟨rfl, rfl⟩ | ⟨rfl, rfl⟩ | ⟨rfl, rfl⟩ := hs
      · exact hok
      · exact hafter
      · exact hbefore
    · exact ⟨prog, by rw [← hi]; exact Function.update_of_ne hij _ _, hprog.rely hrely⟩

/-- Along a run the store moves as the programs rely on. -/
theorem run_rely {p p' : Pool S σ Req Out} {ls : List (Label Env Req)}
    (h : Run Y.step p ls p') (hG : Guarded Y.step (Obeys A) p ls) :
    A.rely p.shared p'.shared :=
  Run.guardedInvariant (G := Obeys A) (P := fun q => A.rely p.shared q.shared)
    (fun _ _ _ hrely hobeys hstep => A.trans _ _ _ hrely (step_rely hop henv hobeys hstep))
    h hG (A.refl _)

/-- **Following a request.** Whatever the other requests do, a request of a pool
ends only as its program ensures. -/
theorem follow {p p' : Pool S σ Req Out} {ls : List (Label Env Req)}
    (h : Run Y.step p ls p') (hG : Guarded Y.step (Obeys A) p ls)
    {i : Nat} {r : Req} {prog : Prog S Out} {Q : Except S.Err Out → σ → Prop}
    (hi : p.threads i = some ⟨r, prog⟩) (hprog : Prog.Ensures Y.exec A Q prog p.shared) :
    ∃ prog', p'.threads i = some ⟨r, prog'⟩ ∧ Prog.Ensures Y.exec A Q prog' p'.shared :=
  Run.guardedInvariant (G := Obeys A)
    (P := fun q => ∃ prog', q.threads i = some ⟨r, prog'⟩ ∧
      Prog.Ensures Y.exec A Q prog' q.shared)
    (fun _ _ _ ⟨_, hj, hq⟩ hobeys hstep => step_ensures hop henv hobeys hstep hj hq)
    h hG ⟨prog, hi, hprog⟩

/-- **A new request.** When each request's program ensures its own postcondition wherever
it is started, so does a request that starts during the run. -/
theorem follow_new {p p' : Pool S σ Req Out} {ls : List (Label Env Req)}
    (h : Run Y.step p ls p') (hG : Guarded Y.step (Obeys A) p ls)
    {Q : Req → Except S.Err Out → σ → Prop}
    (hcode : ∀ r s, A.rely p.shared s → Prog.Ensures Y.exec A (Q r) (Y.code r) s)
    {i : Nat} (hnone : p.threads i = none) {r : Req} {prog : Prog S Out}
    (hi : p'.threads i = some ⟨r, prog⟩) : Prog.Ensures Y.exec A (Q r) prog p'.shared := by
  have key : A.rely p.shared p'.shared ∧ ∀ r prog, p'.threads i = some ⟨r, prog⟩ →
      Prog.Ensures Y.exec A (Q r) prog p'.shared := by
    refine Run.guardedInvariant (G := Obeys A)
      (P := fun q => A.rely p.shared q.shared ∧ ∀ r prog, q.threads i = some ⟨r, prog⟩ →
        Prog.Ensures Y.exec A (Q r) prog q.shared)
      (fun q l q' ⟨hrely, hq⟩ hobeys hstep => ?_) h hG ⟨A.refl _, fun r prog hi => ?_⟩
    · refine ⟨A.trans _ _ _ hrely (step_rely hop henv hobeys hstep), fun r prog hi => ?_⟩
      cases hthread : q.threads i with
      | some t =>
        -- it is there already: its program moved as the step says
        obtain ⟨prog', hi', hprog'⟩ :=
          step_ensures hop henv hobeys hstep hthread (hq t.request t.prog hthread)
        rw [hi'] at hi
        cases hi
        exact hprog'
      | none =>
        -- it starts here, at the beginning of its program
        obtain ⟨rfl, hshared⟩ := Y.step_new hstep hthread hi
        rw [hshared]
        exact hcode _ _ hrely
    · rw [hnone] at hi
      cases hi
  exact key.2 r prog hi

/-- **Every request** of a pool that began idle. -/
theorem follow_all {p p' : Pool S σ Req Out} {ls : List (Label Env Req)}
    (h : Run Y.step p ls p') (hG : Guarded Y.step (Obeys A) p ls)
    {Q : Req → Except S.Err Out → σ → Prop}
    (hcode : ∀ r s, A.rely p.shared s → Prog.Ensures Y.exec A (Q r) (Y.code r) s)
    (hidle : ∀ i, p.threads i = none) {i : Nat} {r : Req} {prog : Prog S Out}
    (hi : p'.threads i = some ⟨r, prog⟩) : Prog.Ensures Y.exec A (Q r) prog p'.shared :=
  follow_new hop henv h hG hcode (hidle i) hi

end Follow

/-- Starting a request changes nothing but the request. -/
theorem step_spawn {p p' : Pool S σ Req Out} {i : Nat} {r : Req}
    (h : Y.step p (.spawn i r) = some p') :
    p'.shared = p.shared ∧ p'.threads i = some ⟨r, Y.code r⟩ := by
  rw [step] at h
  split at h
  · obtain rfl := Option.some.inj h
    exact ⟨rfl, Function.update_self _ _ _⟩
  · cases h

end System

/-! ## Requests one after another -/

namespace Prog

variable {α β : Type} (exec : (o : S.Op) → σ → σ × S.Res o)

/-- The program performs its operations as `ios` says. It stops where it ends, or dies where
`ios` does. -/
def execute : List IoOutcome → Prog S α → σ → σ
  | .ok :: ios, op o k, s => execute ios (k (some (exec o s).2)) (exec o s).1
  | .failed applied :: ios, op o k, s =>
    execute ios (k none) (if applied then (exec o s).1 else s)
  | _, _, s => s

/-- `Throughout exec I Q p s`: with nothing in between, `p` passes only through states with
`I`, whatever fails, and what it returns is accepted by `Q`. -/
def Throughout (I : σ → Prop) (Q : α → σ → Prop) : Prog S α → σ → Prop
  | ret a, s => I s ∧ Q a s
  | raise _, s => I s
  | op o k, s => I s ∧ Throughout I Q (k (some (exec o s).2)) (exec o s).1 ∧
      Throughout I Q (k none) (exec o s).1 ∧ Throughout I Q (k none) s

variable {exec} {I : σ → Prop}

theorem Throughout.start {Q : α → σ → Prop} {p : Prog S α} {s : σ}
    (h : Throughout exec I Q p s) : I s := by
  cases p with
  | ret a => exact h.1
  | raise e => exact h
  | op o k => exact h.1

/-- Wherever the program stops, `I` holds. -/
theorem Throughout.execute {Q : α → σ → Prop} {p : Prog S α} {s : σ}
    (h : Throughout exec I Q p s) (ios : List IoOutcome) : I (p.execute exec ios s) := by
  induction p generalizing s ios with
  | ret a => cases ios with
    | nil => exact h.1
    | cons io ios => cases io <;> exact h.1
  | raise e => cases ios with
    | nil => exact h
    | cons io ios => cases io <;> exact h
  | op o k ih =>
    cases ios with
    | nil => exact h.1
    | cons io ios =>
      cases io with
      | ok => exact ih _ h.2.1 ios
      | failed applied =>
        cases applied with
        | true => exact ih _ h.2.2.1 ios
        | false => exact ih _ h.2.2.2 ios

/-- A weaker invariant and a weaker postcondition. -/
theorem Throughout.weaken {I' : σ → Prop} {Q Q' : α → σ → Prop} (hI : ∀ s, I s → I' s)
    (hQ : ∀ a s, I s → Q a s → Q' a s) {p : Prog S α} {s : σ}
    (h : Throughout exec I Q p s) : Throughout exec I' Q' p s := by
  induction p generalizing s with
  | ret a => exact ⟨hI s h.1, hQ a s h.1 h.2⟩
  | raise e => exact hI s h
  | op o k ih => exact ⟨hI s h.1, ih _ h.2.1, ih _ h.2.2.1, ih _ h.2.2.2⟩

theorem Throughout.mono {Q Q' : α → σ → Prop} (hQ : ∀ a s, Q a s → Q' a s) {p : Prog S α} {s : σ}
    (h : Throughout exec I Q p s) : Throughout exec I Q' p s :=
  h.weaken (fun _ hs => hs) fun a s _ => hQ a s

theorem throughout_bind {Q : β → σ → Prop} {p : Prog S α} {f : α → Prog S β} {s : σ}
    (h : Throughout exec I (fun a t => Throughout exec I Q (f a) t) p s) :
    Throughout exec I Q (p.bind f) s := by
  induction p generalizing s with
  | ret a => exact h.2
  | raise e => exact h
  | op o k ih => exact ⟨h.1, ih _ h.2.1, ih _ h.2.2.1, ih _ h.2.2.2⟩

/-- One operation and what comes after it; a failure ends the program. -/
theorem throughout_perform {Q : β → σ → Prop} {o : S.Op} {f : S.Res o → Prog S β} {s : σ}
    (hs : I s) (h : Throughout exec I Q (f (exec o s).2) (exec o s).1) :
    Throughout exec I Q ((perform o).bind f) s :=
  ⟨hs, h, h.start, hs⟩

/-- A handler that is right wherever the invariant holds. -/
theorem throughout_tryCatch {Q : α → σ → Prop} {p : Prog S α} {h : S.Err → Prog S α} {s : σ}
    (hp : Throughout exec I Q p s) (hh : ∀ e t, I t → Throughout exec I Q (h e) t) :
    Throughout exec I Q (p.tryCatch h) s := by
  induction p generalizing s with
  | ret a => exact hp
  | raise e => exact hh e s hp
  | op o k ih => exact ⟨hp.1, ih _ hp.2.1, ih _ hp.2.2.1, ih _ hp.2.2.2⟩

/-- What all operations of a program keep holds throughout. -/
theorem Only.throughout {P : S.Op → Prop} (hI : ∀ s o, I s → P o → I (exec o s).1)
    {p : Prog S α} (hp : Only P p) {s : σ} (hs : I s) :
    Throughout exec I (fun _ _ => True) p s := by
  induction p generalizing s with
  | ret a => exact ⟨hs, trivial⟩
  | raise e => exact hs
  | op o k ih =>
    have hnext := hI s o hs hp.1
    exact ⟨hs, ih _ (hp.2 _) hnext, ih _ (hp.2 none) hnext, ih _ (hp.2 none) hs⟩

end Prog

/-- A move of a service that takes its requests one after another. -/
inductive Move (Env Req : Type)
  | env (e : Env)
  | request (r : Req) (ios : List IoOutcome)
deriving Repr, DecidableEq

/-- One move: the surroundings, or a request up to where it ends or dies. -/
def System.serialStep (Y : System S σ Env Req Out) (s : σ) : Move Env Req → Option σ
  | .env e => Y.env s e
  | .request r ios => some ((Y.code r).execute Y.exec ios s)

end Concurrent
