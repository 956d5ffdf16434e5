import Ai4iCore.Base.Dict
import Ai4iCore.Base.Run

/-!
# Settings and subscriptions in Redis

Two kinds of runs copy the settings snapshot and the tenants' subscriptions from the
database to Redis, and both read first and write later:

* `refresh_settings` and `refresh_subscriptions` (pipeline.py), after a commit, with plain
  SET (`_write`, cache.py);
* the load of a reader that found no copy, with SET NX (`_load_owned` and `_fill`).

A run reads each of its keys in one SELECT and sends one SET per key; a pipeline is not a
transaction, so the others run in between. A copy can leave Redis at any moment (`drop`):
its TTL, an eviction, the DEL behind a failed write. The lock under which readers fill the
settings only takes interleavings away, and is left out.

Nothing orders two runs. A refresh that read before a commit and writes behind the refresh
of that commit leaves the old value in Redis (`older_refresh_written_last`), although
catalog_service.py has every producer see the change at once. As long as no run writes an
older snapshot of a key over a newer one, Redis follows the database
(`redis_follows_database`).
-/

namespace Ai4iCore.Kafka.Refresh

open StepSystem

/-! ## The runs -/

/-- `SETTINGS_KEY` and `subscription_key(tenant)`. -/
inductive ConfigKey
  | settings
  | subscriptions (tenant : String)
  deriving DecidableEq, Repr

variable {α : Type}

/-- A value read from the database and still to be written. The version counts the commits
that had changed the key; it is not part of what is written. -/
structure Snapshot (α : Type) where
  key : ConfigKey
  value : α
  version : Nat

inductive RunKind
  /-- plain SET -/
  | refresh
  /-- SET NX -/
  | fill
  deriving DecidableEq, Repr

/-- A refresh or a reader's load, with what it has still to write. -/
structure CopyRun (α : Type) where
  kind : RunKind
  todo : List (Snapshot α)

/-- The database, Redis and the runs. The counters are ghosts: the commits that changed a key,
the newest version of it that was ever written to Redis, and the newest that a refresh wrote. -/
structure CopySys (α : Type) where
  db : ConfigKey → α
  version : ConfigKey → Nat
  redis : ConfigKey → Option α
  runs : Nat → Option (CopyRun α)
  published : ConfigKey → Nat
  refreshed : ConfigKey → Nat

/-- No run yet. -/
def CopySys.start (db : ConfigKey → α) (redis : ConfigKey → Option α) : CopySys α :=
  ⟨db, fun _ => 0, redis, fun _ => none, fun _ => 0, fun _ => 0⟩

inductive CopyAction (α : Type)
  /-- a transaction, with the keys it changes -/
  | commit (changes : Dict ConfigKey α)
  /-- `refresh_settings` or `refresh_subscriptions` reads the database -/
  | refresh (i : Nat) (keys : List ConfigKey)
  /-- a reader's load reads the database; it may read the settings and the subscriptions -/
  | load (i : Nat) (keys : List ConfigKey)
  /-- the next write of run `i` arrives, or fails -/
  | write (i : Nat) (ok : Bool)
  | drop (k : ConfigKey)

/-- `load_settings_snapshot` and `load_subscriptions_many`. -/
def CopySys.read (s : CopySys α) (keys : List ConfigKey) : List (Snapshot α) :=
  (Dict.fromKeys keys).map fun k => ⟨k, s.db k, s.version k⟩

def CopySys.setRun (s : CopySys α) (i : Nat) (run : CopyRun α) : CopySys α :=
  { s with runs := Function.update s.runs i (some run) }

/-- SET, or SET NX of a missing key. -/
def CopySys.put (s : CopySys α) (e : Snapshot α) : CopySys α :=
  { s with
    redis := Function.update s.redis e.key (some e.value)
    published := Function.update s.published e.key (max (s.published e.key) e.version) }

def CopySys.markRefreshed (s : CopySys α) (e : Snapshot α) : CopySys α :=
  { s with
    refreshed := Function.update s.refreshed e.key (max (s.refreshed e.key) e.version) }

/-- The write of `e` arrives. -/
def CopySys.arrive (s : CopySys α) (kind : RunKind) (e : Snapshot α) : CopySys α :=
  match kind with
  | .refresh => (s.put e).markRefreshed e
  | .fill => if (s.redis e.key).isNone then s.put e else s

def step (s : CopySys α) : CopyAction α → Option (CopySys α)
  | .commit changes =>
    some { s with
      db := fun k => (changes.get? k).getD (s.db k)
      version := fun k => if (changes.get? k).isSome then s.version k + 1 else s.version k }
  | .refresh i keys =>
    match s.runs i with
    | none => some (s.setRun i ⟨.refresh, s.read keys⟩)
    | some _ => none
  | .load i keys =>
    match s.runs i with
    | none => some (s.setRun i ⟨.fill, s.read keys⟩)
    | some ⟨.fill, todo⟩ => some (s.setRun i ⟨.fill, todo ++ s.read keys⟩)
    | some ⟨.refresh, _⟩ => none
  | .write i ok =>
    match s.runs i with
    | some ⟨kind, e :: todo⟩ =>
      some ((if ok then s.arrive kind e else s).setRun i ⟨kind, todo⟩)
    | _ => none
  | .drop k => some { s with redis := Function.update s.redis k none }

/-- Every committed change has been followed by its refresh. -/
def CopySys.Caught (s : CopySys α) : Prop := ∀ k, s.refreshed k = s.version k

/-- All runs have finished. -/
def CopySys.Quiet (s : CopySys α) : Prop := ∀ i run, s.runs i = some run → run.todo = []

/-- No older snapshot of a key is written over a newer one. -/
def NewestStays (s : CopySys α) : CopyAction α → Prop
  | .write i true => ∀ kind e todo, s.runs i = some ⟨kind, e :: todo⟩ →
      kind = .refresh ∨ s.redis e.key = none → s.published e.key ≤ e.version
  | _ => True

/-- `NewestStays` as a test. -/
def newestStaysCheck (s : CopySys α) : CopyAction α → Bool
  | .write i true =>
    match s.runs i with
    | some ⟨kind, e :: _⟩ =>
      !(kind = .refresh || (s.redis e.key).isNone) || s.published e.key ≤ e.version
    | _ => true
  | _ => true

theorem newestStays_of_check (s : CopySys α) (a : CopyAction α)
    (h : newestStaysCheck s a = true) : NewestStays s a := by
  cases a with
  | write i ok =>
    cases ok with
    | false => trivial
    | true =>
      intro kind e todo hrun hput
      rw [newestStaysCheck, hrun] at h
      dsimp only at h
      rw [Bool.or_eq_true, decide_eq_true_eq] at h
      obtain hnot | hle := h
      · exfalso
        rcases hput with rfl | hnone
        · simp at hnot
        · simp [hnone] at hnot
      · exact hle
  | commit changes => trivial
  | refresh i keys => trivial
  | load i keys => trivial
  | drop k => trivial

/-! ## What the counters say -/

structure Inv (s : CopySys α) : Prop where
  /-- a snapshot of the current version is the current value -/
  snapshots : ∀ i run, s.runs i = some run → ∀ e ∈ run.todo,
    e.version ≤ s.version e.key ∧ (e.version = s.version e.key → e.value = s.db e.key)
  /-- and so is a copy -/
  copies : ∀ k x, s.redis k = some x → s.published k = s.version k → x = s.db k
  published_le : ∀ k, s.published k ≤ s.version k
  refreshed_le : ∀ k, s.refreshed k ≤ s.published k

theorem Inv.setRun {s : CopySys α} (h : Inv s) {i : Nat} {run : CopyRun α}
    (hrun : ∀ e ∈ run.todo,
      e.version ≤ s.version e.key ∧ (e.version = s.version e.key → e.value = s.db e.key)) :
    Inv (s.setRun i run) where
  snapshots j run' hj := by
    change Function.update s.runs i (some run) j = some run' at hj
    by_cases hji : j = i
    · subst hji
      rw [Function.update_self] at hj
      obtain rfl := Option.some.inj hj
      exact hrun
    · rw [Function.update_of_ne hji] at hj
      exact h.snapshots j run' hj
  copies := h.copies
  published_le := h.published_le
  refreshed_le := h.refreshed_le

theorem mem_read {s : CopySys α} {keys : List ConfigKey} {e : Snapshot α} (he : e ∈ s.read keys) :
    e.version ≤ s.version e.key ∧ (e.version = s.version e.key → e.value = s.db e.key) := by
  obtain ⟨k, -, rfl⟩ := List.mem_map.mp he
  exact ⟨Nat.le_refl _, fun _ => rfl⟩

/-- The newest snapshot of a key may be written. -/
theorem Inv.put {s : CopySys α} (h : Inv s) {e : Snapshot α}
    (hversion : e.version ≤ s.version e.key)
    (hvalue : e.version = s.version e.key → e.value = s.db e.key)
    (hnewest : s.published e.key ≤ e.version) : Inv (s.put e) := by
  constructor
  case snapshots => exact h.snapshots
  case copies =>
    intro k x hx hpub
    change Function.update s.redis e.key _ k = _ at hx
    change Function.update s.published e.key _ k = s.version k at hpub
    by_cases hk : k = e.key
    · subst hk
      rw [Function.update_self] at hx hpub
      obtain rfl := Option.some.inj hx
      rw [Nat.max_eq_right hnewest] at hpub
      exact hvalue hpub
    · rw [Function.update_of_ne hk] at hx hpub
      exact h.copies k x hx hpub
  case published_le =>
    intro k
    show Function.update s.published e.key _ k ≤ s.version k
    by_cases hk : k = e.key
    · subst hk
      rw [Function.update_self, Nat.max_eq_right hnewest]
      exact hversion
    · rw [Function.update_of_ne hk]
      exact h.published_le k
  case refreshed_le =>
    intro k
    show s.refreshed k ≤ Function.update s.published e.key _ k
    by_cases hk : k = e.key
    · subst hk
      rw [Function.update_self]
      exact Nat.le_trans (h.refreshed_le _) (Nat.le_max_left _ _)
    · rw [Function.update_of_ne hk]
      exact h.refreshed_le k

theorem Inv.markRefreshed {s : CopySys α} (h : Inv s) {e : Snapshot α}
    (hpub : e.version ≤ s.published e.key) : Inv (s.markRefreshed e) where
  snapshots := h.snapshots
  copies := h.copies
  published_le := h.published_le
  refreshed_le k := by
    show Function.update s.refreshed e.key _ k ≤ s.published k
    by_cases hk : k = e.key
    · subst hk
      rw [Function.update_self]
      exact Nat.max_le.mpr ⟨h.refreshed_le _, hpub⟩
    · rw [Function.update_of_ne hk]
      exact h.refreshed_le k

/-- A write that arrives and leaves the newest snapshot. -/
theorem Inv.arrive {s : CopySys α} (h : Inv s) {kind : RunKind} {e : Snapshot α}
    (hversion : e.version ≤ s.version e.key)
    (hvalue : e.version = s.version e.key → e.value = s.db e.key)
    (hnewest : kind = .refresh ∨ s.redis e.key = none → s.published e.key ≤ e.version) :
    Inv (s.arrive kind e) := by
  cases kind with
  | refresh =>
    refine (h.put hversion hvalue (hnewest (.inl rfl))).markRefreshed ?_
    show e.version ≤ Function.update s.published e.key _ e.key
    rw [Function.update_self]
    exact Nat.le_max_right _ _
  | fill =>
    rw [CopySys.arrive]
    split
    · rename_i hnone
      exact h.put hversion hvalue (hnewest (.inr (Option.isNone_iff_eq_none.mp hnone)))
    · exact h

/-- A commit makes every snapshot and copy of a key it changes an old one. -/
theorem Inv.commit {s : CopySys α} (h : Inv s) (changes : Dict ConfigKey α) :
    Inv { s with
      db := fun k => (changes.get? k).getD (s.db k)
      version := fun k => if (changes.get? k).isSome then s.version k + 1 else s.version k } := by
  -- a key that still has an old version number has not been changed
  have hsame : ∀ {k : ConfigKey} {v : Nat}, v ≤ s.version k →
      v = (if (changes.get? k).isSome then s.version k + 1 else s.version k) →
      v = s.version k ∧ (changes.get? k).getD (s.db k) = s.db k := by
    intro k v hle heq
    cases hk : changes.get? k with
    | none =>
      rw [hk] at heq
      exact ⟨heq, rfl⟩
    | some x =>
      rw [hk, Option.isSome_some, if_pos rfl] at heq
      omega
  have hgrow : ∀ k, s.version k ≤
      if (changes.get? k).isSome then s.version k + 1 else s.version k := by
    intro k
    split <;> omega
  constructor
  case snapshots =>
    intro i run hrun e he
    obtain ⟨hle, hvalue⟩ := h.snapshots i run hrun e he
    refine ⟨Nat.le_trans hle (hgrow _), fun heq => ?_⟩
    obtain ⟨hold, hdb⟩ := hsame hle heq
    exact (hvalue hold).trans hdb.symm
  case copies =>
    intro k x hx hpub
    obtain ⟨hold, hdb⟩ := hsame (h.published_le k) hpub
    exact (h.copies k x hx hold).trans hdb.symm
  case published_le => exact fun k => Nat.le_trans (h.published_le k) (hgrow k)
  case refreshed_le => exact h.refreshed_le

/-- What a step can do: a commit, a run that reads or whose write fails, a write that arrives,
or a copy that leaves Redis. -/
theorem step_cases {s s' : CopySys α} {a : CopyAction α} (hstep : step s a = some s') :
    (∃ changes : Dict ConfigKey α, s' = { s with
      db := fun k => (changes.get? k).getD (s.db k)
      version := fun k => if (changes.get? k).isSome then s.version k + 1 else s.version k }) ∨
    (∃ i run, s' = s.setRun i run ∧ ∀ e ∈ run.todo,
      (∃ run', s.runs i = some run' ∧ e ∈ run'.todo) ∨ ∃ keys, e ∈ s.read keys) ∨
    (∃ i kind e todo, a = .write i true ∧ s.runs i = some ⟨kind, e :: todo⟩ ∧
      s' = (s.arrive kind e).setRun i ⟨kind, todo⟩) ∨
    ∃ k, a = .drop k ∧ s' = { s with redis := Function.update s.redis k none } := by
  cases a with
  | commit changes => exact .inl ⟨changes, (Option.some.inj hstep).symm⟩
  | refresh i keys =>
    rw [step] at hstep
    split at hstep
    · exact .inr (.inl ⟨i, _, (Option.some.inj hstep).symm, fun e he => .inr ⟨keys, he⟩⟩)
    · cases hstep
  | load i keys =>
    rw [step] at hstep
    split at hstep
    · exact .inr (.inl ⟨i, _, (Option.some.inj hstep).symm, fun e he => .inr ⟨keys, he⟩⟩)
    · rename_i todo hrun
      refine .inr (.inl ⟨i, _, (Option.some.inj hstep).symm, fun e he => ?_⟩)
      exact (List.mem_append.mp he).imp (fun hold => ⟨_, hrun, hold⟩) fun hread => ⟨keys, hread⟩
    · cases hstep
  | write i ok =>
    rw [step] at hstep
    split at hstep
    · rename_i kind e todo hrun
      cases ok with
      | false =>
        exact .inr (.inl ⟨i, _, (Option.some.inj hstep).symm,
          fun x hx => .inl ⟨_, hrun, List.mem_cons_of_mem _ hx⟩⟩)
      | true =>
        exact .inr (.inr (.inl ⟨i, kind, e, todo, rfl, hrun, (Option.some.inj hstep).symm⟩))
    · cases hstep
  | drop k => exact .inr (.inr (.inr ⟨k, rfl, (Option.some.inj hstep).symm⟩))

/-- A write changes neither the database nor its versions. -/
theorem arrive_frame (s : CopySys α) (kind : RunKind) (e : Snapshot α) :
    (s.arrive kind e).version = s.version ∧ (s.arrive kind e).db = s.db := by
  cases kind with
  | refresh => exact ⟨rfl, rfl⟩
  | fill =>
    rw [CopySys.arrive]
    split <;> exact ⟨rfl, rfl⟩

theorem step_inv {s s' : CopySys α} {a : CopyAction α} (h : Inv s) (hG : NewestStays s a)
    (hstep : step s a = some s') : Inv s' := by
  rcases step_cases hstep with ⟨changes, rfl⟩ | ⟨i, run, rfl, hrun⟩ |
    ⟨i, kind, e, todo, rfl, hrun, rfl⟩ | ⟨k, rfl, rfl⟩
  · exact h.commit changes
  · refine h.setRun fun e he => ?_
    rcases hrun e he with ⟨run', hrun', hmem⟩ | ⟨keys, hread⟩
    · exact h.snapshots i run' hrun' e hmem
    · exact mem_read hread
  · obtain ⟨hversion, hvalue⟩ := h.snapshots i _ hrun e List.mem_cons_self
    refine (h.arrive hversion hvalue (hG kind e todo hrun)).setRun fun x hx => ?_
    obtain ⟨hversions, hdb⟩ := arrive_frame s kind e
    rw [hversions, hdb]
    exact h.snapshots i _ hrun x (List.mem_cons_of_mem _ hx)
  · refine ⟨h.snapshots, fun k' x hx => ?_, h.published_le, h.refreshed_le⟩
    change Function.update s.redis k none k' = some x at hx
    by_cases hk : k' = k
    · rw [hk, Function.update_self] at hx
      cases hx
    · rw [Function.update_of_ne hk] at hx
      exact h.copies k' x hx

/-- A write leaves a copy of its own key, and the copies of the others. -/
theorem put_present {s : CopySys α} {k : ConfigKey} (e : Snapshot α)
    (h : k ≠ e.key → (s.redis k).isSome = true) : ((s.put e).redis k).isSome = true := by
  show (Function.update s.redis e.key _ k).isSome = true
  by_cases hk : k = e.key
  · rw [hk, Function.update_self]
    rfl
  · rw [Function.update_of_ne hk]
    exact h hk

theorem arrive_present {s : CopySys α} {k : ConfigKey} (kind : RunKind) (e : Snapshot α)
    (h : 0 < s.refreshed k → (s.redis k).isSome = true) :
    0 < (s.arrive kind e).refreshed k → ((s.arrive kind e).redis k).isSome = true := by
  cases kind with
  | fill =>
    rw [CopySys.arrive]
    split
    · exact fun hpos => put_present e fun _ => h hpos
    · exact h
  | refresh =>
    intro hpos
    change 0 < Function.update s.refreshed e.key _ k at hpos
    refine put_present e fun hk => ?_
    rw [Function.update_of_ne hk] at hpos
    exact h hpos

/-- A key that a refresh has written stays in Redis until it is dropped. -/
theorem step_present {k : ConfigKey} {s s' : CopySys α} {a : CopyAction α}
    (h : 0 < s.refreshed k → (s.redis k).isSome = true) (ha : a ≠ .drop k)
    (hstep : step s a = some s') : 0 < s'.refreshed k → (s'.redis k).isSome = true := by
  rcases step_cases hstep with ⟨changes, rfl⟩ | ⟨i, run, rfl, -⟩ |
    ⟨i, kind, e, todo, rfl, -, rfl⟩ | ⟨k', rfl, rfl⟩
  · exact h
  · exact h
  · exact arrive_present kind e h
  · intro hpos
    have hk : k ≠ k' := fun heq => ha (heq ▸ rfl)
    show (Function.update s.redis k' none k).isSome = true
    rw [Function.update_of_ne hk]
    exact h hpos

/-! ## Convergence -/

/-- **Redis follows the database.** When no run writes an older snapshot of a key over a newer
one, then in every state in which each committed change has been followed by its refresh and
all runs have finished, a copy in Redis is what the database holds, and a changed key has a copy
unless Redis dropped it. -/
theorem redis_follows_database {db : ConfigKey → α} {redis : ConfigKey → Option α}
    (hredis : ∀ k x, redis k = some x → x = db k) {as : List (CopyAction α)} {s : CopySys α}
    (h : Run step (CopySys.start db redis) as s)
    (hG : Guarded step NewestStays (CopySys.start db redis) as)
    (hcaught : s.Caught) (_hquiet : s.Quiet) (k : ConfigKey) :
    (∀ x, s.redis k = some x → x = s.db k) ∧
      (0 < s.version k → .drop k ∉ as → s.redis k = some (s.db k)) := by
  have hinv : Inv s := Run.guardedInvariant (fun _ _ _ => step_inv) h hG
    ⟨by simp [CopySys.start], fun k x hx _ => hredis k x hx, fun _ => Nat.le_refl _,
      fun _ => Nat.le_refl _⟩
  -- the newest version that was written is the current one
  have hpub : s.published k = s.version k :=
    Nat.le_antisymm (hinv.published_le k) (hcaught k ▸ hinv.refreshed_le k)
  have hcopy : ∀ x, s.redis k = some x → x = s.db k := fun x hx => hinv.copies k x hx hpub
  refine ⟨hcopy, fun hpos hdrop => ?_⟩
  have hkept : Guarded step (fun _ a => a ≠ .drop k) (CopySys.start db redis) as :=
    hG.mono fun _ a ha _ heq => hdrop (heq ▸ ha)
  have hpresent := Run.guardedInvariant
    (P := fun t : CopySys α => 0 < t.refreshed k → (t.redis k).isSome = true)
    (fun _ _ _ => step_present) h hkept (fun hpos => absurd hpos (Nat.lt_irrefl 0))
  obtain ⟨x, hx⟩ := Option.isSome_iff_exists.mp (hpresent (hcaught k ▸ hpos))
  rw [hx, hcopy x hx]

/-- Two commits of the settings, with the second refresh overtaking the first. -/
def overtaking : List (CopyAction Nat) :=
  [.commit [(.settings, 1)], .refresh 0 [.settings], .commit [(.settings, 2)],
    .refresh 1 [.settings], .write 1 true, .write 0 true]

/-- The overtaken refresh writes last: all is refreshed and finished, and Redis holds the old
settings. -/
theorem older_refresh_written_last :
    ∃ s, Run step (CopySys.start (fun _ => 0) fun _ => none) overtaking s ∧ s.Caught ∧ s.Quiet ∧
      s.redis .settings = some 1 ∧ s.db .settings = 2 := by
  refine ⟨_, run_final (by decide), fun k => ?_, fun i run hrun => ?_, rfl, rfl⟩
  · cases k <;> rfl
  · match i, hrun with
    | 0, hrun => exact (Option.some.inj hrun) ▸ rfl
    | 1, hrun => exact (Option.some.inj hrun) ▸ rfl
    | n + 2, hrun => cases hrun

/-- A refresh may write its snapshot late, as long as it is overwritten by the newer one. -/
def inOrder : List (CopyAction Nat) :=
  [.load 2 [.settings], .commit [(.settings, 1)], .refresh 0 [.settings], .write 2 true,
    .commit [(.settings, 2)], .refresh 1 [.settings], .write 0 true, .write 1 true]

theorem redis_follows_database_in_order :
    ∃ s, Run step (CopySys.start (fun _ => 0) fun _ => none) inOrder s ∧
      s.redis .settings = some (s.db .settings) ∧ s.db .settings = 2 := by
  have hrun : Run step (CopySys.start (fun _ => 0) fun _ => none) inOrder _ :=
    run_final (by decide)
  have hG : Guarded step NewestStays (CopySys.start (fun _ => 0) fun _ => none) inOrder :=
    guarded_of_check newestStays_of_check (by decide)
  refine ⟨_, hrun, (redis_follows_database (by simp) hrun hG (fun k => ?_) (fun i run hi => ?_)
    .settings).2 (by decide) (by simp [inOrder]), rfl⟩
  · cases k <;> rfl
  · match i, hi with
    | 0, hi => exact (Option.some.inj hi) ▸ rfl
    | 1, hi => exact (Option.some.inj hi) ▸ rfl
    | 2, hi => exact (Option.some.inj hi) ▸ rfl
    | n + 3, hi => cases hi

end Ai4iCore.Kafka.Refresh
