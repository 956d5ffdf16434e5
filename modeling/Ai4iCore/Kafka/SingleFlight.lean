import Ai4iCore.Base.Dict
import Ai4iCore.Base.Run
import Mathlib.Data.List.Nodup
import Mathlib.Logic.Relation

/-!
# Single-flight reads

`TieredCache.read` (cache.py) in one process. A call that misses keys in L1 registers a
future in `_inflight` for every one of them that nobody is loading (`claim`), loads what it
owns, and then waits for the futures of the others. One wait comes earlier: a load that
needs the catalog ids for its ledger rows, and does not own the settings, waits for the
settings future (`ReadPhase.settingsWait`).

A reader stands at one of the `await`s of the source, and an event says how that `await`
ends; the code up to the next `await` runs at once. What L1 and Redis hold, and how the
database answers, is left to the events. Several `await`s that touch no future, as those
inside `_fill_settings`, are one phase. `cancel` stands for a cancellation and for any
exception that leaves `_load_owned`.

The `finally` of `read` closes what the call owns (`Flight.close`), so that a future is
pending only while its owner loads; a load waits for nothing but the settings, and who owns
these does not wait. Hence no circle (`reads_cannot_deadlock`).
-/

namespace Ai4iCore.Kafka.SingleFlight

open StepSystem

/-! ## Futures -/

/-- `SETTINGS_KEY`, `subscription_key(tenant)` and `ref.key`. -/
inductive CacheKey
  | settings
  | subscription (tenant : String)
  | ledger (key : String)
  deriving DecidableEq, Repr

def CacheKey.isSubscription : CacheKey → Bool
  | .subscription _ => true
  | _ => false

def CacheKey.isLedger : CacheKey → Bool
  | .ledger _ => true
  | _ => false

inductive FutureState
  | pending
  | result
  | exception
  deriving DecidableEq, Repr

/-- Keys with their futures: `owned` and `waits` of a call. -/
abbrev Claims := Dict CacheKey Nat

/-- The futures of the process: `_inflight`, and the state of each future. -/
structure Flight where
  inflight : CacheKey → Option Nat
  future : Nat → Option FutureState
  next : Nat

/-- `_claim` for one key after another. -/
structure Claiming where
  flight : Flight
  owned : Claims
  waits : Claims

/-- `_claim`: own the load of `key`, or wait for the call that is loading it. -/
def claim (c : Claiming) (key : CacheKey) : Claiming :=
  match c.flight.inflight key with
  | some id => { c with waits := c.waits ++ [(key, id)] }
  | none =>
    { flight :=
        { inflight := Function.update c.flight.inflight key (some c.flight.next)
          future := Function.update c.flight.future c.flight.next (some .pending)
          next := c.flight.next + 1 }
      owned := c.owned ++ [(key, c.flight.next)]
      waits := c.waits }

/-- `set_result` or `set_exception` on one future after another, up to the first that is done
already: that one raises `InvalidStateError`, and the answer is `false`. -/
def Flight.complete (v : FutureState) : Claims → Flight → Flight × Bool
  | [], fl => (fl, true)
  | e :: es, fl =>
    if fl.future e.2 = some .pending then
      Flight.complete v es { fl with future := Function.update fl.future e.2 (some v) }
    else (fl, false)

/-- The `finally` of `read`, for one owned key. -/
def Flight.closeOne (fl : Flight) (e : CacheKey × Nat) : Flight :=
  { fl with
    future := if fl.future e.2 = some .pending then
        Function.update fl.future e.2 (some .exception) else fl.future
    inflight := Function.update fl.inflight e.1 none }

/-- The `finally` of `read`. -/
def Flight.close (owned : Claims) (fl : Flight) : Flight := owned.foldl Flight.closeOne fl

/-! ## Readers -/

/-- The `await` a call of `read` stands at. -/
inductive ReadPhase
  /-- `pipe.execute()` -/
  | redis
  /-- `failures.record`, after a failed pipeline -/
  | recordFailure
  /-- `_fill_settings` -/
  | settings
  /-- `load_subscriptions_many`, for `subs_db` -/
  | subscriptions (todo : Claims)
  /-- `shield(settings_wait)`, with `refs_db` still to load -/
  | settingsWait (id : Nat) (todo : Claims)
  /-- `read_states`, for `refs_db` -/
  | ledger (todo : Claims)
  /-- `_fill` -/
  | fill
  /-- `shield(future)`, for the futures of other calls -/
  | waits (todo : Claims)
  /-- returned or raised -/
  | done
  deriving DecidableEq

/-- Inside `_load_owned`. -/
def ReadPhase.loading : ReadPhase → Bool
  | .waits _ => false
  | .done => false
  | _ => true

/-- A call of `read`: what it owns, what it waits for, and the locals of `_load_owned` that
decide what comes next. `hit` says which keys Redis had a well-formed value for. -/
structure Reader where
  owned : Claims
  waits : Claims
  snapshot : Bool
  redisOk : Bool
  hit : CacheKey → Bool
  fills : Bool
  phase : ReadPhase

/-- `_load_owned` is left: `finally`, and then the waits, or the exception goes on. -/
def Reader.finish (r : Reader) (raised : Bool) (fl : Flight) : Flight × Reader :=
  (fl.close r.owned, { r with phase := if raised then .done else .waits r.waits })

/-- Complete `entries` and go on with `k`; an `InvalidStateError` leaves `_load_owned`. -/
def Reader.settle (r : Reader) (v : FutureState) (entries : Claims) (fl : Flight)
    (k : Flight → Flight × Reader) : Flight × Reader :=
  match Flight.complete v entries fl with
  | (fl', true) => k fl'
  | (fl', false) => r.finish true fl'

/-- The fill pipeline, if there is anything to fill. -/
def Reader.toFill (r : Reader) (fl : Flight) : Flight × Reader :=
  if r.redisOk && r.fills then (fl, { r with phase := .fill }) else r.finish false fl

/-- The ledger part: what Redis had, then the database. -/
def Reader.toLedger (r : Reader) (fl : Flight) : Flight × Reader :=
  let refs := r.owned.filter (·.1.isLedger)
  let todo := refs.filter fun e => !r.hit e.1
  r.settle .result (refs.filter fun e => r.hit e.1) fl fun fl =>
    if todo.isEmpty then r.toFill fl
    else if r.snapshot then (fl, { r with phase := .ledger todo })
    else
      match r.waits.get? .settings with
      | some id => (fl, { r with phase := .settingsWait id todo })
      | none => r.settle .exception todo fl r.toFill

/-- The subscription part: what Redis had, then the database. -/
def Reader.toSubscriptions (r : Reader) (fl : Flight) : Flight × Reader :=
  let subs := r.owned.filter (·.1.isSubscription)
  let todo := subs.filter fun e => !r.hit e.1
  r.settle .result (subs.filter fun e => r.hit e.1) fl fun fl =>
    if todo.isEmpty then r.toLedger fl else (fl, { r with phase := .subscriptions todo })

/-- The settings part: what Redis had, or `_fill_settings`. -/
def Reader.toSettings (r : Reader) (fl : Flight) : Flight × Reader :=
  match r.owned.get? .settings with
  | some id =>
    if r.hit .settings then
      let r' := { r with snapshot := true }
      r'.settle .result [(.settings, id)] fl r'.toSubscriptions
    else (fl, { r with phase := .settings })
  | none => r.toSubscriptions fl

/-- How the `await` of a call ends. -/
inductive Event
  | redis (hit : CacheKey → Bool)
  | redisError
  | recorded
  | settingsLoaded (fromDb : Bool)
  /-- an exception before (`snapshot = false`) or after the snapshot was there -/
  | settingsFailed (snapshot : Bool)
  | subscriptionsLoaded
  /-- an exception after `n` of the futures were completed -/
  | subscriptionsFailed (n : Nat)
  | settingsWoken
  | ledgerLoaded
  | ledgerFailed (n : Nat)
  | filled
  | woken
  | cancel

/-- The settings future is completed, and the load goes on. -/
def Reader.settingsDone (r : Reader) (v : FutureState) (fl : Flight) : Flight × Reader :=
  match r.owned.get? .settings with
  | some id => r.settle v [(.settings, id)] fl r.toSubscriptions
  | none => r.toSubscriptions fl

/-- Call `r` goes on to its next `await`; `none` when its `await` does not end so. -/
def Reader.advance (r : Reader) (fl : Flight) : Event → Option (Flight × Reader)
  | .redis hit =>
    match r.phase with
    | .redis => some (({ r with redisOk := true, hit := hit } : Reader).toSettings fl)
    | _ => none
  | .redisError =>
    match r.phase with
    | .redis =>
      some (fl, { r with redisOk := false, hit := fun _ => false, phase := .recordFailure })
    | _ => none
  | .recorded =>
    match r.phase with
    | .recordFailure => some (r.toSettings fl)
    | _ => none
  | .settingsLoaded fromDb =>
    match r.phase with
    | .settings =>
      some (({ r with snapshot := true, fills := fromDb } : Reader).settingsDone .result fl)
    | _ => none
  | .settingsFailed snapshot =>
    match r.phase with
    | .settings => some (({ r with snapshot := snapshot } : Reader).settingsDone .exception fl)
    | _ => none
  | .subscriptionsLoaded =>
    match r.phase with
    | .subscriptions todo =>
      some (r.settle .result todo fl ({ r with fills := true } : Reader).toLedger)
    | _ => none
  | .subscriptionsFailed n =>
    match r.phase with
    | .subscriptions todo =>
      some (r.settle .result (todo.take n) fl fun fl =>
        r.settle .exception todo fl ({ r with fills := r.fills || 0 < n } : Reader).toLedger)
    | _ => none
  | .settingsWoken =>
    match r.phase with
    | .settingsWait id todo =>
      match fl.future id with
      | some .result => some (fl, { r with snapshot := true, phase := .ledger todo })
      | some .exception => some (r.settle .exception todo fl r.toFill)
      | _ => none
    | _ => none
  | .ledgerLoaded =>
    match r.phase with
    | .ledger todo => some (r.settle .result todo fl ({ r with fills := true } : Reader).toFill)
    | _ => none
  | .ledgerFailed n =>
    match r.phase with
    | .ledger todo =>
      some (r.settle .result (todo.take n) fl fun fl =>
        r.settle .exception todo fl ({ r with fills := r.fills || 0 < n } : Reader).toFill)
    | _ => none
  | .filled =>
    match r.phase with
    | .fill => some (r.finish false fl)
    | _ => none
  | .woken =>
    match r.phase with
    | .waits [] => some (fl, { r with phase := .done })
    | .waits (e :: rest) =>
      if fl.future e.2 = some .pending then none else some (fl, { r with phase := .waits rest })
    | _ => none
  | .cancel =>
    match r.phase with
    | .done => none
    | .waits _ => some (fl, { r with phase := .done })
    | _ => some (r.finish true fl)

/-! ## The process -/

/-- The futures and the calls of one process. A call that ended stays as `done`. -/
structure Process where
  flight : Flight
  readers : Nat → Option Reader

def Process.init : Process := ⟨⟨fun _ => none, fun _ => none, 0⟩, fun _ => none⟩

/-- The keys of a call: the settings, the tenants and the ledger rows, none of them twice. -/
def keysOf (tenants refs : List String) : List CacheKey :=
  .settings :: ((Dict.fromKeys tenants).map .subscription ++ (Dict.fromKeys refs).map .ledger)

/-- `read`, up to its first `await`. -/
def startRead (fl : Flight) (l1 : CacheKey → Bool) (tenants refs : List String) :
    Flight × Reader :=
  let c := ((keysOf tenants refs).filter fun k => !l1 k).foldl claim ⟨fl, [], []⟩
  (c.flight, ⟨c.owned, c.waits, l1 .settings, true, fun _ => false, false,
    if c.owned.isEmpty then .waits c.waits else .redis⟩)

inductive Action
  | read (i : Nat) (l1 : CacheKey → Bool) (tenants refs : List String)
  | event (i : Nat) (e : Event)

def Process.set (p : Process) (i : Nat) (x : Flight × Reader) : Process :=
  ⟨x.1, Function.update p.readers i (some x.2)⟩

def step (p : Process) : Action → Option Process
  | .read i l1 tenants refs =>
    if (p.readers i).isNone then some (p.set i (startRead p.flight l1 tenants refs)) else none
  | .event i e =>
    match p.readers i with
    | some r => (r.advance p.flight e).map (p.set i)
    | none => none

/-! ## Who waits for whom -/

/-- The future a call is waiting for. -/
def Reader.awaits (r : Reader) : Option Nat :=
  match r.phase with
  | .settingsWait id _ => some id
  | .waits (e :: _) => some e.2
  | _ => none

/-- Call `i` registered the future `id`. -/
def Owns (p : Process) (i id : Nat) : Prop := ∃ r, p.readers i = some r ∧ id ∈ r.owned.map Prod.snd

/-- Call `i` is blocked on a future of call `j`. -/
def WaitsFor (p : Process) (i j : Nat) : Prop :=
  ∃ r id, p.readers i = some r ∧ r.awaits = some id ∧ p.flight.future id = some .pending ∧
    Owns p j id

/-! ## What a load does to the futures -/

/-- Some of the futures `ids` have been completed, and nothing else has changed. -/
structure Settled (owned : Claims) (fl fl' : Flight) : Prop where
  inflight : fl'.inflight = fl.inflight
  next : fl'.next = fl.next
  future : ∀ id, fl'.future id = fl.future id ∨
    id ∈ owned.map Prod.snd ∧ (fl.future id).isSome ∧
      (fl'.future id = some .result ∨ fl'.future id = some .exception)

theorem Settled.refl (owned : Claims) (fl : Flight) : Settled owned fl fl :=
  ⟨rfl, rfl, fun _ => .inl rfl⟩

theorem Settled.trans {owned : Claims} {fl fl' fl'' : Flight} (h : Settled owned fl fl')
    (h' : Settled owned fl' fl'') : Settled owned fl fl'' := by
  refine ⟨h'.inflight.trans h.inflight, h'.next.trans h.next, fun id => ?_⟩
  obtain heq' | ⟨hid, hsome, hdone⟩ := h'.future id
  · rw [heq']
    exact h.future id
  · refine .inr ⟨hid, ?_, hdone⟩
    obtain heq | ⟨-, hsome', -⟩ := h.future id
    · rwa [heq] at hsome
    · exact hsome'

theorem complete_settled {owned entries : Claims} (hsub : entries ⊆ owned) {v : FutureState}
    (hv : v ≠ .pending) (fl : Flight) : Settled owned fl (Flight.complete v entries fl).1 := by
  induction entries generalizing fl with
  | nil => exact Settled.refl _ _
  | cons e entries ih =>
    rw [Flight.complete]
    split
    · rename_i hpending
      have hone : Settled owned fl
          { fl with future := Function.update fl.future e.2 (some v) } := by
        refine ⟨rfl, rfl, fun id => ?_⟩
        by_cases hid : id = e.2
        · subst hid
          refine .inr ⟨List.mem_map_of_mem (hsub List.mem_cons_self), by rw [hpending]; rfl, ?_⟩
          dsimp only
          rw [Function.update_self]
          cases v with
          | pending => exact absurd rfl hv
          | result => exact .inl rfl
          | exception => exact .inr rfl
        · exact .inl (Function.update_of_ne hid _ _)
      exact hone.trans (ih (fun x hx => hsub (List.mem_cons_of_mem _ hx)) _)
    · exact Settled.refl _ _

/-- A loading phase: what is left to load is owned, and the settings are waited for only as
one of `waits`. -/
def ReadPhase.LoadingIn (owned waits : Claims) : ReadPhase → Prop
  | .subscriptions todo => todo ⊆ owned
  | .settingsWait id todo => (CacheKey.settings, id) ∈ waits ∧ todo ⊆ owned
  | .ledger todo => todo ⊆ owned
  | phase => phase.loading = true

theorem ReadPhase.LoadingIn.loading {owned waits : Claims} {phase : ReadPhase}
    (h : phase.LoadingIn owned waits) : phase.loading = true := by
  cases phase <;> first | rfl | exact h

/-- The phases behind `_load_owned`. -/
def ReadPhase.Past (waits : Claims) (phase : ReadPhase) : Prop :=
  phase = .done ∨ phase = .waits waits

/-- What a call inside `_load_owned` comes to: some of its futures are completed, and it is
still inside, or it has closed them. -/
def Loads (r : Reader) (fl : Flight) (x : Flight × Reader) : Prop :=
  x.2.owned = r.owned ∧ x.2.waits = r.waits ∧ ∃ m, Settled r.owned fl m ∧
    ((x.1 = m ∧ x.2.phase.LoadingIn r.owned r.waits) ∨
      (x.1 = m.close r.owned ∧ x.2.phase.Past r.waits))

theorem loads_finish (r : Reader) (raised : Bool) (fl : Flight) :
    Loads r fl (r.finish raised fl) := by
  refine ⟨rfl, rfl, fl, Settled.refl _ _, .inr ⟨rfl, ?_⟩⟩
  cases raised
  · exact .inr rfl
  · exact .inl rfl

/-- A call that goes on inside `_load_owned`. -/
theorem loads_at (r : Reader) (fl : Flight) {r' : Reader} (howned : r'.owned = r.owned)
    (hwaits : r'.waits = r.waits) (hphase : r'.phase.LoadingIn r.owned r.waits) : Loads r fl (fl, r') :=
  ⟨howned, hwaits, fl, Settled.refl _ _, .inl ⟨rfl, hphase⟩⟩

/-- The locals of a load do not matter for what it may do. -/
theorem Loads.of_eq {r r' : Reader} {fl : Flight} {x : Flight × Reader} (h : Loads r' fl x)
    (howned : r'.owned = r.owned) (hwaits : r'.waits = r.waits) : Loads r fl x := by
  unfold Loads at h
  rwa [howned, hwaits] at h

theorem loads_settle {r : Reader} {v : FutureState} {entries : Claims} {fl : Flight}
    {k : Flight → Flight × Reader} (hsub : entries ⊆ r.owned) (hv : v ≠ .pending)
    (hk : ∀ fl', Loads r fl' (k fl')) : Loads r fl (r.settle v entries fl k) := by
  have hsettled := complete_settled hsub hv fl
  unfold Reader.settle
  split
  · rename_i fl' heq
    rw [heq] at hsettled
    obtain ⟨howned, hwaits, m, hm, hx⟩ := hk fl'
    exact ⟨howned, hwaits, m, hsettled.trans hm, hx⟩
  · rename_i fl' heq
    rw [heq] at hsettled
    obtain ⟨howned, hwaits, m, hm, hx⟩ := loads_finish r true fl'
    exact ⟨howned, hwaits, m, hsettled.trans hm, hx⟩

theorem loads_toFill (r : Reader) (fl : Flight) : Loads r fl (r.toFill fl) := by
  unfold Reader.toFill
  split
  · exact loads_at r fl rfl rfl rfl
  · exact loads_finish r false fl

theorem loads_toLedger (r : Reader) (fl : Flight) : Loads r fl (r.toLedger fl) := by
  have hrefs : r.owned.filter (·.1.isLedger) ⊆ r.owned := List.filter_subset_self _
  have htodo := List.Subset.trans (List.filter_subset_self (p := fun e => !r.hit e.1) _) hrefs
  refine loads_settle (List.Subset.trans (List.filter_subset_self _) hrefs) (by decide) fun fl => ?_
  split
  · exact loads_toFill r fl
  · split
    · exact loads_at r fl rfl rfl htodo
    · split
      · rename_i id hid
        exact loads_at r fl rfl rfl ⟨Dict.mem_of_get? hid, htodo⟩
      · exact loads_settle htodo (by decide) (loads_toFill r)

theorem loads_toSubscriptions (r : Reader) (fl : Flight) :
    Loads r fl (r.toSubscriptions fl) := by
  have hsubs : r.owned.filter (·.1.isSubscription) ⊆ r.owned := List.filter_subset_self _
  have htodo := List.Subset.trans (List.filter_subset_self (p := fun e => !r.hit e.1) _) hsubs
  refine loads_settle (List.Subset.trans (List.filter_subset_self _) hsubs) (by decide) fun fl => ?_
  split
  · exact loads_toLedger r fl
  · exact loads_at r fl rfl rfl htodo

/-- The settings future is completed, if it is owned. -/
theorem loads_settings {r : Reader} {v : FutureState} {id : Nat} {fl : Flight}
    (hid : r.owned.get? .settings = some id) (hv : v ≠ .pending) :
    Loads r fl (r.settle v [(.settings, id)] fl r.toSubscriptions) := by
  refine loads_settle ?_ hv (loads_toSubscriptions r)
  intro e he
  obtain rfl := List.mem_singleton.mp he
  exact Dict.mem_of_get? hid

theorem loads_settingsDone (r : Reader) {v : FutureState} (hv : v ≠ .pending) (fl : Flight) :
    Loads r fl (r.settingsDone v fl) := by
  unfold Reader.settingsDone
  split
  · rename_i id hid
    exact loads_settings hid hv
  · exact loads_toSubscriptions r fl

theorem loads_toSettings (r : Reader) (fl : Flight) : Loads r fl (r.toSettings fl) := by
  unfold Reader.toSettings
  split
  · rename_i id hid
    split
    · exact (loads_settings (r := { r with snapshot := true }) hid (by decide)).of_eq rfl rfl
    · exact loads_at r fl rfl rfl rfl
  · exact loads_toSubscriptions r fl

/-- An exception after `n` of the futures were completed. -/
theorem loads_failed {r : Reader} {todo : Claims} (htodo : todo ⊆ r.owned) (n : Nat)
    {fl : Flight} {k : Flight → Flight × Reader} (hk : ∀ fl', Loads r fl' (k fl')) :
    Loads r fl (r.settle .result (todo.take n) fl fun fl => r.settle .exception todo fl k) :=
  loads_settle (List.Subset.trans (List.take_subset _ _) htodo) (by decide) fun _ =>
    loads_settle htodo (by decide) hk

/-- A call inside `_load_owned` by any of its events. -/
theorem advance_loads {r : Reader} {fl : Flight} {e : Event} {x : Flight × Reader}
    (hphase : r.phase.LoadingIn r.owned r.waits) (h : r.advance fl e = some x) :
    Loads r fl x := by
  cases hp : r.phase with
  | redis =>
    cases e <;> simp only [Reader.advance, hp] at h <;> cases h
    · exact (loads_toSettings _ fl).of_eq rfl rfl
    · exact loads_at r fl rfl rfl rfl
    · exact loads_finish r true fl
  | recordFailure =>
    cases e <;> simp only [Reader.advance, hp] at h <;> cases h
    · exact loads_toSettings r fl
    · exact loads_finish r true fl
  | settings =>
    cases e <;> simp only [Reader.advance, hp] at h <;> cases h
    · exact (loads_settingsDone _ (by decide) fl).of_eq rfl rfl
    · exact (loads_settingsDone _ (by decide) fl).of_eq rfl rfl
    · exact loads_finish r true fl
  | subscriptions todo =>
    have htodo : todo ⊆ r.owned := by rwa [hp] at hphase
    cases e <;> simp only [Reader.advance, hp] at h <;> cases h
    · exact loads_settle htodo (by decide) fun fl => (loads_toLedger _ fl).of_eq rfl rfl
    · exact loads_failed htodo _ fun fl => (loads_toLedger _ fl).of_eq rfl rfl
    · exact loads_finish r true fl
  | settingsWait id todo =>
    have htodo : todo ⊆ r.owned := by
      rw [hp] at hphase
      exact hphase.2
    cases e <;> simp only [Reader.advance, hp] at h
    case settingsWoken =>
      split at h
      · obtain rfl := Option.some.inj h
        exact loads_at r fl rfl rfl htodo
      · obtain rfl := Option.some.inj h
        exact loads_settle htodo (by decide) (loads_toFill r)
      · cases h
    case cancel =>
      obtain rfl := Option.some.inj h
      exact loads_finish r true fl
    all_goals cases h
  | ledger todo =>
    have htodo : todo ⊆ r.owned := by rwa [hp] at hphase
    cases e <;> simp only [Reader.advance, hp] at h <;> cases h
    · exact loads_settle htodo (by decide) fun fl => (loads_toFill _ fl).of_eq rfl rfl
    · exact loads_failed htodo _ fun fl => (loads_toFill _ fl).of_eq rfl rfl
    · exact loads_finish r true fl
  | fill =>
    cases e <;> simp only [Reader.advance, hp] at h <;> cases h
    · exact loads_finish r false fl
    · exact loads_finish r true fl
  | waits todo =>
    rw [hp] at hphase
    cases hphase
  | done =>
    rw [hp] at hphase
    cases hphase

/-! ## Behind the `finally` -/

theorem close_inflight (owned : Claims) (fl : Flight) (k : CacheKey) :
    (fl.close owned).inflight k = if k ∈ owned.map Prod.fst then none else fl.inflight k := by
  induction owned generalizing fl with
  | nil => rfl
  | cons e owned ih =>
    show ((fl.closeOne e).close owned).inflight k = _
    rw [ih, List.map_cons]
    by_cases hk : k = e.1
    · simp [Flight.closeOne, hk]
    · simp only [Flight.closeOne, Function.update_of_ne hk, List.mem_cons, hk, false_or]

theorem close_next (owned : Claims) (fl : Flight) : (fl.close owned).next = fl.next := by
  induction owned generalizing fl with
  | nil => rfl
  | cons e owned ih =>
    show ((fl.closeOne e).close owned).next = _
    rw [ih]
    rfl

theorem close_future (owned : Claims) (fl : Flight) (id : Nat) :
    (fl.close owned).future id =
      if id ∈ owned.map Prod.snd ∧ fl.future id = some .pending then some .exception
      else fl.future id := by
  induction owned generalizing fl with
  | nil => simp [Flight.close]
  | cons e owned ih =>
    show ((fl.closeOne e).close owned).future id = _
    rw [ih]
    by_cases hid : id = e.2
    · subst hid
      by_cases hp : fl.future e.2 = some .pending
      · simp [Flight.closeOne, hp]
      · simp [Flight.closeOne, hp]
    · have hsame : (fl.closeOne e).future id = fl.future id := by
        show (if _ then _ else _ : Nat → Option FutureState) id = _
        split
        · exact Function.update_of_ne hid _ _
        · rfl
      simp only [hsame, List.map_cons, List.mem_cons, hid, false_or]

/-! ## The invariant -/

structure Inv (p : Process) : Prop where
  /-- a key in `_inflight` belongs to a call that is loading -/
  registered : ∀ k id, p.flight.inflight k = some id →
    ∃ i r, p.readers i = some r ∧ r.phase.loading = true ∧ (k, id) ∈ r.owned
  /-- a future is registered under one key -/
  oneKey : ∀ k k' id, p.flight.inflight k = some id → p.flight.inflight k' = some id → k = k'
  /-- a future has one owner -/
  oneOwner : ∀ i j r r', p.readers i = some r → p.readers j = some r' →
    ∀ id ∈ r.owned.map Prod.snd, id ∈ r'.owned.map Prod.snd → i = j
  /-- futures are created once -/
  created : ∀ id, (p.flight.future id).isSome = true ↔ id < p.flight.next
  /-- a call knows only futures that exist, and its keys are owned or waited for, not both -/
  known : ∀ i r, p.readers i = some r →
    (∀ e ∈ r.owned ++ r.waits, e.2 < p.flight.next) ∧
    (∀ e ∈ r.owned, ∀ e' ∈ r.waits, e.1 ≠ e'.1 ∧ e.2 ≠ e'.2)
  /-- what a loading call owns is registered -/
  held : ∀ i r, p.readers i = some r → r.phase.loading = true →
    r.phase.LoadingIn r.owned r.waits ∧ ∀ e ∈ r.owned, p.flight.inflight e.1 = some e.2
  /-- what a call owned is completed and removed once the load has ended -/
  closed : ∀ i r, p.readers i = some r → r.phase.loading = false →
    (∀ todo, r.phase = .waits todo → todo ⊆ r.waits) ∧
    ∀ e ∈ r.owned, p.flight.future e.2 ≠ some .pending ∧ p.flight.inflight e.1 ≠ some e.2
  /-- a pending future that is waited for is still registered -/
  waited : ∀ i r, p.readers i = some r → ∀ e ∈ r.waits, p.flight.future e.2 = some .pending →
    p.flight.inflight e.1 = some e.2

theorem set_readers {p : Process} {i j : Nat} {x : Flight × Reader} {r : Reader}
    (h : (p.set i x).readers j = some r) : j = i ∧ r = x.2 ∨ j ≠ i ∧ p.readers j = some r := by
  change Function.update p.readers i (some x.2) j = some r at h
  by_cases hj : j = i
  · rw [hj, Function.update_self] at h
    exact .inl ⟨hj, (Option.some.inj h).symm⟩
  · rw [Function.update_of_ne hj] at h
    exact .inr ⟨hj, h⟩

theorem set_readers_self (p : Process) (i : Nat) (x : Flight × Reader) :
    (p.set i x).readers i = some x.2 := Function.update_self _ _ _

theorem set_readers_of_ne {p : Process} {i j : Nat} (h : j ≠ i) (x : Flight × Reader) :
    (p.set i x).readers j = p.readers j := Function.update_of_ne h _ _

/-- What a call that owns `owned` may do to the futures: complete some, and remove its own
keys together with their completion. -/
structure Moves (owned : Claims) (fl fl' : Flight) : Prop where
  next : fl'.next = fl.next
  created : ∀ id, (fl'.future id).isSome = (fl.future id).isSome
  pending : ∀ id, fl'.future id = some .pending → fl.future id = some .pending
  shrinks : ∀ k id, fl'.inflight k = some id → fl.inflight k = some id
  keeps : ∀ k id, fl.inflight k = some id → (k, id) ∉ owned → fl'.inflight k = some id
  waited : ∀ k id, fl.inflight k = some id → fl'.future id = some .pending →
    fl'.inflight k = some id

theorem Settled.moves {owned : Claims} {fl fl' : Flight} (h : Settled owned fl fl') :
    Moves owned fl fl' where
  next := h.next
  created id := by
    obtain heq | ⟨-, hsome, hdone | hdone⟩ := h.future id
    · rw [heq]
    · rw [hdone, hsome]
      rfl
    · rw [hdone, hsome]
      rfl
  pending id hp := by
    obtain heq | ⟨-, -, hdone | hdone⟩ := h.future id
    · rwa [heq] at hp
    · rw [hdone] at hp
      cases hp
    · rw [hdone] at hp
      cases hp
  shrinks k id hk := by rwa [h.inflight] at hk
  keeps k id hk _ := by rwa [h.inflight]
  waited k id hk _ := by rwa [h.inflight]

theorem close_moves {owned : Claims} {fl : Flight}
    (hheld : ∀ e ∈ owned, fl.inflight e.1 = some e.2) : Moves owned fl (fl.close owned) := by
  -- a key of `owned` is registered with the future of `owned`
  have hkey : ∀ k id, fl.inflight k = some id → (k, id) ∉ owned → k ∉ owned.map Prod.fst := by
    intro k id hk hnot hmem
    obtain ⟨e, he, rfl⟩ := List.mem_map.mp hmem
    have heq : e.2 = id := Option.some.inj ((hheld e he).symm.trans hk)
    exact hnot (heq ▸ he)
  have hkeeps : ∀ k id, fl.inflight k = some id → (k, id) ∉ owned →
      (fl.close owned).inflight k = some id := by
    intro k id hk hnot
    rw [close_inflight, if_neg (hkey k id hk hnot), hk]
  refine ⟨close_next _ _, fun id => ?_, fun id hp => ?_, fun k id hk => ?_, hkeeps,
    fun k id hk hp => hkeeps k id hk fun hmem => ?_⟩
  · rw [close_future]
    split
    · rename_i hpending
      rw [hpending.2]
      rfl
    · rfl
  · rw [close_future] at hp
    split at hp
    · cases hp
    · exact hp
  · rw [close_inflight] at hk
    split at hk
    · cases hk
    · exact hk
  · have hids : id ∈ owned.map Prod.snd := List.mem_map_of_mem (f := Prod.snd) hmem
    rw [close_future] at hp
    split at hp
    · cases hp
    · rename_i hnot
      exact hnot ⟨hids, hp⟩

theorem Moves.trans {owned : Claims} {fl fl' fl'' : Flight} (h : Moves owned fl fl')
    (h' : Moves owned fl' fl'') : Moves owned fl fl'' where
  next := h'.next.trans h.next
  created id := (h'.created id).trans (h.created id)
  pending id hp := h.pending id (h'.pending id hp)
  shrinks k id hk := h.shrinks k id (h'.shrinks k id hk)
  keeps k id hk hnot := h'.keeps k id (h.keeps k id hk hnot) hnot
  waited k id hk hp := h'.waited k id (h.waited k id hk (h'.pending id hp)) hp

/-- A call that moves keeps the invariant of the whole process. -/
theorem Inv.set {p : Process} (h : Inv p) {i : Nat} {r r' : Reader} {fl' : Flight}
    (hr : p.readers i = some r) (hmoves : Moves r.owned p.flight fl')
    (howned : r'.owned = r.owned) (hwaits : r'.waits = r.waits)
    (hphase : r.phase.loading = true ∧ r'.phase.LoadingIn r.owned r.waits ∧
        fl'.inflight = p.flight.inflight ∨
      r'.phase.loading = false ∧ (∀ todo, r'.phase = .waits todo → todo ⊆ r.waits) ∧
        ∀ e ∈ r.owned, fl'.future e.2 ≠ some .pending ∧ fl'.inflight e.1 ≠ some e.2) :
    Inv (p.set i (fl', r')) := by
  -- a call of the new process, as one of the old
  have hold : ∀ j r₂, (p.set i (fl', r')).readers j = some r₂ → ∃ r₁, p.readers j = some r₁ ∧
      r₂.owned = r₁.owned ∧ r₂.waits = r₁.waits := by
    intro j r₂ hj
    obtain ⟨rfl, rfl⟩ | ⟨-, hj⟩ := set_readers hj
    · exact ⟨r, hr, howned, hwaits⟩
    · exact ⟨r₂, hj, rfl, rfl⟩
  constructor
  case registered =>
    intro k id hk
    obtain ⟨j, r₁, hj, hloading, hmem⟩ := h.registered k id (hmoves.shrinks k id hk)
    by_cases hij : j = i
    · subst hij
      obtain rfl := Option.some.inj (hr.symm.trans hj)
      obtain ⟨-, hin, -⟩ | ⟨-, -, hclosed⟩ := hphase
      · exact ⟨j, r', set_readers_self _ _ _, hin.loading, howned ▸ hmem⟩
      · exact absurd hk (hclosed _ hmem).2
    · exact ⟨j, r₁, (set_readers_of_ne hij _).trans hj, hloading, hmem⟩
  case oneKey =>
    intro k k' id hk hk'
    exact h.oneKey k k' id (hmoves.shrinks _ _ hk) (hmoves.shrinks _ _ hk')
  case oneOwner =>
    intro j j' r₁ r₂ hj hj' id hid hid'
    obtain ⟨r₁', hj, heq, -⟩ := hold j r₁ hj
    obtain ⟨r₂', hj', heq', -⟩ := hold j' r₂ hj'
    exact h.oneOwner j j' r₁' r₂' hj hj' id (heq ▸ hid) (heq' ▸ hid')
  case created =>
    intro id
    show (fl'.future id).isSome = true ↔ id < fl'.next
    rw [hmoves.created, hmoves.next]
    exact h.created id
  case known =>
    intro j r₂ hj
    obtain ⟨r₁, hj, heq, heq'⟩ := hold j r₂ hj
    show (∀ e ∈ r₂.owned ++ r₂.waits, e.2 < fl'.next) ∧ _
    rw [hmoves.next, heq, heq']
    exact h.known j r₁ hj
  case held =>
    intro j r₂ hj hloading
    obtain ⟨rfl, rfl⟩ | ⟨hij, hj⟩ := set_readers hj
    · obtain ⟨hbefore, hin, hsame⟩ | ⟨hpast, -⟩ := hphase
      · show r₂.phase.LoadingIn r₂.owned r₂.waits ∧ ∀ e ∈ r₂.owned, fl'.inflight e.1 = some e.2
        rw [howned, hwaits, hsame]
        exact ⟨hin, (h.held j r hr hbefore).2⟩
      · exact absurd (hloading.symm.trans hpast) (by decide)
    · obtain ⟨hin, hheld⟩ := h.held j r₂ hj hloading
      refine ⟨hin, fun e he => hmoves.keeps _ _ (hheld e he) fun hmem => hij ?_⟩
      -- a future has one owner
      exact h.oneOwner j i r₂ r hj hr e.2 (List.mem_map_of_mem he)
        (List.mem_map_of_mem (f := Prod.snd) hmem)
  case closed =>
    intro j r₂ hj hpast
    obtain ⟨rfl, rfl⟩ | ⟨-, hj⟩ := set_readers hj
    · obtain ⟨-, hin, -⟩ | ⟨-, htodo, hclosed⟩ := hphase
      · exact absurd (hin.loading.symm.trans hpast) (by decide)
      · rw [← hwaits] at htodo
        rw [← howned] at hclosed
        exact ⟨htodo, hclosed⟩
    · obtain ⟨htodo, hclosed⟩ := h.closed j r₂ hj hpast
      refine ⟨htodo, fun e he => ⟨fun hp => (hclosed e he).1 (hmoves.pending _ hp), fun hk => ?_⟩⟩
      exact (hclosed e he).2 (hmoves.shrinks _ _ hk)
  case waited =>
    intro j r₂ hj e he hp
    obtain ⟨r₁, hj, -, heq⟩ := hold j r₂ hj
    exact hmoves.waited _ _ (h.waited j r₁ hj e (heq ▸ he) (hmoves.pending _ hp)) hp

/-- A loading call that moves. -/
theorem Inv.loads {p : Process} (h : Inv p) {i : Nat} {r : Reader} {x : Flight × Reader}
    (hr : p.readers i = some r) (hloading : r.phase.loading = true) (hx : Loads r p.flight x) :
    Inv (p.set i x) := by
  obtain ⟨fl', r'⟩ := x
  obtain ⟨howned, hwaits, m, hm, ⟨rfl, hin⟩ | ⟨rfl, hpast⟩⟩ := hx
  · exact h.set hr hm.moves howned hwaits (.inl ⟨hloading, hin, hm.inflight⟩)
  · have hheld : ∀ e ∈ r.owned, m.inflight e.1 = some e.2 := by
      rw [hm.inflight]
      exact (h.held i r hr hloading).2
    refine h.set hr (hm.moves.trans (close_moves hheld)) howned hwaits (.inr ⟨?_, ?_, ?_⟩)
    · obtain hdone | hwaiting := hpast
      · rw [hdone]
        rfl
      · rw [hwaiting]
        rfl
    · intro todo htodo
      obtain hdone | hwaiting := hpast
      · exact absurd (hdone.symm.trans htodo) (by simp)
      · obtain rfl := ReadPhase.waits.inj (hwaiting.symm.trans htodo)
        exact List.Subset.refl _
    · intro e he
      have hkey : e.1 ∈ r.owned.map Prod.fst := List.mem_map_of_mem he
      have hid : e.2 ∈ r.owned.map Prod.snd := List.mem_map_of_mem he
      rw [close_inflight, if_pos hkey, close_future]
      constructor
      · split
        · exact fun heq => nomatch heq
        · rename_i hnot
          exact fun heq => hnot ⟨hid, heq⟩
      · exact fun heq => nomatch heq

/-- A call behind `_load_owned` that moves. -/
theorem Inv.past {p : Process} (h : Inv p) {i : Nat} {r : Reader} {e : Event}
    {x : Flight × Reader} (hr : p.readers i = some r) (hpast : r.phase.loading = false)
    (hx : r.advance p.flight e = some x) : Inv (p.set i x) := by
  obtain ⟨htodo, hclosed⟩ := h.closed i r hr hpast
  have hmove : ∀ phase : ReadPhase, phase.loading = false →
      (∀ todo, phase = .waits todo → todo ⊆ r.waits) →
      Inv (p.set i (p.flight, { r with phase := phase })) := fun phase hphase htodo =>
    h.set hr (Settled.refl _ _).moves rfl rfl (.inr ⟨hphase, htodo, hclosed⟩)
  cases hp : r.phase with
  | waits todo =>
    have hsub := htodo todo hp
    cases e <;> simp only [Reader.advance, hp] at hx
    case woken =>
      cases todo with
      | nil =>
        obtain rfl := Option.some.inj hx
        exact hmove .done rfl (fun _ heq => nomatch heq)
      | cons e rest =>
        dsimp only at hx
        split at hx
        · cases hx
        · obtain rfl := Option.some.inj hx
          refine hmove (.waits rest) rfl fun todo heq => ?_
          obtain rfl := ReadPhase.waits.inj heq
          exact fun y hy => hsub (List.mem_cons_of_mem _ hy)
    case cancel =>
      obtain rfl := Option.some.inj hx
      exact hmove .done rfl (fun _ heq => nomatch heq)
    all_goals cases hx
  | done => cases e <;> simp only [Reader.advance, hp] at hx <;> cases hx
  | redis | recordFailure | settings | subscriptions | settingsWait | ledger | fill =>
    rw [hp] at hpast
    cases hpast

/-! ## A call that starts -/

/-- What `_claim` has done for `keys`. -/
structure Claimed (fl : Flight) (keys : List CacheKey) (c : Claiming) : Prop where
  next : fl.next ≤ c.flight.next
  old : ∀ id < fl.next, c.flight.future id = fl.future id
  created : ∀ id, (c.flight.future id).isSome = true ↔ id < c.flight.next
  inflight : ∀ k id, c.flight.inflight k = some id ↔ fl.inflight k = some id ∨ (k, id) ∈ c.owned
  owned : ∀ e ∈ c.owned,
    e.1 ∈ keys ∧ fl.next ≤ e.2 ∧ e.2 < c.flight.next ∧ fl.inflight e.1 = none
  waits : ∀ e ∈ c.waits, fl.inflight e.1 = some e.2
  oneKey : ∀ e ∈ c.owned, ∀ e' ∈ c.owned, e.2 = e'.2 → e.1 = e'.1

theorem Claimed.claim {fl : Flight} {keys : List CacheKey} {c : Claiming} (h : Claimed fl keys c)
    {key : CacheKey} (hkey : key ∉ keys) : Claimed fl (keys ++ [key]) (claim c key) := by
  have howned : ∀ e ∈ c.owned, e.1 ∈ keys ++ [key] ∧ fl.next ≤ e.2 ∧ e.2 < c.flight.next ∧
      fl.inflight e.1 = none := fun e he =>
    ⟨List.mem_append_left _ (h.owned e he).1, (h.owned e he).2⟩
  unfold SingleFlight.claim
  split
  · -- somebody else is loading it: the key is new to this call
    rename_i id hid
    refine ⟨h.next, h.old, h.created, h.inflight, howned, fun e he => ?_, h.oneKey⟩
    obtain he | he := List.mem_append.mp he
    · exact h.waits e he
    · obtain rfl := List.mem_singleton.mp he
      obtain hold | hmem := (h.inflight _ _).mp hid
      · exact hold
      · exact absurd (h.owned _ hmem).1 hkey
  · rename_i hnone
    have hfree : fl.inflight key = none := by
      cases hold : fl.inflight key with
      | none => rfl
      | some id => exact absurd ((h.inflight key id).mpr (.inl hold)) (by rw [hnone]; simp)
    constructor
    case next => exact Nat.le_succ_of_le h.next
    case old =>
      intro id hid
      have hne : id ≠ c.flight.next := Nat.ne_of_lt (Nat.lt_of_lt_of_le hid h.next)
      exact (Function.update_of_ne hne _ _).trans (h.old id hid)
    case created =>
      intro id
      by_cases hid : id = c.flight.next
      · subst hid
        simp
      · have hiff := h.created id
        simp only [Function.update_of_ne hid, hiff]
        omega
    case inflight =>
      intro k id
      by_cases hk : k = key
      · subst hk
        simp only [Function.update_self, hfree, List.mem_append, List.mem_singleton, Prod.mk.injEq,
          true_and, Option.some.injEq, reduceCtorEq, false_or]
        constructor
        · exact fun heq => .inr heq.symm
        · rintro (hmem | rfl)
          · exact absurd (h.owned _ hmem).1 hkey
          · rfl
      · simp only [Function.update_of_ne hk, h.inflight, List.mem_append, List.mem_singleton,
          Prod.mk.injEq, hk, false_and, or_false]
    case owned =>
      intro e he
      obtain he | he := List.mem_append.mp he
      · obtain ⟨hmem, hge, hlt, hin⟩ := howned e he
        exact ⟨hmem, hge, Nat.lt_succ_of_lt hlt, hin⟩
      · obtain rfl := List.mem_singleton.mp he
        exact ⟨by simp, h.next, Nat.lt_succ_self _, hfree⟩
    case waits => exact h.waits
    case oneKey =>
      intro e he e' he' heq
      obtain he | he := List.mem_append.mp he <;> obtain he' | he' := List.mem_append.mp he'
      · exact h.oneKey e he e' he' heq
      · obtain rfl := List.mem_singleton.mp he'
        exact absurd heq (Nat.ne_of_lt (h.owned e he).2.2.1)
      · obtain rfl := List.mem_singleton.mp he
        exact absurd heq.symm (Nat.ne_of_lt (h.owned e' he').2.2.1)
      · rw [List.mem_singleton.mp he, List.mem_singleton.mp he']

theorem Claimed.foldl {fl : Flight} {keys rest : List CacheKey} {c : Claiming}
    (h : Claimed fl keys c) (hnodup : (keys ++ rest).Nodup) :
    Claimed fl (keys ++ rest) (rest.foldl SingleFlight.claim c) := by
  induction rest generalizing keys c with
  | nil =>
    rw [List.append_nil]
    exact h
  | cons key rest ih =>
    have hkey : key ∉ keys := fun hmem =>
      (List.nodup_append.mp hnodup).2.2 key hmem key List.mem_cons_self rfl
    rw [List.append_cons] at hnodup ⊢
    exact ih (h.claim hkey) hnodup

theorem nodup_keysOf (tenants refs : List String) : (keysOf tenants refs).Nodup := by
  have hsub : ((Dict.fromKeys tenants).map CacheKey.subscription).Nodup :=
    List.Nodup.map (fun _ _ heq => CacheKey.subscription.inj heq) (Dict.nodup_fromKeys _)
  have hledger : ((Dict.fromKeys refs).map CacheKey.ledger).Nodup :=
    List.Nodup.map (fun _ _ heq => CacheKey.ledger.inj heq) (Dict.nodup_fromKeys _)
  refine List.nodup_cons.mpr ⟨by simp, List.nodup_append.mpr ⟨hsub, hledger, ?_⟩⟩
  intro k hk k' hk' heq
  obtain ⟨t, -, rfl⟩ := List.mem_map.mp hk
  obtain ⟨key, -, rfl⟩ := List.mem_map.mp hk'
  cases heq

/-- The claims of a call that starts. -/
theorem claimed_start {p : Process} (h : Inv p) (l1 : CacheKey → Bool)
    (tenants refs : List String) : Claimed p.flight ((keysOf tenants refs).filter fun k => !l1 k)
      (((keysOf tenants refs).filter fun k => !l1 k).foldl claim ⟨p.flight, [], []⟩) := by
  have hempty : Claimed p.flight [] ⟨p.flight, [], []⟩ :=
    ⟨Nat.le_refl _, fun _ _ => rfl, h.created, by simp, by simp, by simp, by simp⟩
  have hnodup : ((keysOf tenants refs).filter fun k => !l1 k).Nodup :=
    (nodup_keysOf tenants refs).filter _
  exact @Claimed.foldl _ [] ((keysOf tenants refs).filter fun k => !l1 k) _ hempty hnodup

theorem Inv.registered_lt {p : Process} (h : Inv p) {k : CacheKey} {id : Nat}
    (hk : p.flight.inflight k = some id) : id < p.flight.next := by
  obtain ⟨i, r, hr, -, hmem⟩ := h.registered k id hk
  exact (h.known i r hr).1 _ (List.mem_append_left _ hmem)

/-- A call that starts keeps the invariant. -/
theorem Inv.start {p : Process} (h : Inv p) {i : Nat} (hi : p.readers i = none) {keys : List CacheKey}
    {c : Claiming} (hc : Claimed p.flight keys c) {r : Reader} (howned : r.owned = c.owned)
    (hwaits : r.waits = c.waits)
    (hphase : r.phase = if c.owned.isEmpty then .waits c.waits else .redis) :
    Inv (p.set i (c.flight, r)) := by
  have hne : ∀ j r', p.readers j = some r' → j ≠ i := by
    rintro j r' hj rfl
    exact nomatch hi.symm.trans hj
  -- the new futures are younger than all the call or any other knew
  have hyoung : ∀ j r', p.readers j = some r' → ∀ id ∈ r'.owned.map Prod.snd,
      id ∉ r.owned.map Prod.snd := by
    intro j r' hj id hid hnew
    obtain ⟨e, he, rfl⟩ := List.mem_map.mp hid
    obtain ⟨e', he', heq⟩ := List.mem_map.mp hnew
    have hlt := (h.known j r' hj).1 e (List.mem_append_left _ he)
    have hge := (hc.owned e' (howned ▸ he')).2.1
    omega
  constructor
  case registered =>
    intro k id hk
    obtain hold | hmem := (hc.inflight k id).mp hk
    · obtain ⟨j, r', hj, hloading, hmem⟩ := h.registered k id hold
      exact ⟨j, r', (set_readers_of_ne (hne j r' hj) _).trans hj, hloading, hmem⟩
    · refine ⟨i, r, set_readers_self _ _ _, ?_, howned ▸ hmem⟩
      have hsome : ¬ c.owned.isEmpty = true := fun hnil => by
        rw [List.isEmpty_iff.mp hnil] at hmem
        exact List.not_mem_nil hmem
      rw [hphase, if_neg hsome]
      rfl
  case oneKey =>
    intro k k' id hk hk'
    obtain hk | hk := (hc.inflight k id).mp hk <;> obtain hk' | hk' := (hc.inflight k' id).mp hk'
    · exact h.oneKey k k' id hk hk'
    · have hlt := h.registered_lt hk
      have hge := (hc.owned _ hk').2.1
      omega
    · have hlt := h.registered_lt hk'
      have hge := (hc.owned _ hk).2.1
      omega
    · exact hc.oneKey _ hk _ hk' rfl
  case oneOwner =>
    intro j j' r₁ r₂ hj hj' id hid hid'
    obtain ⟨rfl, rfl⟩ | ⟨-, hold⟩ := set_readers hj <;>
      obtain ⟨rfl, rfl⟩ | ⟨-, hold'⟩ := set_readers hj'
    · rfl
    · exact absurd hid (hyoung j' r₂ hold' id hid')
    · exact absurd hid' (hyoung j r₁ hold id hid)
    · exact h.oneOwner j j' r₁ r₂ hold hold' id hid hid'
  case created => exact hc.created
  case known =>
    intro j r' hj
    obtain ⟨rfl, rfl⟩ | ⟨-, hj⟩ := set_readers hj
    · show (∀ e ∈ r'.owned ++ r'.waits, e.2 < c.flight.next) ∧ _
      rw [howned, hwaits]
      refine ⟨fun e he => ?_, fun e he e' he' => ?_⟩
      · obtain he | he := List.mem_append.mp he
        · exact (hc.owned e he).2.2.1
        · exact Nat.lt_of_lt_of_le (h.registered_lt (hc.waits e he)) hc.next
      · obtain ⟨-, hge, -, hfree⟩ := hc.owned e he
        have hreg := hc.waits e' he'
        refine ⟨fun heq => ?_, fun heq => ?_⟩
        · rw [heq, hreg] at hfree
          cases hfree
        · have hlt := h.registered_lt hreg
          omega
    · obtain ⟨hlt, hapart⟩ := h.known j r' hj
      exact ⟨fun e he => Nat.lt_of_lt_of_le (hlt e he) hc.next, hapart⟩
  case held =>
    intro j r' hj hloading
    obtain ⟨rfl, rfl⟩ | ⟨-, hj⟩ := set_readers hj
    · refine ⟨?_, fun e he => (hc.inflight _ _).mpr (.inr (howned ▸ he))⟩
      change r'.phase.loading = true at hloading
      rw [hphase] at hloading ⊢
      split at hloading
      · cases hloading
      · rename_i hsome
        rw [if_neg hsome]
        rfl
    · obtain ⟨hin, hheld⟩ := h.held j r' hj hloading
      exact ⟨hin, fun e he => (hc.inflight _ _).mpr (.inl (hheld e he))⟩
  case closed =>
    intro j r' hj hpast
    obtain ⟨rfl, rfl⟩ | ⟨-, hj⟩ := set_readers hj
    · change r'.phase.loading = false at hpast
      rw [hphase] at hpast ⊢
      rw [hwaits, howned]
      split at hpast
      · rename_i hnil
        rw [if_pos hnil, List.isEmpty_iff.mp hnil]
        refine ⟨fun todo heq => ?_, fun e he => absurd he List.not_mem_nil⟩
        obtain rfl := ReadPhase.waits.inj heq
        exact List.Subset.refl _
      · cases hpast
    · obtain ⟨htodo, hclosed⟩ := h.closed j r' hj hpast
      refine ⟨htodo, fun e he => ?_⟩
      have hlt := (h.known j r' hj).1 e (List.mem_append_left _ he)
      show c.flight.future e.2 ≠ _ ∧ c.flight.inflight e.1 ≠ _
      rw [hc.old _ hlt]
      refine ⟨(hclosed e he).1, fun hk => ?_⟩
      obtain hold | hnew := (hc.inflight _ _).mp hk
      · exact (hclosed e he).2 hold
      · have hge := (hc.owned _ hnew).2.1
        dsimp only at hge
        omega
  case waited =>
    intro j r' hj e he hp
    obtain ⟨rfl, rfl⟩ | ⟨-, hj⟩ := set_readers hj
    · exact (hc.inflight _ _).mpr (.inl (hc.waits e (hwaits ▸ he)))
    · have hlt := (h.known j r' hj).1 e (List.mem_append_right _ he)
      change c.flight.future e.2 = _ at hp
      rw [hc.old _ hlt] at hp
      exact (hc.inflight _ _).mpr (.inl (h.waited j r' hj e he hp))

theorem step_inv {p p' : Process} {a : Action} (h : Inv p) (hstep : step p a = some p') :
    Inv p' := by
  cases a with
  | read i l1 tenants refs =>
    rw [step] at hstep
    split at hstep
    · rename_i hnone
      obtain rfl := Option.some.inj hstep
      exact h.start (Option.isNone_iff_eq_none.mp hnone) (claimed_start h l1 tenants refs)
        rfl rfl rfl
    · cases hstep
  | event i e =>
    rw [step] at hstep
    split at hstep
    · rename_i r hr
      obtain ⟨x, hx, rfl⟩ := Option.map_eq_some_iff.mp hstep
      cases hloading : r.phase.loading with
      | true => exact h.loads hr hloading (advance_loads (h.held i r hr hloading).1 hx)
      | false => exact h.past hr hloading hx
    · cases hstep

theorem init_inv : Inv Process.init := by
  constructor <;> simp [Process.init]

theorem run_inv {as : List Action} {p : Process} (h : Run step Process.init as p) : Inv p :=
  Run.invariant (fun _ _ _ hinv hstep => step_inv hinv hstep) h init_inv

/-! ## No circle -/

/-- How far a call is from waiting for nobody. -/
def Reader.rank (r : Reader) : Nat :=
  match r.phase with
  | .waits _ => 2
  | .settingsWait _ _ => 1
  | _ => 0

def rankOf (p : Process) (i : Nat) : Nat := (p.readers i).elim 0 Reader.rank

/-- The future a call waits for is one of its `waits`; inside `_load_owned`, the settings. -/
theorem Inv.awaits {p : Process} (h : Inv p) {i id : Nat} {r : Reader}
    (hr : p.readers i = some r) (hid : r.awaits = some id) :
    ∃ k, (k, id) ∈ r.waits ∧ (r.rank = 2 ∨ r.rank = 1 ∧ k = .settings) := by
  unfold Reader.awaits at hid
  split at hid
  · rename_i id' todo hp
    obtain rfl := Option.some.inj hid
    have hin := (h.held i r hr (by rw [hp]; rfl)).1
    rw [hp] at hin
    exact ⟨.settings, hin.1, .inr ⟨by rw [Reader.rank, hp], rfl⟩⟩
  · rename_i e rest hp
    obtain rfl := Option.some.inj hid
    have hsub := (h.closed i r hr (by rw [hp]; rfl)).1 _ hp
    exact ⟨e.1, hsub List.mem_cons_self, .inl (by rw [Reader.rank, hp])⟩
  · cases hid

/-- Who is waited for is loading; who owns the settings waits for nobody. -/
theorem Inv.owner {p : Process} (h : Inv p) {j : Nat} {r : Reader} {e : CacheKey × Nat}
    (hr : p.readers j = some r) (he : e ∈ r.owned) (hp : p.flight.future e.2 = some .pending) :
    r.phase.loading = true ∧ (e.1 = .settings → r.awaits = none) := by
  have hloading : r.phase.loading = true := by
    cases hloading : r.phase.loading with
    | true => rfl
    | false => exact absurd hp ((h.closed j r hr hloading).2 e he).1
  refine ⟨hloading, fun hkey => ?_⟩
  cases hid : r.awaits with
  | none => rfl
  | some id =>
    obtain ⟨k, hmem, hrank⟩ := h.awaits hr hid
    obtain hwaits | ⟨-, rfl⟩ := hrank
    · unfold Reader.rank at hwaits
      split at hwaits
      · rename_i hphase
        rw [hphase] at hloading
        cases hloading
      · cases hwaits
      · cases hwaits
    · exact absurd hkey ((h.known j r hr).2 e he _ hmem).1

/-- A loading call ranks below the waits; one that waits for nobody, at the bottom. -/
theorem rank_of_loading {r : Reader} (h : r.phase.loading = true) :
    r.rank ≤ 1 ∧ (r.awaits = none → r.rank = 0) := by
  unfold Reader.rank Reader.awaits
  cases hp : r.phase <;> simp [hp, ReadPhase.loading] at h ⊢

theorem Inv.waitsFor_rank {p : Process} (h : Inv p) {i j : Nat} (hw : WaitsFor p i j) :
    rankOf p j < rankOf p i := by
  obtain ⟨r, id, hr, hid, hp, r', hr', hown⟩ := hw
  obtain ⟨e, he, rfl⟩ := List.mem_map.mp hown
  obtain ⟨k, hmem, hrank⟩ := h.awaits hr hid
  obtain ⟨hloading, hsettings⟩ := h.owner hr' he hp
  obtain ⟨hle, hzero⟩ := rank_of_loading hloading
  have hi : rankOf p i = r.rank := by rw [rankOf, hr]; rfl
  have hj : rankOf p j = r'.rank := by rw [rankOf, hr']; rfl
  obtain hwaits | ⟨hone, rfl⟩ := hrank
  · omega
  · -- the owner of the settings future owns it under that key
    have hkey : e.1 = .settings := h.oneKey _ _ e.2 ((h.held j r' hr' hloading).2 e he)
      (h.waited i r hr _ hmem hp)
    have hbottom := hzero (hsettings hkey)
    omega

theorem Inv.acyclic {p : Process} (h : Inv p) (i : Nat) :
    ¬ Relation.TransGen (WaitsFor p) i i := by
  have hlt : ∀ j, Relation.TransGen (WaitsFor p) i j → rankOf p j < rankOf p i := by
    intro j hpath
    induction hpath with
    | single hw => exact h.waitsFor_rank hw
    | tail _ hw ih => exact Nat.lt_trans (h.waitsFor_rank hw) ih
  exact fun hcycle => Nat.lt_irrefl _ (hlt i hcycle)

/-! ## Somebody can move -/

/-- Call `i` can go on without being cancelled. -/
def CanMove (p : Process) (i : Nat) : Prop :=
  ∃ e, e ≠ .cancel ∧ (step p (.event i e)).isSome = true

theorem canMove_of_advance {p : Process} {i : Nat} {r : Reader} {e : Event}
    (hr : p.readers i = some r) (he : e ≠ .cancel)
    (h : (r.advance p.flight e).isSome = true) : CanMove p i := by
  refine ⟨e, he, ?_⟩
  rw [step, hr]
  dsimp only
  rwa [Option.isSome_map]

/-- A call that waits for no future can move. -/
theorem canMove_of_awaits {p : Process} {i : Nat} {r : Reader} (hr : p.readers i = some r)
    (hdone : r.phase ≠ .done) (hid : r.awaits = none) : CanMove p i := by
  cases hp : r.phase with
  | redis => exact canMove_of_advance (e := .redisError) hr (by simp) (by simp [Reader.advance, hp])
  | recordFailure =>
    exact canMove_of_advance (e := .recorded) hr (by simp) (by simp [Reader.advance, hp])
  | settings =>
    exact canMove_of_advance (e := .settingsFailed false) hr (by simp)
      (by simp [Reader.advance, hp])
  | subscriptions todo =>
    exact canMove_of_advance (e := .subscriptionsLoaded) hr (by simp)
      (by simp [Reader.advance, hp])
  | settingsWait id todo => simp [Reader.awaits, hp] at hid
  | ledger todo =>
    exact canMove_of_advance (e := .ledgerLoaded) hr (by simp) (by simp [Reader.advance, hp])
  | fill => exact canMove_of_advance (e := .filled) hr (by simp) (by simp [Reader.advance, hp])
  | waits todo =>
    cases todo with
    | nil => exact canMove_of_advance (e := .woken) hr (by simp) (by simp [Reader.advance, hp])
    | cons e rest => simp [Reader.awaits, hp] at hid
  | done => exact absurd hp hdone

/-- A call whose future is done can move. -/
theorem canMove_of_woken {p : Process} {i id : Nat} {r : Reader} (hr : p.readers i = some r)
    (hid : r.awaits = some id) (hsome : (p.flight.future id).isSome = true)
    (hp : p.flight.future id ≠ some .pending) : CanMove p i := by
  unfold Reader.awaits at hid
  split at hid
  · rename_i id' todo hphase
    obtain rfl := Option.some.inj hid
    refine canMove_of_advance (e := .settingsWoken) hr (by simp) ?_
    simp only [Reader.advance, hphase]
    cases hfuture : p.flight.future id' with
    | none => simp [hfuture] at hsome
    | some v => cases v with
      | pending => exact absurd hfuture hp
      | result => rfl
      | exception => rfl
  · rename_i e rest hphase
    obtain rfl := Option.some.inj hid
    refine canMove_of_advance (e := .woken) hr (by simp) ?_
    simp only [Reader.advance, hphase, if_neg hp]
    rfl
  · cases hid

/-- A blocked call waits for one of lower rank that has not ended. -/
theorem Inv.blocked {p : Process} (h : Inv p) {i : Nat} {r : Reader} (hr : p.readers i = some r)
    (hdone : r.phase ≠ .done) (hstuck : ¬ CanMove p i) :
    ∃ j r', WaitsFor p i j ∧ p.readers j = some r' ∧ r'.phase ≠ .done := by
  cases hid : r.awaits with
  | none => exact absurd (canMove_of_awaits hr hdone hid) hstuck
  | some id =>
    obtain ⟨k, hmem, -⟩ := h.awaits hr hid
    have hlt := (h.known i r hr).1 _ (List.mem_append_right _ hmem)
    have hsome := (h.created id).mpr hlt
    by_cases hp : p.flight.future id = some .pending
    · obtain ⟨j, r', hj, hloading, hown⟩ := h.registered k id (h.waited i r hr _ hmem hp)
      refine ⟨j, r', ⟨r, id, hr, hid, hp, r', hj, List.mem_map_of_mem (f := Prod.snd) hown⟩, hj, ?_⟩
      intro hend
      rw [hend] at hloading
      cases hloading
    · exact absurd (canMove_of_woken hr hid hsome hp) hstuck

/-- Every call that has not ended can move, or waits, directly or not, for one that can. -/
theorem Inv.progress {p : Process} (h : Inv p) {i : Nat} {r : Reader} (hr : p.readers i = some r)
    (hdone : r.phase ≠ .done) : ∃ j, Relation.ReflTransGen (WaitsFor p) i j ∧ CanMove p j := by
  induction hrank : rankOf p i using Nat.strongRecOn generalizing i r with
  | ind n ih =>
    by_cases hmove : CanMove p i
    · exact ⟨i, .refl, hmove⟩
    · obtain ⟨j, r', hw, hj, hend⟩ := h.blocked hr hdone hmove
      obtain ⟨l, hpath, hl⟩ := ih _ (hrank ▸ h.waitsFor_rank hw) hj hend rfl
      exact ⟨l, .head hw hpath, hl⟩

/-- **Single-flight reads cannot deadlock.** In every reachable state of the process:
the wait-for relation has no circle; a future is registered exactly while its owner loads, and
is completed and removed once that load has ended, however it ended; no call waits for a future
of its own; and every call that has not ended can go on, or waits for one that can. -/
theorem reads_cannot_deadlock {as : List Action} {p : Process}
    (h : Run step Process.init as p) :
    (∀ i, ¬ Relation.TransGen (WaitsFor p) i i) ∧
    (∀ i r, p.readers i = some r → ∀ e ∈ r.owned,
      if r.phase.loading then p.flight.inflight e.1 = some e.2
      else (p.flight.future e.2 = some .result ∨ p.flight.future e.2 = some .exception) ∧
        p.flight.inflight e.1 ≠ some e.2) ∧
    (∀ k id, p.flight.inflight k = some id →
      ∃ i r, p.readers i = some r ∧ r.phase.loading = true ∧ (k, id) ∈ r.owned) ∧
    (∀ i r id, p.readers i = some r → r.awaits = some id → ¬ Owns p i id) ∧
    ∀ i r, p.readers i = some r → r.phase ≠ .done →
      ∃ j, Relation.ReflTransGen (WaitsFor p) i j ∧ CanMove p j := by
  have hinv := run_inv h
  refine ⟨hinv.acyclic, fun i r hr e he => ?_, hinv.registered, fun i r id hr hid hown => ?_,
    fun i r hr hdone => hinv.progress hr hdone⟩
  · split
    · rename_i hloading
      exact (hinv.held i r hr hloading).2 e he
    · rename_i hpast
      obtain ⟨hdone, hremoved⟩ := (hinv.closed i r hr (Bool.eq_false_iff.mpr hpast)).2 e he
      have hsome := (hinv.created e.2).mpr
        ((hinv.known i r hr).1 e (List.mem_append_left _ he))
      obtain ⟨v, hv⟩ := Option.isSome_iff_exists.mp hsome
      rw [hv] at hdone ⊢
      refine ⟨?_, hremoved⟩
      cases v with
      | pending => exact absurd rfl hdone
      | result => exact .inl rfl
      | exception => exact .inr rfl
  · obtain ⟨k, hmem, -⟩ := hinv.awaits hr hid
    obtain ⟨r', hr', hown⟩ := hown
    obtain rfl := Option.some.inj (hr.symm.trans hr')
    obtain ⟨e, he, heq⟩ := List.mem_map.mp hown
    exact ((hinv.known i r hr).2 e he _ hmem).2 heq

/-- Call 0 loads the settings; call 1 owns a ledger row and needs them; call 2 waits for both. -/
def flightSample : List Action :=
  [.read 0 (fun _ => false) [] [], .read 1 (fun _ => false) [] ["l"],
    .read 2 (fun _ => false) [] ["l"], .event 1 (.redis fun _ => false),
    .event 0 (.redis fun _ => false)]

theorem reads_cannot_deadlock_sample :
    ∃ p, Run step Process.init flightSample p ∧ WaitsFor p 2 0 ∧ WaitsFor p 1 0 ∧
      (∀ i, ¬ Relation.TransGen (WaitsFor p) i i) ∧
      ∃ j, Relation.ReflTransGen (WaitsFor p) 2 j ∧ CanMove p j := by
  have hsome : (flightSample.foldlM step Process.init).isSome = true := by decide
  obtain ⟨hacyclic, -, -, -, hprogress⟩ := reads_cannot_deadlock (run_final hsome)
  have hzero : Owns (final step Process.init flightSample) 0 0 := ⟨_, rfl, List.mem_cons_self⟩
  refine ⟨_, run_final hsome, ⟨_, 0, rfl, rfl, rfl, hzero⟩, ⟨_, 0, rfl, rfl, rfl, hzero⟩, hacyclic,
    hprogress 2 _ rfl ?_⟩
  exact fun heq => nomatch heq

end Ai4iCore.Kafka.SingleFlight
