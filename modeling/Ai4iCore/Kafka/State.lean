import Ai4iCore.Base.Lock
import Ai4iCore.Base.Run
import Mathlib.Data.List.Destutter

/-!
# STATE claims

A STATE row of the producer ledger holds the hash of the last state that was announced.
`claim_state` and `claim_state_bulk` (ledger.py) are two statements with the same guarded
upsert: a claim wins when the row is new or holds another hash. Each statement is a
transaction of its own, and the row it inserts, updates or only looks at is locked until
its commit.

The committed claims therefore are a serial history (`Serial`), and on every row the
hashes that win are the claimed ones without repetitions
(`state_notifications_destuttered`). A statement over distinct rows does what its claims
do one by one.

A subject is kept as `subject_json` writes it, sorted by its keys, which is how the
`jsonb` column compares it.
-/

namespace Ai4iCore.Kafka

open StepSystem

/-! ## The statements -/

/-- `StateClaim` (ledger.py); an event id is a UUID. -/
structure StateClaim where
  tenantId : String
  subject : List (String × String)
  stateHash : String
  eventId : Nat
  deriving DecidableEq, Repr

/-- The unique key of a row. -/
structure StateKey where
  notificationId : Nat
  tenantId : String
  subject : List (String × String)
  deriving DecidableEq, Repr

/-- A row of `ledger_notification_alert`, the columns of a STATE row. -/
structure StateRow where
  stateHash : Option String
  triggered : Bool
  triggeredAt : Int
  lastEventId : Option Nat
  deriving DecidableEq, Repr

abbrev StateTable := StateKey → Option StateRow

def StateClaim.key (notificationId : Nat) (c : StateClaim) : StateKey :=
  ⟨notificationId, c.tenantId, c.subject⟩

/-- The row a won claim leaves. -/
def StateClaim.row (now : Int) (c : StateClaim) : StateRow :=
  ⟨some c.stateHash, true, now, some c.eventId⟩

/-- `INSERT … ON CONFLICT DO UPDATE … WHERE state_hash IS DISTINCT FROM …`: the row that
`RETURNING` gives back. -/
def upsertState (row : Option StateRow) (now : Int) (c : StateClaim) : Option StateRow :=
  match row with
  | none => some (c.row now)
  | some r => if r.stateHash = some c.stateHash then none else some (c.row now)

/-- `claim_state`: the table, and whether this caller won. -/
def claimState (now : Int) (notificationId : Nat) (table : StateTable) (c : StateClaim) :
    StateTable × Bool :=
  match upsertState (table (c.key notificationId)) now c with
  | some row => (Function.update table (c.key notificationId) (some row), true)
  | none => (table, false)

/-- What PostgreSQL raises when one statement would update a row twice. -/
inductive StatementError
  | cardinalityViolation
  deriving DecidableEq, Repr

/-- A bulk statement under way: the table, the rows it has written and the event ids it
returns. -/
structure BulkProgress where
  table : StateTable
  written : List StateKey
  returned : List Nat

/-- One row of `_CLAIM_STATE_BULK_SQL`. -/
def bulkRow (now : Int) (notificationId : Nat) (p : BulkProgress) (c : StateClaim) :
    Except StatementError BulkProgress :=
  if c.key notificationId ∈ p.written then .error .cardinalityViolation
  else
    match upsertState (p.table (c.key notificationId)) now c with
    | some row =>
      .ok ⟨Function.update p.table (c.key notificationId) (some row),
        p.written ++ [c.key notificationId], p.returned ++ [c.eventId]⟩
    | none => .ok p

/-- `claim_state_bulk`: the table and the claims this call won, in input order. -/
def claimStateBulk (now : Int) (notificationId : Nat) (table : StateTable)
    (claims : List StateClaim) : Except StatementError (StateTable × List StateClaim) := do
  let p ← claims.foldlM (bulkRow now notificationId) ⟨table, [], []⟩
  return (p.table, claims.filter fun c => decide (c.eventId ∈ p.returned))

/-- The claims made one after another with `claim_state`, and those that won. -/
def claimOneByOne (now : Int) (notificationId : Nat) (table : StateTable) :
    List StateClaim → StateTable × List StateClaim
  | [] => (table, [])
  | c :: claims =>
    let rest := claimOneByOne now notificationId (claimState now notificationId table c).1 claims
    (rest.1, if (claimState now notificationId table c).2 then c :: rest.2 else rest.2)

/-! ## Calls in flight -/

/-- A call of `claim_state` (one claim) or `claim_state_bulk`: what is left of its statement,
and the rows it has gone through. -/
structure StateCall where
  notificationId : Nat
  now : Int
  todo : List StateClaim
  done : List (StateClaim × Bool)
  failed : Bool

/-- A committed claim. -/
structure Committed where
  notificationId : Nat
  now : Int
  claim : StateClaim
  won : Bool

def Committed.key (e : Committed) : StateKey := e.claim.key e.notificationId

/-- The committed table, the locks, the calls in flight and the claims in commit order. -/
structure StateSys where
  table : StateTable
  locks : Locks StateKey
  calls : Nat → Option StateCall
  log : List Committed

def StateSys.setCall (s : StateSys) (i : Nat) (call : StateCall) : StateSys :=
  { s with calls := Function.update s.calls i (some call) }

def StateSys.start (table : StateTable) : StateSys := ⟨table, fun _ => none, fun _ => none, []⟩

inductive StateAction
  | begin (i : Nat) (notificationId : Nat) (now : Int) (claims : List StateClaim)
  /-- the statement of call `i` goes through its next row -/
  | upsert (i : Nat)
  | commit (i : Nat)
  | rollback (i : Nat)

/-- The row of a won claim, written by a call at its commit. -/
def writeRow (notificationId : Nat) (now : Int) (table : StateTable) (e : StateClaim × Bool) :
    StateTable :=
  if e.2 then Function.update table (e.1.key notificationId) (some (e.1.row now)) else table

def StateCall.write (call : StateCall) (table : StateTable) : StateTable :=
  call.done.foldl (writeRow call.notificationId call.now) table

/-- The row of `c` is one the statement has written. -/
def StateCall.hasWritten (call : StateCall) (c : StateClaim) : Bool :=
  call.done.any fun e => e.2 && e.1.key call.notificationId = c.key call.notificationId

def StateCall.entries (call : StateCall) : List Committed :=
  call.done.map fun e => ⟨call.notificationId, call.now, e.1, e.2⟩

/-- Call `i` goes through the row of `c`. A row locked by another call is waited for. -/
def StateSys.goThrough (s : StateSys) (i : Nat) (call : StateCall) (c : StateClaim)
    (rest : List StateClaim) : Option StateSys :=
  if s.locks.mayTake i (c.key call.notificationId) then
    if call.hasWritten c then
      some (s.setCall i { call with failed := true })
    else
      let won := (upsertState (s.table (c.key call.notificationId)) call.now c).isSome
      some ({ s with locks := s.locks.take i (c.key call.notificationId) }.setCall i
        { call with todo := rest, done := call.done ++ [(c, won)] })
  else none

def stateStep (s : StateSys) : StateAction → Option StateSys
  | .begin i notificationId now claims =>
    if (s.calls i).isNone then
      some (s.setCall i ⟨notificationId, now, claims, [], false⟩)
    else none
  | .upsert i =>
    match s.calls i with
    | some call =>
      match call.todo with
      | c :: rest => if call.failed then none else s.goThrough i call c rest
      | [] => none
    | none => none
  | .commit i =>
    match s.calls i with
    | some call =>
      if call.todo = [] ∧ call.failed = false then
        some ⟨call.write s.table, s.locks.release i, Function.update s.calls i none,
          s.log ++ call.entries⟩
      else none
    | none => none
  | .rollback i =>
    match s.calls i with
    | some _ =>
      some { s with locks := s.locks.release i, calls := Function.update s.calls i none }
    | none => none

/-! ## Serial histories -/

/-- The hash a row holds. -/
def hashOf (table : StateTable) (k : StateKey) : Option String :=
  (table k).bind StateRow.stateHash

/-- Claiming `es` one after another leads from one table to the other, with the same winners. -/
def Serial : StateTable → List Committed → StateTable → Prop
  | table, [], table' => table = table'
  | table, e :: es, table' =>
    e.won = (claimState e.now e.notificationId table e.claim).2 ∧
      Serial (claimState e.now e.notificationId table e.claim).1 es table'

theorem Serial.append {table m table' : StateTable} {es es' : List Committed}
    (h : Serial table es m) (h' : Serial m es' table') : Serial table (es ++ es') table' := by
  induction es generalizing table with
  | nil =>
    obtain rfl : table = m := h
    exact h'
  | cons e es ih => exact ⟨h.1, ih h.2⟩

theorem upsertState_isSome_iff (row : Option StateRow) (now : Int) (c : StateClaim) :
    (upsertState row now c).isSome = true ↔ row.bind StateRow.stateHash ≠ some c.stateHash := by
  cases row with
  | none => simp [upsertState]
  | some r =>
    rw [upsertState]
    split
    · rename_i heq
      simp [heq]
    · rename_i hne
      simpa using hne

/-- A won claim writes its own row. -/
theorem upsertState_eq {row : Option StateRow} {now : Int} {c : StateClaim} {r : StateRow}
    (h : upsertState row now c = some r) : r = c.row now := by
  unfold upsertState at h
  split at h
  · exact (Option.some.inj h).symm
  · split at h
    · cases h
    · exact (Option.some.inj h).symm

/-- `claim_state` by its outcome. -/
theorem claimState_eq (now : Int) (notificationId : Nat) (table : StateTable) (c : StateClaim) :
    claimState now notificationId table c =
      if (upsertState (table (c.key notificationId)) now c).isSome then
        (Function.update table (c.key notificationId) (some (c.row now)), true)
      else (table, false) := by
  unfold claimState
  cases hrow : upsertState (table (c.key notificationId)) now c with
  | none => rfl
  | some r =>
    rw [upsertState_eq hrow]
    rfl

/-- A claim wins when the row holds another hash, and then the row holds its own. -/
theorem claimState_won_iff (now : Int) (notificationId : Nat) (table : StateTable)
    (c : StateClaim) : (claimState now notificationId table c).2 = true ↔
      hashOf table (c.key notificationId) ≠ some c.stateHash := by
  rw [claimState_eq, hashOf, ← upsertState_isSome_iff _ now]
  split
  · rename_i hsome
    simp [hsome]
  · rename_i hnone
    simp [hnone]

theorem hashOf_claimState (now : Int) (notificationId : Nat) (table : StateTable)
    (c : StateClaim) (k : StateKey) : hashOf (claimState now notificationId table c).1 k =
      if k = c.key notificationId then some c.stateHash else hashOf table k := by
  by_cases hk : k = c.key notificationId
  · subst hk
    rw [if_pos rfl, claimState_eq]
    split
    · show (Function.update table _ _ _).bind _ = _
      rw [Function.update_self]
      rfl
    · rename_i hlost
      have hsame := (upsertState_isSome_iff _ _ _).not.mp hlost
      rwa [ne_eq, not_not] at hsame
  · rw [if_neg hk, claimState_eq]
    split
    · show (Function.update table _ _ _).bind _ = _
      rw [Function.update_of_ne hk]
      rfl
    · rfl

/-- The hashes claimed on row `k`. -/
def claimedHashes (k : StateKey) (log : List Committed) : List String :=
  (log.filter fun e => e.key = k).map (·.claim.stateHash)

/-- The hashes whose claim on row `k` won. -/
def wonHashes (k : StateKey) (log : List Committed) : List String :=
  (log.filter fun e => e.key = k ∧ e.won = true).map (·.claim.stateHash)

/-- The winners of a serial history are the claimed hashes, de-stuttered behind the hash the
row held before. -/
theorem Serial.wonHashes_eq {table table' : StateTable} {log : List Committed}
    (h : Serial table log table') (k : StateKey) :
    (hashOf table k).toList ++ wonHashes k log =
      ((hashOf table k).toList ++ claimedHashes k log).destutter (· ≠ ·) := by
  induction log generalizing table with
  | nil =>
    -- nothing is claimed: one hash, or none
    cases hashOf table k <;> rfl
  | cons e log ih =>
    obtain ⟨hwon, hrest⟩ := h
    have hrow := ih hrest
    rw [hashOf_claimState] at hrow
    change (if k = e.key then _ else _ : Option String).toList ++ _ =
      ((if k = e.key then _ else _ : Option String).toList ++ _).destutter _ at hrow
    by_cases hk : e.key = k
    · have hiff := claimState_won_iff e.now e.notificationId table e.claim
      change _ ↔ hashOf table e.key ≠ _ at hiff
      rw [← hwon, hk] at hiff
      rw [if_pos hk.symm] at hrow
      have hclaimed : claimedHashes k (e :: log) = e.claim.stateHash :: claimedHashes k log := by
        simp [claimedHashes, hk]
      rw [hclaimed]
      by_cases hsame : hashOf table k = some e.claim.stateHash
      · have hlost : wonHashes k (e :: log) = wonHashes k log := by
          have hfalse : ¬ e.won = true := fun htrue => hiff.mp htrue hsame
          simp [wonHashes, hfalse]
        rw [hlost, hsame]
        exact hrow.trans (by simp [List.destutter])
      · have htrue : wonHashes k (e :: log) = e.claim.stateHash :: wonHashes k log := by
          simp [wonHashes, hk, hiff.mpr hsame]
        rw [htrue]
        cases hold : hashOf table k with
        | none => exact hrow
        | some a =>
          have hne : a ≠ e.claim.stateHash := fun heq => hsame (hold.trans (congrArg some heq))
          show a :: ([e.claim.stateHash] ++ wonHashes k log) = _
          rw [show [e.claim.stateHash] ++ wonHashes k log = _ from hrow]
          simp [List.destutter, hne]
    · rw [if_neg (Ne.symm hk)] at hrow
      have hclaimed : claimedHashes k (e :: log) = claimedHashes k log := by
        simp [claimedHashes, hk]
      have hlost : wonHashes k (e :: log) = wonHashes k log := by
        simp [wonHashes, hk]
      rw [hclaimed, hlost]
      exact hrow

/-! ## Every interleaving is serial -/

/-- What a call knows of the rows it has gone through: they are locked, they stand as its
statement found them, and no row it has written comes again. -/
structure StateCall.Sound (call : StateCall) (i : Nat) (table : StateTable)
    (locks : Locks StateKey) : Prop where
  locked : ∀ e ∈ call.done, locks (e.1.key call.notificationId) = some i
  found : ∀ e ∈ call.done,
    e.2 = (upsertState (table (e.1.key call.notificationId)) call.now e.1).isSome
  fresh : call.done.Pairwise fun e e' =>
    e.2 = true → e'.1.key call.notificationId ≠ e.1.key call.notificationId

structure StateSys.Inv (table : StateTable) (s : StateSys) : Prop where
  serial : Serial table s.log s.table
  sound : ∀ i call, s.calls i = some call → call.Sound i s.table s.locks

/-- Behind the first row a call has gone through, the other rows stand as they were found. -/
theorem StateCall.Sound.tail {notificationId i : Nat} {now : Int} {todo : List StateClaim}
    {failed : Bool} {table : StateTable} {locks : Locks StateKey} {e : StateClaim × Bool}
    {done : List (StateClaim × Bool)}
    (h : StateCall.Sound ⟨notificationId, now, todo, e :: done, failed⟩ i table locks) :
    StateCall.Sound ⟨notificationId, now, todo, done, failed⟩ i
      (writeRow notificationId now table e) locks := by
  obtain ⟨hlater, hfresh⟩ := List.pairwise_cons.mp h.fresh
  refine ⟨fun e' he' => h.locked e' (List.mem_cons_of_mem _ he'), fun e' he' => ?_, hfresh⟩
  rw [h.found e' (List.mem_cons_of_mem _ he'), writeRow]
  split
  · rename_i hwon
    rw [Function.update_of_ne (hlater e' he' hwon)]
  · rfl

/-- What `claim_state` does to the first row a call has gone through. -/
theorem StateCall.Sound.head {notificationId i : Nat} {now : Int} {todo : List StateClaim}
    {failed : Bool} {table : StateTable} {locks : Locks StateKey} {e : StateClaim × Bool}
    {done : List (StateClaim × Bool)}
    (h : StateCall.Sound ⟨notificationId, now, todo, e :: done, failed⟩ i table locks) :
    claimState now notificationId table e.1 = (writeRow notificationId now table e, e.2) := by
  rw [claimState_eq, writeRow, ← h.found e List.mem_cons_self]
  cases e.2 <;> rfl

/-- The rows a call has gone through, in that order, replay as claims one by one. -/
theorem serial_of_sound {call : StateCall} {i : Nat} {table : StateTable}
    {locks : Locks StateKey} (h : call.Sound i table locks) :
    Serial table call.entries (call.write table) := by
  obtain ⟨notificationId, now, todo, done, failed⟩ := call
  induction done generalizing table with
  | nil => rfl
  | cons e done ih =>
    have hhead := h.head
    refine ⟨(congrArg Prod.snd hhead).symm, ?_⟩
    rw [show (claimState now notificationId table e.1).1 = _ from congrArg Prod.fst hhead]
    exact ih h.tail

/-- A call writes only rows it has locked. -/
theorem write_of_not_locked {call : StateCall} {i : Nat} {table : StateTable}
    {locks : Locks StateKey} (h : ∀ e ∈ call.done, locks (e.1.key call.notificationId) = some i)
    {k : StateKey} (hk : locks k ≠ some i) : call.write table k = table k := by
  obtain ⟨notificationId, now, todo, done, failed⟩ := call
  rw [StateCall.write]
  dsimp only at h ⊢
  induction done generalizing table with
  | nil => rfl
  | cons e done ih =>
    rw [List.foldl_cons, ih fun e' he' => h e' (List.mem_cons_of_mem _ he'), writeRow]
    split
    · have hne : k ≠ e.1.key notificationId := fun heq =>
        hk (heq ▸ h e List.mem_cons_self)
      rw [Function.update_of_ne hne]
    · rfl

/-- A call stays sound while its rows and their locks stay. -/
theorem StateCall.Sound.transport {call : StateCall} {i : Nat} {table table' : StateTable}
    {locks locks' : Locks StateKey} (h : call.Sound i table locks)
    (hlocks : ∀ k, locks k = some i → locks' k = some i)
    (htable : ∀ k, locks k = some i → table' k = table k) : call.Sound i table' locks' where
  locked e he := hlocks _ (h.locked e he)
  found e he := by
    rw [htable _ (h.locked e he)]
    exact h.found e he
  fresh := h.fresh

/-- The call that goes through the row of `c` stays sound. -/
theorem StateCall.Sound.goThrough {call : StateCall} {i : Nat} {table : StateTable}
    {locks : Locks StateKey} (h : call.Sound i table locks) {c : StateClaim}
    (hmay : locks.mayTake i (c.key call.notificationId) = true)
    (hnew : ¬ call.hasWritten c = true) (rest : List StateClaim) :
    StateCall.Sound { call with
      todo := rest
      done := call.done ++
        [(c, (upsertState (table (c.key call.notificationId)) call.now c).isSome)] }
      i table (locks.take i (c.key call.notificationId)) where
  locked e he := by
    obtain he | he := List.mem_append.mp he
    · exact Locks.take_of_held hmay (h.locked e he)
    · obtain rfl := List.mem_singleton.mp he
      exact Locks.take_self _ _ _
  found e he := by
    obtain he | he := List.mem_append.mp he
    · exact h.found e he
    · obtain rfl := List.mem_singleton.mp he
      rfl
  fresh := by
    refine List.pairwise_append.mpr ⟨h.fresh, List.pairwise_singleton _ _, ?_⟩
    intro e he e' he' hwon heq
    obtain rfl := List.mem_singleton.mp he'
    refine hnew (List.any_eq_true.mpr ⟨e, he, ?_⟩)
    rw [hwon, Bool.true_and, decide_eq_true_eq]
    exact heq.symm

theorem StateSys.Inv.setCall {table : StateTable} {s : StateSys} (h : s.Inv table) {i : Nat}
    {call : StateCall} (hcall : call.Sound i s.table s.locks) : (s.setCall i call).Inv table where
  serial := h.serial
  sound j other hother := by
    change Function.update s.calls i (some call) j = some other at hother
    by_cases hj : j = i
    · subst hj
      rw [Function.update_self] at hother
      obtain rfl := Option.some.inj hother
      exact hcall
    · rw [Function.update_of_ne hj] at hother
      exact h.sound j other hother

/-- The other calls stay sound when call `i` takes a lock. -/
theorem StateSys.Inv.take {table : StateTable} {s : StateSys} (h : s.Inv table) {i : Nat}
    {k : StateKey} (hmay : s.locks.mayTake i k = true) :
    StateSys.Inv table { s with locks := s.locks.take i k } where
  serial := h.serial
  sound j other hother := (h.sound j other hother).transport
    (fun _ hk => Locks.take_of_held hmay hk) (fun _ _ => rfl)

/-- A call that ends leaves the others sound when the table keeps the rows of the others. -/
theorem StateSys.Inv.finish {table : StateTable} {s : StateSys} (h : s.Inv table) {i : Nat}
    {table' : StateTable} {log : List Committed} (hserial : Serial table log table')
    (hframe : ∀ k, s.locks k ≠ some i → table' k = s.table k) :
    StateSys.Inv table ⟨table', s.locks.release i, Function.update s.calls i none, log⟩ where
  serial := hserial
  sound j other hother := by
    change Function.update s.calls i none j = some other at hother
    by_cases hj : j = i
    · rw [hj, Function.update_self] at hother
      cases hother
    · rw [Function.update_of_ne hj] at hother
      refine (h.sound j other hother).transport (fun k hk => Locks.release_of_held hk hj)
        (fun k hk => hframe k fun hi => hj ?_)
      exact Option.some.inj (hk.symm.trans hi)

/-- Going through a row keeps the invariant. -/
theorem StateSys.Inv.goThrough {table : StateTable} {s s' : StateSys} (h : s.Inv table) {i : Nat}
    {call : StateCall} (hcall : s.calls i = some call) {c : StateClaim} {rest : List StateClaim}
    (hstep : s.goThrough i call c rest = some s') : s'.Inv table := by
  have hsound := h.sound i call hcall
  unfold StateSys.goThrough at hstep
  split at hstep
  · rename_i hmay
    split at hstep
    · obtain rfl := Option.some.inj hstep
      exact h.setCall ⟨hsound.locked, hsound.found, hsound.fresh⟩
    · rename_i hnew
      obtain rfl := Option.some.inj hstep
      exact (h.take hmay).setCall (hsound.goThrough hmay hnew rest)
  · cases hstep

theorem stateStep_inv {table : StateTable} {s s' : StateSys} {a : StateAction}
    (h : s.Inv table) (hstep : stateStep s a = some s') : s'.Inv table := by
  cases a with
  | begin i notificationId now claims =>
    simp only [stateStep] at hstep
    split at hstep
    · obtain rfl := Option.some.inj hstep
      exact h.setCall ⟨by simp, by simp, List.Pairwise.nil⟩
    · cases hstep
  | upsert i =>
    simp only [stateStep] at hstep
    split at hstep
    · rename_i call hcall
      split at hstep
      · split at hstep
        · cases hstep
        · exact h.goThrough hcall hstep
      · cases hstep
    · cases hstep
  | commit i =>
    simp only [stateStep] at hstep
    split at hstep
    · rename_i call hcall
      split at hstep
      · obtain rfl := Option.some.inj hstep
        have hsound := h.sound i call hcall
        exact h.finish (h.serial.append (serial_of_sound hsound))
          fun k hk => write_of_not_locked hsound.locked hk
      · cases hstep
    · cases hstep
  | rollback i =>
    simp only [stateStep] at hstep
    split at hstep
    · obtain rfl := Option.some.inj hstep
      exact h.finish h.serial fun _ _ => rfl
    · cases hstep

/-- The committed claims of every run are a serial history. -/
theorem serial_of_run {table : StateTable} {as : List StateAction} {s : StateSys}
    (h : Run stateStep (StateSys.start table) as s) : Serial table s.log s.table :=
  (Run.invariant (fun _ _ _ hinv hstep => stateStep_inv hinv hstep) h
    ⟨rfl, by simp [StateSys.start]⟩ : s.Inv table).serial

/-! ## The bulk statement -/

/-- The claims of one call, made one by one. -/
theorem claimOneByOne_of_serial {now : Int} {notificationId : Nat} {table table' : StateTable}
    {done : List (StateClaim × Bool)}
    (h : Serial table (done.map fun e => ⟨notificationId, now, e.1, e.2⟩) table') :
    claimOneByOne now notificationId table (done.map Prod.fst) =
      (table', (done.filter Prod.snd).map Prod.fst) := by
  induction done generalizing table with
  | nil =>
    obtain rfl : table = table' := h
    rfl
  | cons e done ih =>
    obtain ⟨hwon, hrest⟩ := h
    rw [List.map_cons, claimOneByOne, ih hrest]
    change e.2 = (claimState now notificationId table e.1).2 at hwon
    rw [← hwon]
    cases he : e.2 <;> simp [he]

/-- `claim_state_bulk` is what the statement of a call does. -/
theorem foldlM_bulkRow {call : StateCall} {i : Nat} {table : StateTable} {locks : Locks StateKey}
    (h : call.Sound i table locks) {written : List StateKey} {returned : List Nat}
    (hnew : ∀ e ∈ call.done, e.1.key call.notificationId ∉ written) :
    ∃ written', (call.done.map Prod.fst).foldlM (bulkRow call.now call.notificationId)
        ⟨table, written, returned⟩ =
      Except.ok ⟨call.write table, written',
        returned ++ (call.done.filter Prod.snd).map (·.1.eventId)⟩ := by
  obtain ⟨notificationId, now, todo, done, failed⟩ := call
  induction done generalizing table written returned with
  | nil =>
    refine ⟨written, ?_⟩
    simp [StateCall.write]
    rfl
  | cons e done ih =>
    have he := h.found e List.mem_cons_self
    have hlater := (List.pairwise_cons.mp h.fresh).1
    have hnotin := hnew e List.mem_cons_self
    dsimp only at he hlater hnotin
    have hrest := h.tail
    dsimp only [writeRow] at hrest ⊢
    rw [List.map_cons, List.foldlM_cons, bulkRow, if_neg hnotin]
    cases hrow : upsertState (table (e.1.key notificationId)) now e.1 with
    | none =>
      rw [hrow] at he
      rw [if_neg (by simp [he])] at hrest
      obtain ⟨written', hfold⟩ := @ih table written returned hrest
        fun e' he' => hnew e' (List.mem_cons_of_mem _ he')
      refine ⟨written', hfold.trans ?_⟩
      rw [List.filter_cons_of_neg (by simp [he])]
      simp [StateCall.write, writeRow, he]
    | some row =>
      rw [hrow, Option.isSome_some] at he
      obtain rfl := upsertState_eq hrow
      rw [if_pos he] at hrest
      obtain ⟨written', hfold⟩ := @ih _ (written ++ [e.1.key notificationId])
        (returned ++ [e.1.eventId]) hrest fun e' he' hmem => by
          obtain hmem | hmem := List.mem_append.mp hmem
          · exact hnew e' (List.mem_cons_of_mem _ he') hmem
          · exact hlater e' he' he (List.mem_singleton.mp hmem)
      refine ⟨written', hfold.trans ?_⟩
      rw [List.filter_cons_of_pos (by simp [he])]
      simp [StateCall.write, writeRow, he]

/-- The call whose statement goes through `claims` undisturbed. -/
def StateCall.alone (now : Int) (notificationId : Nat) (table : StateTable)
    (claims : List StateClaim) : StateCall :=
  ⟨notificationId, now, [],
    claims.map fun c => (c, (upsertState (table (c.key notificationId)) now c).isSome), false⟩

/-- Distinct rows are all found as the statement begins. -/
theorem alone_sound (now : Int) {notificationId : Nat} (table : StateTable)
    {claims : List StateClaim} (hrows : (claims.map (·.key notificationId)).Nodup) :
    (StateCall.alone now notificationId table claims).Sound 0 table (fun _ => some 0) where
  locked _ _ := rfl
  found e he := by
    obtain ⟨c, -, rfl⟩ := List.mem_map.mp he
    rfl
  fresh := by
    refine List.pairwise_map.mpr ((List.pairwise_map.mp hrows).imp ?_)
    intro c c' hne _ heq
    exact hne heq.symm

theorem alone_claims (now : Int) (notificationId : Nat) (table : StateTable)
    (claims : List StateClaim) :
    (StateCall.alone now notificationId table claims).done.map Prod.fst = claims := by
  simp [StateCall.alone, Function.comp_def]

theorem alone_winners (now : Int) (notificationId : Nat) (table : StateTable)
    (claims : List StateClaim) :
    ((StateCall.alone now notificationId table claims).done.filter Prod.snd).map Prod.fst =
      claims.filter fun c => (upsertState (table (c.key notificationId)) now c).isSome := by
  simp [StateCall.alone, List.filter_map, Function.comp_def]

/-- Over distinct rows, one by one: the winners are those of the table before. -/
theorem claimOneByOne_of_nodup (now : Int) {notificationId : Nat} (table : StateTable)
    {claims : List StateClaim} (hrows : (claims.map (·.key notificationId)).Nodup) :
    claimOneByOne now notificationId table claims =
      ((StateCall.alone now notificationId table claims).write table,
        claims.filter fun c => (upsertState (table (c.key notificationId)) now c).isSome) := by
  have hserial := serial_of_sound (alone_sound now table hrows)
  have heq := claimOneByOne_of_serial hserial
  rwa [alone_winners, alone_claims] at heq

/-- Over distinct rows, in one statement. -/
theorem claimStateBulk_of_nodup (now : Int) {notificationId : Nat} (table : StateTable)
    {claims : List StateClaim} (hrows : (claims.map (·.key notificationId)).Nodup)
    (hids : (claims.map (·.eventId)).Nodup) :
    claimStateBulk now notificationId table claims =
      .ok ((StateCall.alone now notificationId table claims).write table,
        claims.filter fun c => (upsertState (table (c.key notificationId)) now c).isSome) := by
  obtain ⟨written, hfold⟩ := @foldlM_bulkRow _ _ _ _ (alone_sound now table hrows) [] []
    fun _ _ => List.not_mem_nil
  rw [alone_claims, List.nil_append] at hfold
  have hids' : ((StateCall.alone now notificationId table claims).done.filter Prod.snd).map
      (·.1.eventId) = (claims.filter fun c =>
        (upsertState (table (c.key notificationId)) now c).isSome).map (·.eventId) := by
    rw [← alone_winners, List.map_map]
    rfl
  rw [hids'] at hfold
  have hwinners : (claims.filter fun c => decide (c.eventId ∈ (claims.filter fun c =>
      (upsertState (table (c.key notificationId)) now c).isSome).map (·.eventId))) =
      claims.filter fun c => (upsertState (table (c.key notificationId)) now c).isSome := by
    refine List.filter_congr fun c hc => ?_
    rw [Bool.eq_iff_iff, decide_eq_true_eq, List.mem_map]
    constructor
    · rintro ⟨c', hc', heq⟩
      obtain ⟨hmem, hwon⟩ := List.mem_filter.mp hc'
      -- an event id belongs to one claim
      rwa [← List.inj_on_of_nodup_map hids hmem hc heq]
    · intro hwon
      exact ⟨c, List.mem_filter.mpr ⟨hc, hwon⟩, rfl⟩
  unfold claimStateBulk
  change (Except.bind (List.foldlM _ _ _) _) = _
  rw [show List.foldlM (bulkRow now notificationId) ⟨table, [], []⟩ claims = _ from hfold]
  exact congrArg (fun w => Except.ok (_, w)) hwinners

/-- The rows a call writes do not depend on the order of distinct rows. -/
theorem write_perm (now : Int) {notificationId : Nat} (table : StateTable)
    {claims order : List StateClaim} (hperm : order.Perm claims)
    (hrows : (claims.map (·.key notificationId)).Nodup) :
    (StateCall.alone now notificationId table order).write table =
      (StateCall.alone now notificationId table claims).write table := by
  refine (hperm.symm.map _).foldl_eq' (fun e he e' he' t => ?_) table |>.symm
  obtain ⟨c, hc, rfl⟩ := List.mem_map.mp he
  obtain ⟨c', hc', rfl⟩ := List.mem_map.mp he'
  by_cases hkey : c.key notificationId = c'.key notificationId
  · rw [List.inj_on_of_nodup_map hrows hc hc' hkey]
  · simp only [writeRow, StateCall.alone]
    split <;> split
    · exact Function.update_comm hkey _ _ _
    all_goals rfl

/-- **STATE notifications are de-stuttered.** Behind the hash a row holds at first, the hashes
that win on it in any run are the claimed ones in commit order without consecutive
repetitions; and a bulk statement over distinct (tenant, subject) pairs, each with its own
event id, wins what its claims win one by one in any order, and leaves the same table. -/
theorem state_notifications_destuttered (table : StateTable) :
    (∀ as s, Run stateStep (StateSys.start table) as s → ∀ k,
      (hashOf table k).toList ++ wonHashes k s.log =
        ((hashOf table k).toList ++ claimedHashes k s.log).destutter (· ≠ ·)) ∧
    ∀ (now : Int) (notificationId : Nat) (claims : List StateClaim),
      (claims.map fun c => (c.tenantId, c.subject)).Nodup → (claims.map (·.eventId)).Nodup →
      ∃ table' won, claimStateBulk now notificationId table claims = .ok (table', won) ∧
        ∀ order, order.Perm claims →
          (claimOneByOne now notificationId table order).1 = table' ∧
          (claimOneByOne now notificationId table order).2.Perm won := by
  refine ⟨fun as s hrun k => (serial_of_run hrun).wonHashes_eq k, ?_⟩
  intro now notificationId claims hpairs hids
  have hrows : (claims.map (·.key notificationId)).Nodup := by
    refine List.pairwise_map.mpr ((List.pairwise_map.mp hpairs).imp ?_)
    intro c c' hne heq
    rw [StateClaim.key, StateClaim.key, StateKey.mk.injEq] at heq
    exact hne (Prod.ext heq.2.1 heq.2.2)
  refine ⟨_, _, claimStateBulk_of_nodup now table hrows hids, fun order hperm => ?_⟩
  have horder : (order.map (·.key notificationId)).Nodup :=
    (hperm.map _).nodup_iff.mpr hrows
  rw [claimOneByOne_of_nodup now table horder]
  exact ⟨write_perm now table hperm hrows, hperm.filter _⟩

/-- Two tenants' changes: a single claim and a bulk claim that waits for its row. -/
def stateSample : List StateAction :=
  let a : StateClaim := ⟨"t1", [], "h1", 1⟩
  [.begin 0 7 100 [a], .upsert 0, .begin 1 7 101 [⟨"t2", [], "h1", 2⟩, ⟨"t1", [], "h1", 3⟩],
    .upsert 1, .commit 0, .upsert 1, .commit 1, .begin 2 7 102 [⟨"t1", [], "h2", 4⟩],
    .upsert 2, .commit 2]

theorem state_notifications_destuttered_sample :
    ∃ s, Run stateStep (StateSys.start fun _ => none) stateSample s ∧
      claimedHashes ⟨7, "t1", []⟩ s.log = ["h1", "h1", "h2"] ∧
      wonHashes ⟨7, "t1", []⟩ s.log = ["h1", "h2"] ∧
      (hashOf (fun _ => none) ⟨7, "t1", []⟩).toList ++ wonHashes ⟨7, "t1", []⟩ s.log =
        ((hashOf (fun _ => none) ⟨7, "t1", []⟩).toList ++
          claimedHashes ⟨7, "t1", []⟩ s.log).destutter (· ≠ ·) ∧
      ∃ table' won, claimStateBulk 101 7 (fun _ => none)
          [⟨"t2", [], "h1", 2⟩, ⟨"t1", [], "h1", 3⟩] = .ok (table', won) ∧
        (claimOneByOne 101 7 (fun _ => none) [⟨"t1", [], "h1", 3⟩, ⟨"t2", [], "h1", 2⟩]).2.Perm
          won := by
  have hsome : (stateSample.foldlM stateStep (StateSys.start fun _ => none)).isSome = true := by
    decide +kernel
  refine ⟨_, run_final hsome, by decide +kernel, by decide +kernel,
    (state_notifications_destuttered _).1 _ _ (run_final hsome) _, ?_⟩
  obtain ⟨table', won, hbulk, hany⟩ := (state_notifications_destuttered fun _ => none).2 101 7
    [⟨"t2", [], "h1", 2⟩, ⟨"t1", [], "h1", 3⟩] (by decide) (by decide)
  exact ⟨table', won, hbulk, (hany _ (List.Perm.swap _ _ _)).2⟩

end Ai4iCore.Kafka
