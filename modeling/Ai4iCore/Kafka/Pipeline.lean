import Ai4iCore.Base.Dict
import Ai4iCore.Base.Run
import Ai4iCore.Kafka.Ledger

/-!
# The BAND pipeline over its three stores

`emit_band_batch` (pipeline.py) over the tiered cache of `cache.py`: the
in-process L1 of each pod, the shared Redis and the ledger table. A call is a
`Batch` that moves through the phases of the source, one database or Redis
operation per step; `Action` names the batch that moves and what its
environment does to it (a Redis error, a failed commit, the pod's clock).

What the model keeps from the environment is every choice the code leaves open:

* the settings and subscription gates drop evaluations (`Action.decide`'s
  `gate`), and a failed read of either drops them all (`Action.crash`);
* a Redis pipeline is not a transaction, so each of its commands is a step, and
  each may fail on its own;
* an entry leaves L1 or Redis at any moment: TTL, eviction, an invalidation
  message, or the `DELETE` that follows a failed write;
* a coroutine that waits on another's load of the same key in its process takes
  the value from that load (`Action.join`, the single flight of `read`).

The only ghost is `log`: the claims reported as won, and the resets, in commit
order.
-/

namespace Ai4iCore.Kafka

open StepSystem

universe u

variable {ν : Type u}

/-! ## State -/

/-- A `BandItem` that passed validation, with the settings row's active bands. -/
structure Evaluation (ν : Type u) where
  ref : LedgerRef
  bands : List (Band ν)
  observed : ν

/-- An evaluation of `active`: its band and what was decided. -/
structure Pending (ν : Type u) where
  ref : LedgerRef
  band : Option (Band ν)
  decision : Decision

/-- Where a call of `emit_band_batch` stands. -/
inductive Phase (ν : Type u) where
  /-- the MGET of the L1 misses is next -/
  | redisGet (misses : List LedgerRef)
  /-- `read_states` of what Redis did not have is next -/
  | dbRead (misses : List LedgerRef) (redisOk : Bool)
  /-- the SET NX commands still to send -/
  | fill (entries : List (LedgerRef × LedgerState ν))
  | decide
  /-- the claims and resets still to make -/
  | claims (todo : List (Pending ν))
  /-- a claim or reset of `ref` was lost: `reread` is next -/
  | reread (ref : LedgerRef) (todo : List (Pending ν))
  /-- the SET commands still to send -/
  | write (entries : List (LedgerRef × LedgerState ν))
  | done

/-- One call of `emit_band_batch`. -/
structure Batch (ν : Type u) where
  pod : Nat
  items : List (Evaluation ν)
  /-- `CacheRead.ledger` -/
  ledger : Dict LedgerRef (LedgerState ν)
  changed : Dict LedgerRef (LedgerState ν)
  refreshed : Dict LedgerRef (LedgerState ν)
  /-- the evaluations to announce -/
  fired : List (LedgerRef × ν)
  phase : Phase ν

/-- A claim that its caller saw win, or a committed reset. -/
inductive LedgerEvent (ν : Type u) where
  | won (ref : LedgerRef) (band : ν) (at' : Int)
  | rearmed (ref : LedgerRef) (at' : Int)

/-- The stores, the calls in flight, and the ghost history. -/
structure Sys (ν : Type u) where
  db : LedgerRef → Option (Row ν)
  redis : LedgerRef → Option (LedgerState ν)
  l1 : Nat → LedgerRef → Option (LedgerState ν)
  batch : Nat → Option (Batch ν)
  /-- the database's `now()` -/
  clock : Int
  log : List (LedgerEvent ν)

/-- A fresh deployment: no row, nothing cached, no call in flight. -/
def Sys.empty : Sys ν where
  db _ := none
  redis _ := none
  l1 _ _ := none
  batch _ := none
  clock := 0
  log := []

/-- How a statement and its commit end for the caller. -/
inductive TxOutcome where
  | committed
  /-- an exception, and the transaction was rolled back -/
  | rolledBack
  /-- an exception, although the commit had gone through -/
  | committedUnseen
  deriving DecidableEq, Repr

inductive Action (ν : Type u) where
  | start (i pod : Nat) (items : List (Evaluation ν)) (waits : List LedgerRef)
  | redisGet (i : Nat) (ok : Bool)
  | dbRead (i : Nat) (ok : Bool)
  | fill (i : Nat) (ok : Bool)
  | join (i j : Nat) (ref : LedgerRef)
  | decide (i : Nat) (now : Int) (gate : Evaluation ν → Bool)
  | claim (i : Nat) (outcome : TxOutcome)
  | reread (i : Nat) (ok : Bool)
  | writeLedger (i : Nat)
  | setRedis (i : Nat) (ok : Bool)
  | crash (i : Nat)
  | expireRedis (ref : LedgerRef)
  | dropL1 (pod : Nat) (ref : LedgerRef)
  | tick (d : Nat)

/-! ## Steps -/

/-- Write every entry into a cache, in order. -/
def putAll (cache : LedgerRef → Option (LedgerState ν))
    (entries : List (LedgerRef × LedgerState ν)) : LedgerRef → Option (LedgerState ν) :=
  entries.foldl (fun c e => Function.update c e.1 (some e.2)) cache

def Sys.setBatch (s : Sys ν) (i : Nat) (b : Batch ν) : Sys ν :=
  { s with batch := Function.update s.batch i (some b) }

def Sys.fillL1 (s : Sys ν) (pod : Nat) (entries : List (LedgerRef × LedgerState ν)) : Sys ν :=
  { s with l1 := Function.update s.l1 pod (putAll (s.l1 pod) entries) }

/-- What a cache holds of `refs`. -/
def hits (cache : LedgerRef → Option (LedgerState ν)) (refs : List LedgerRef) :
    List (LedgerRef × LedgerState ν) :=
  refs.filterMap fun r => (cache r).map fun st => (r, st)

/-- What a cache does not hold of `refs`. -/
def missing (cache : LedgerRef → Option (LedgerState ν)) (refs : List LedgerRef) :
    List LedgerRef :=
  refs.filter fun r => (cache r).isNone

/-- `read`, up to its first await: L1, then the keys this call loads itself. -/
def startBatch (s : Sys ν) (pod : Nat) (items : List (Evaluation ν))
    (waits : List LedgerRef) : Batch ν :=
  let refs := (items.map Evaluation.ref).dedup
  let own := (missing (s.l1 pod) refs).filter fun r => r ∉ waits
  { pod, items, ledger := hits (s.l1 pod) refs, changed := [], refreshed := [], fired := [],
    phase := if own.isEmpty then .decide else .redisGet own }

/-- `_load_owned`: the Redis pipeline. A failed pipeline sends every key to the
database and leaves the fill out. -/
def redisGetStep (s : Sys ν) (i : Nat) (b : Batch ν) (misses : List LedgerRef) (ok : Bool) :
    Sys ν :=
  if ok then
    let found := hits s.redis misses
    let rest := missing s.redis misses
    (s.fillL1 b.pod found).setBatch i
      { b with ledger := b.ledger.setAll found,
               phase := if rest.isEmpty then .decide else .dbRead rest true }
  else s.setBatch i { b with phase := .dbRead misses false }

/-- `_load_owned`: one `read_states` for what Redis did not have. A failed read
leaves these keys without a state. -/
def dbReadStep (s : Sys ν) (i : Nat) (b : Batch ν) (misses : List LedgerRef)
    (redisOk ok : Bool) : Sys ν :=
  if ok then
    let loaded := misses.map fun r => (r, stateOf (s.db r))
    (s.fillL1 b.pod loaded).setBatch i
      { b with ledger := b.ledger.setAll loaded,
               phase := if redisOk then .fill loaded else .decide }
  else s.setBatch i { b with phase := .decide }

/-- `_fill`: one SET NX. -/
def fillStep (s : Sys ν) (i : Nat) (b : Batch ν) (ref : LedgerRef) (st : LedgerState ν)
    (rest : List (LedgerRef × LedgerState ν)) (ok : Bool) : Sys ν :=
  let s' := if ok && (s.redis ref).isNone then
      { s with redis := Function.update s.redis ref (some st.throughJson) } else s
  s'.setBatch i { b with phase := if rest.isEmpty then .decide else .fill rest }

section

variable [LinearOrder ν]

/-- The evaluation loop: the band reached, and the decision on the state read. -/
def activeOf (cooldownS now : Int) (gate : Evaluation ν → Bool) (b : Batch ν) :
    List (Pending ν) :=
  b.items.filterMap fun e =>
    if gate e then
      (b.ledger.get? e.ref).bind fun st =>
        let band := bandFor e.observed e.bands
        let decision := Ledger.decide e.ref.spec (band.map Band.value) st now cooldownS
        if decision = .fire ∨ decision = .reset then some ⟨e.ref, band, decision⟩ else none
    else none

/-- One FIRE of the claim loop: `claim_band` and its commit. -/
def fireStep (s : Sys ν) (i : Nat) (b : Batch ν) (ref : LedgerRef) (band : ν)
    (rest : List (Pending ν)) : TxOutcome → Sys ν
  | .rolledBack => s.setBatch i { b with phase := .claims rest }
  | .committedUnseen =>
    match claimBand (s.db ref) band s.clock with
    | some row =>
      { s with db := Function.update s.db ref (some row) }.setBatch i
        { b with phase := .claims rest }
    | none => s.setBatch i { b with phase := .claims rest }
  | .committed =>
    match claimBand (s.db ref) band s.clock with
    | some row =>
      { s with db := Function.update s.db ref (some row),
               log := s.log ++ [LedgerEvent.won ref band s.clock] }.setBatch i
        { b with changed := b.changed.set ref (stateOf (some row)),
                 fired := b.fired ++ [(ref, band)], phase := .claims rest }
    | none => s.setBatch i { b with phase := .reread ref rest }

/-- One RESET of the claim loop: `reset_band` and its commit. -/
def resetStep (cooldownS : Int) (s : Sys ν) (i : Nat) (b : Batch ν) (ref : LedgerRef)
    (rest : List (Pending ν)) : TxOutcome → Sys ν
  | .rolledBack => s.setBatch i { b with phase := .claims rest }
  | .committedUnseen =>
    match resetBand (s.db ref) cooldownS s.clock with
    | some row =>
      { s with db := Function.update s.db ref (some row),
               log := s.log ++ [LedgerEvent.rearmed ref s.clock] }.setBatch i
        { b with phase := .claims rest }
    | none => s.setBatch i { b with phase := .claims rest }
  | .committed =>
    match resetBand (s.db ref) cooldownS s.clock with
    | some row =>
      { s with db := Function.update s.db ref (some row),
               log := s.log ++ [LedgerEvent.rearmed ref s.clock] }.setBatch i
        { b with changed := b.changed.set ref (stateOf (some row)), phase := .claims rest }
    | none => s.setBatch i { b with phase := .reread ref rest }

/-- One evaluation of the claim loop. A FIRE without a band raises before its
statement, and the loop goes on. -/
def claimStep (cooldownS : Int) (s : Sys ν) (i : Nat) (b : Batch ν) (p : Pending ν)
    (rest : List (Pending ν)) (outcome : TxOutcome) : Sys ν :=
  if p.decision = .fire then
    match p.band with
    | some band => fireStep s i b p.ref band.value rest outcome
    | none => s.setBatch i { b with phase := .claims rest }
  else resetStep cooldownS s i b p.ref rest outcome

/-- `write_ledger`, up to its first await: the values to send, refreshed ones
first, and the own L1. -/
def writeLedgerStep (s : Sys ν) (i : Nat) (b : Batch ν) : Sys ν :=
  let values := Dict.setAll [] (b.refreshed ++ b.changed)
  (s.fillL1 b.pod values).setBatch i
    { b with phase := if values.isEmpty then .done else .write values }

/-- `_write`: one SET. -/
def setRedisStep (s : Sys ν) (i : Nat) (b : Batch ν) (ref : LedgerRef) (st : LedgerState ν)
    (rest : List (LedgerRef × LedgerState ν)) (ok : Bool) : Sys ν :=
  let s' := if ok then
      { s with redis := Function.update s.redis ref (some st.throughJson) } else s
  s'.setBatch i { b with phase := if rest.isEmpty then .done else .write rest }

/-- One step of the system. -/
def step (cooldownS : Int) (s : Sys ν) : Action ν → Option (Sys ν)
  | .start i pod items waits =>
    match s.batch i with
    | none => some (s.setBatch i (startBatch s pod items waits))
    | some _ => none
  | .redisGet i ok =>
    match s.batch i with
    | some b =>
      match b.phase with
      | .redisGet misses => some (redisGetStep s i b misses ok)
      | _ => none
    | none => none
  | .dbRead i ok =>
    match s.batch i with
    | some b =>
      match b.phase with
      | .dbRead misses redisOk => some (dbReadStep s i b misses redisOk ok)
      | _ => none
    | none => none
  | .fill i ok =>
    match s.batch i with
    | some b =>
      match b.phase with
      | .fill ((ref, st) :: rest) => some (fillStep s i b ref st rest ok)
      | _ => none
    | none => none
  | .join i j ref =>
    match s.batch i, s.batch j with
    | some b, some b' =>
      match b.phase, b'.ledger.get? ref with
      | .decide, some st =>
        if b'.pod = b.pod ∧ b.ledger.get? ref = none then
          some (s.setBatch i { b with ledger := b.ledger.set ref st })
        else none
      | _, _ => none
    | _, _ => none
  | .decide i now gate =>
    match s.batch i with
    | some b =>
      match b.phase with
      | .decide =>
        let active := activeOf cooldownS now gate b
        some (s.setBatch i
          { b with phase := if active.isEmpty then .done else .claims active })
      | _ => none
    | none => none
  | .claim i outcome =>
    match s.batch i with
    | some b =>
      match b.phase with
      | .claims (p :: rest) => some (claimStep cooldownS s i b p rest outcome)
      | _ => none
    | none => none
  | .reread i ok =>
    match s.batch i with
    | some b =>
      match b.phase with
      | .reread ref rest =>
        some (s.setBatch i
          { b with refreshed := if ok then b.refreshed.set ref (stateOf (s.db ref))
                                else b.refreshed,
                   phase := .claims rest })
      | _ => none
    | none => none
  | .writeLedger i =>
    match s.batch i with
    | some b =>
      match b.phase with
      | .claims [] => some (writeLedgerStep s i b)
      | _ => none
    | none => none
  | .setRedis i ok =>
    match s.batch i with
    | some b =>
      match b.phase with
      | .write ((ref, st) :: rest) => some (setRedisStep s i b ref st rest ok)
      | _ => none
    | none => none
  | .crash i => some { s with batch := Function.update s.batch i none }
  | .expireRedis ref => some { s with redis := Function.update s.redis ref none }
  | .dropL1 pod ref =>
    some { s with l1 := Function.update s.l1 pod (Function.update (s.l1 pod) ref none) }
  | .tick d => some { s with clock := s.clock + d }

/-! ## What a step can do -/

/-- Everything a step of the system can be, with the guard it passed. -/
inductive Moved (cooldownS : Int) (s : Sys ν) : Action ν → Sys ν → Prop where
  | start (i pod : Nat) (items : List (Evaluation ν)) (waits : List LedgerRef) :
      s.batch i = none →
      Moved cooldownS s (.start i pod items waits) (s.setBatch i (startBatch s pod items waits))
  | redisGet (i : Nat) (b : Batch ν) (misses : List LedgerRef) (ok : Bool) :
      s.batch i = some b → b.phase = .redisGet misses →
      Moved cooldownS s (.redisGet i ok) (redisGetStep s i b misses ok)
  | dbRead (i : Nat) (b : Batch ν) (misses : List LedgerRef) (redisOk ok : Bool) :
      s.batch i = some b → b.phase = .dbRead misses redisOk →
      Moved cooldownS s (.dbRead i ok) (dbReadStep s i b misses redisOk ok)
  | fill (i : Nat) (b : Batch ν) (ref : LedgerRef) (st : LedgerState ν)
      (rest : List (LedgerRef × LedgerState ν)) (ok : Bool) :
      s.batch i = some b → b.phase = .fill ((ref, st) :: rest) →
      Moved cooldownS s (.fill i ok) (fillStep s i b ref st rest ok)
  | join (i j : Nat) (b b' : Batch ν) (ref : LedgerRef) (st : LedgerState ν) :
      s.batch i = some b → s.batch j = some b' → b.phase = .decide →
      b'.ledger.get? ref = some st →
      Moved cooldownS s (.join i j ref) (s.setBatch i { b with ledger := b.ledger.set ref st })
  | decide (i : Nat) (b : Batch ν) (now : Int) (gate : Evaluation ν → Bool) :
      s.batch i = some b → b.phase = .decide →
      Moved cooldownS s (.decide i now gate) (s.setBatch i
        { b with phase := if (activeOf cooldownS now gate b).isEmpty then .done
                          else .claims (activeOf cooldownS now gate b) })
  | claim (i : Nat) (b : Batch ν) (p : Pending ν) (rest : List (Pending ν))
      (outcome : TxOutcome) :
      s.batch i = some b → b.phase = .claims (p :: rest) →
      Moved cooldownS s (.claim i outcome) (claimStep cooldownS s i b p rest outcome)
  | reread (i : Nat) (b : Batch ν) (ref : LedgerRef) (rest : List (Pending ν)) (ok : Bool) :
      s.batch i = some b → b.phase = .reread ref rest →
      Moved cooldownS s (.reread i ok) (s.setBatch i
        { b with refreshed := if ok then b.refreshed.set ref (stateOf (s.db ref))
                              else b.refreshed,
                 phase := .claims rest })
  | writeLedger (i : Nat) (b : Batch ν) :
      s.batch i = some b → b.phase = .claims [] →
      Moved cooldownS s (.writeLedger i) (writeLedgerStep s i b)
  | setRedis (i : Nat) (b : Batch ν) (ref : LedgerRef) (st : LedgerState ν)
      (rest : List (LedgerRef × LedgerState ν)) (ok : Bool) :
      s.batch i = some b → b.phase = .write ((ref, st) :: rest) →
      Moved cooldownS s (.setRedis i ok) (setRedisStep s i b ref st rest ok)
  | crash (i : Nat) :
      Moved cooldownS s (.crash i) { s with batch := Function.update s.batch i none }
  | expireRedis (ref : LedgerRef) :
      Moved cooldownS s (.expireRedis ref) { s with redis := Function.update s.redis ref none }
  | dropL1 (pod : Nat) (ref : LedgerRef) :
      Moved cooldownS s (.dropL1 pod ref)
        { s with l1 := Function.update s.l1 pod (Function.update (s.l1 pod) ref none) }
  | tick (d : Nat) : Moved cooldownS s (.tick d) { s with clock := s.clock + d }

/-- The step function takes no other step than these. -/
theorem step_moved {cooldownS : Int} {s s' : Sys ν} {a : Action ν}
    (h : step cooldownS s a = some s') : Moved cooldownS s a s' := by
  cases a with
  | start i pod items waits =>
    simp only [step] at h
    split at h
    · rename_i hb
      cases h
      exact .start i pod items waits hb
    · cases h
  | redisGet i ok =>
    simp only [step] at h
    split at h
    · rename_i b hb
      split at h
      · rename_i misses hp
        cases h
        exact .redisGet i b misses ok hb hp
      · cases h
    · cases h
  | dbRead i ok =>
    simp only [step] at h
    split at h
    · rename_i b hb
      split at h
      · rename_i misses redisOk hp
        cases h
        exact .dbRead i b misses redisOk ok hb hp
      · cases h
    · cases h
  | fill i ok =>
    simp only [step] at h
    split at h
    · rename_i b hb
      split at h
      · rename_i ref st rest hp
        cases h
        exact .fill i b ref st rest ok hb hp
      · cases h
    · cases h
  | join i j ref =>
    simp only [step] at h
    split at h
    · rename_i b b' hb hb'
      split at h
      · rename_i st hp hst
        split at h
        · cases h
          exact .join i j b b' ref st hb hb' hp hst
        · cases h
      · cases h
    · cases h
  | decide i now gate =>
    simp only [step] at h
    split at h
    · rename_i b hb
      split at h
      · rename_i hp
        cases h
        exact .decide i b now gate hb hp
      · cases h
    · cases h
  | claim i outcome =>
    simp only [step] at h
    split at h
    · rename_i b hb
      split at h
      · rename_i p rest hp
        cases h
        exact .claim i b p rest outcome hb hp
      · cases h
    · cases h
  | reread i ok =>
    simp only [step] at h
    split at h
    · rename_i b hb
      split at h
      · rename_i ref rest hp
        cases h
        exact .reread i b ref rest ok hb hp
      · cases h
    · cases h
  | writeLedger i =>
    simp only [step] at h
    split at h
    · rename_i b hb
      split at h
      · rename_i hp
        cases h
        exact .writeLedger i b hb hp
      · cases h
    · cases h
  | setRedis i ok =>
    simp only [step] at h
    split at h
    · rename_i b hb
      split at h
      · rename_i ref st rest hp
        cases h
        exact .setRedis i b ref st rest ok hb hp
      · cases h
    · cases h
  | crash i =>
    cases h
    exact .crash i
  | expireRedis ref =>
    cases h
    exact .expireRedis ref
  | dropL1 pod ref =>
    cases h
    exact .dropL1 pod ref
  | tick d =>
    cases h
    exact .tick d

end

end Ai4iCore.Kafka
