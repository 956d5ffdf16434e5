import Ai4iCore.Base.Dict
import Ai4iCore.Base.Run
import Mathlib.Data.List.Lattice

/-!
# The index of global policies

The ids of the global policies stand in a Redis set, which three parties write:

* `cache_policy` and `delete_policy_cache` (policy_cache.py), after the commit of a policy or
  when a policy is cached again, with one SADD or SREM;
* the route `internal_get_global_policies` (internal.py), with a DEL and a SADD;
* `get_global_policy_ids` (guardrail.py), with one transaction that replaces the set and sets a
  second key, the sentinel, both for `_GLOBAL_POLICY_IDS_TTL` seconds.

A reader takes any set that is not empty as complete, and an absent set under a sentinel as
"no global policies". Both keys can leave Redis at any moment, the TTL of either included.

A SADD to an absent set makes a set of one, and the reader then skips every other global policy
(`partial_set_taken_as_complete`), although its docstring has it block a request rather than
skip one. As long as no command leaves the set or the sentinel alone like this (`allowed`), every
list that a reader returns has the policies it owes (`global_policies_returned`).
-/

namespace Ai4iCore.Guardrail.GlobalIndex

open StepSystem

/-! ## Redis -/

/-- `global:policy_ids`, absent when empty, and its sentinel. -/
structure Redis where
  index : List Int
  built : Bool
  deriving DecidableEq, Repr

namespace Redis

def sadd (r : Redis) (ids : List Int) : Redis := { r with index := r.index ∪ ids }

/-- The last SREM of a set removes its key. -/
def srem (r : Redis) (id : Int) : Redis := { r with index := r.index.filter (· ≠ id) }

/-- DEL, expiry or eviction of the set. -/
def dropIndex (r : Redis) : Redis := { r with index := [] }

def dropSentinel (r : Redis) : Redis := { r with built := false }

/-- The transaction at the end of `get_global_policy_ids`. -/
def rebuild (r : Redis) (ids : List Int) : Redis :=
  ⟨if ids = [] then r.index else ids, true⟩

theorem srem_index_eq_nil {r : Redis} {id : Int} (h : ∀ p ∈ r.index, p = id) :
    (r.srem id).index = [] :=
  List.filter_eq_nil_iff.mpr fun p hp => by simpa using h p hp

end Redis

/-! ## The parties -/

/-- `policies.is_global` and `policies.is_active`. -/
structure Flags where
  isGlobal : Bool
  isActive : Bool
  deriving DecidableEq, Repr

/-- A call of `cache_policy`, with the row it was given, or of `delete_policy_cache`. -/
inductive Task
  | cache (id : Int) (isGlobal : Bool)
  | remove (id : Int)
  deriving DecidableEq, Repr

def Task.id : Task → Int
  | .cache id _ => id
  | .remove id => id

/-- What a call sends to the set. -/
inductive Command
  | sadd (id : Int)
  | srem (id : Int)
  deriving DecidableEq, Repr

/-- `cache_policy` gives way to `delete_policy_cache` when the payload could not be stored. -/
def Task.command (payloadStored : Bool) : Task → Command
  | .cache id isGlobal => if payloadStored && isGlobal then .sadd id else .srem id
  | .remove id => .srem id

def Command.id : Command → Int
  | .sadd id => id
  | .srem id => id

theorem Task.command_id (task : Task) (payloadStored : Bool) :
    (task.command payloadStored).id = task.id := by
  cases task with
  | cache id isGlobal =>
    rw [Task.command]
    split <;> rfl
  | remove id => rfl

def Command.run (r : Redis) : Command → Redis
  | .sadd id => r.sadd [id]
  | .srem id => r.srem id

/-- Where a call of `get_global_policy_ids` stands. -/
inductive Phase
  | smembers
  | sentinel
  | fetch
  /-- platform-core has answered -/
  | store (ids : List Int)
  deriving DecidableEq, Repr

/-- A call of `get_global_policy_ids`. It owes the policies that were indexed when it began and
have been global ever since. -/
structure Reader where
  owed : List Int
  phase : Phase
  deriving DecidableEq, Repr

inductive RewarmPhase
  | delete
  | add
  | reply
  deriving DecidableEq, Repr

/-- A request of `internal_get_global_policies`, with the ids it has loaded. -/
structure Rewarm where
  ids : List Int
  phase : RewarmPhase
  deriving DecidableEq, Repr

/-- A call that returned a list. -/
structure Answer where
  owed : List Int
  ids : List Int
  deriving DecidableEq, Repr

/-- `indexed` is a ghost: the policies for which `cache_policy` has finished since they last
became global. -/
structure State where
  policies : Dict Int Flags
  redis : Redis
  indexed : List Int
  tasks : Nat → Option Task
  readers : Nat → Option Reader
  rewarms : Nat → Option Rewarm
  answers : List Answer

/-- Any policies in the database, and nothing in Redis. -/
def State.fresh (policies : Dict Int Flags) : State :=
  ⟨policies, ⟨[], false⟩, [], fun _ => none, fun _ => none, fun _ => none, []⟩

def State.isGlobal (s : State) (id : Int) : Bool :=
  (s.policies.get? id).any Flags.isGlobal

/-- `PolicyRepository.get_global_active`. -/
def State.getGlobalActive (s : State) : List Int :=
  (s.policies.filter fun e => e.2.isGlobal && e.2.isActive).map Prod.fst

inductive Action
  /-- create, update or delete (`none`), and the call that follows -/
  | commit (t : Nat) (id : Int) (row : Option Flags)
  /-- `recache_policies` and `internal_get_policy` load a row to cache it -/
  | load (t : Nat) (id : Int)
  /-- a call of `cache_policy` or `delete_policy_cache` ends -/
  | finish (t : Nat) (payloadStored ok : Bool)
  | expireIndex
  | expireSentinel
  | begin (i : Nat)
  | smembers (i : Nat) (ok : Bool)
  | sentinel (i : Nat) (ok : Bool)
  | fetch (i : Nat)
  | rewarmDelete (i : Nat) (ok : Bool)
  | rewarmAdd (i : Nat) (ok : Bool)
  | reply (i : Nat)
  | store (i : Nat) (ok : Bool)
  /-- the call raises -/
  | abort (i : Nat)
  deriving DecidableEq, Repr

/-! ## The steps -/

/-- The policy is not owed any more, by Redis or by a reader. -/
def Reader.forget (id : Int) (r : Reader) : Reader := { r with owed := r.owed.filter (· ≠ id) }

def State.forget (s : State) (id : Int) : State :=
  { s with
    indexed := s.indexed.filter (· ≠ id)
    readers := fun i => (s.readers i).map (Reader.forget id) }

/-- The call that follows a commit. -/
def Task.after (id : Int) : Option Flags → Task
  | some row => .cache id row.isGlobal
  | none => .remove id

def State.commit (s : State) (t : Nat) (id : Int) (row : Option Flags) : State :=
  let s' := { s with
    policies := match row with
      | some row => s.policies.set id row
      | none => s.policies.erase id
    tasks := Function.update s.tasks t (some (.after id row)) }
  if row.any Flags.isGlobal then s' else s'.forget id

/-- A call that indexes a policy which still is global. -/
def State.indexes (s : State) : Task → Bool
  | .cache id isGlobal => isGlobal && s.isGlobal id
  | .remove _ => false

def State.indexedAfter (s : State) (task : Task) : List Int :=
  if s.indexes task then s.indexed.insert task.id else s.indexed

theorem State.subset_indexedAfter (s : State) (task : Task) :
    s.indexed ⊆ s.indexedAfter task := by
  unfold State.indexedAfter
  split
  · exact fun p hp => List.mem_insert_of_mem hp
  · exact List.Subset.refl _

/-- What a call indexes is global. -/
theorem State.mem_indexedAfter (s : State) {task : Task} {p : Int} (h : p ∈ s.indexedAfter task) :
    p ∈ s.indexed ∨ s.isGlobal p = true := by
  unfold State.indexedAfter at h
  split at h
  · rename_i hindexes
    rcases List.mem_insert_iff.mp h with rfl | h
    · cases task with
      | cache id isGlobal =>
        unfold State.indexes at hindexes
        exact .inr (Bool.and_eq_true_iff.mp hindexes).2
      | remove id => exact absurd hindexes (by simp [State.indexes])
    · exact .inl h
  · exact .inl h

def State.finish (s : State) (t : Nat) (task : Task) (payloadStored ok : Bool) : State :=
  { s with
    redis := if ok then (task.command payloadStored).run s.redis else s.redis
    indexed := s.indexedAfter task
    tasks := Function.update s.tasks t none }

def State.moveReader (s : State) (i : Nat) (r : Reader) (phase : Phase) : State :=
  { s with readers := Function.update s.readers i (some { r with phase := phase }) }

def State.answer (s : State) (i : Nat) (r : Reader) (ids : List Int) : State :=
  { s with
    readers := Function.update s.readers i none
    answers := s.answers ++ [⟨r.owed, ids⟩] }

def State.moveRewarm (s : State) (i : Nat) (w : Rewarm) (phase : RewarmPhase) : State :=
  { s with rewarms := Function.update s.rewarms i (some { w with phase := phase }) }

/-- `redis.smembers`; what it raises leads to platform-core. -/
def State.smembers (s : State) (i : Nat) (r : Reader) (ok : Bool) : State :=
  if ok then
    if s.redis.index = [] then s.moveReader i r .sentinel else s.answer i r s.redis.index
  else s.moveReader i r .fetch

/-- `redis.exists` of the sentinel. -/
def State.sentinel (s : State) (i : Nat) (r : Reader) (ok : Bool) : State :=
  if ok && s.redis.built then s.answer i r [] else s.moveReader i r .fetch

/-- The DEL of `internal_get_global_policies`; when it raises, the SADD is skipped. -/
def State.rewarmDelete (s : State) (i : Nat) (w : Rewarm) (ok : Bool) : State :=
  if ok then
    { s with redis := s.redis.dropIndex }.moveRewarm i w (if w.ids = [] then .reply else .add)
  else s.moveRewarm i w .reply

def State.rewarmAdd (s : State) (i : Nat) (w : Rewarm) (ok : Bool) : State :=
  { s with redis := if ok then s.redis.sadd w.ids else s.redis }.moveRewarm i w .reply

/-- The transaction at the end of a call, whose failure is ignored. -/
def State.store (s : State) (i : Nat) (r : Reader) (ids : List Int) (ok : Bool) : State :=
  { s with redis := if ok then s.redis.rebuild ids else s.redis }.answer i r ids

def step (s : State) : Action → Option State
  | .commit t id row => if (s.tasks t).isNone then some (s.commit t id row) else none
  | .load t id =>
    match s.tasks t, s.policies.get? id with
    | none, some row =>
      some { s with tasks := Function.update s.tasks t (some (.cache id row.isGlobal)) }
    | _, _ => none
  | .finish t payloadStored ok =>
    match s.tasks t with
    | some task => some (s.finish t task payloadStored ok)
    | none => none
  | .expireIndex => some { s with redis := s.redis.dropIndex }
  | .expireSentinel => some { s with redis := s.redis.dropSentinel }
  | .begin i =>
    match s.readers i, s.rewarms i with
    | none, none =>
      some { s with readers := Function.update s.readers i (some ⟨s.indexed, .smembers⟩) }
    | _, _ => none
  | .smembers i ok =>
    match s.readers i with
    | some ⟨owed, .smembers⟩ => some (s.smembers i ⟨owed, .smembers⟩ ok)
    | _ => none
  | .sentinel i ok =>
    match s.readers i with
    | some ⟨owed, .sentinel⟩ => some (s.sentinel i ⟨owed, .sentinel⟩ ok)
    | _ => none
  | .fetch i =>
    match s.readers i, s.rewarms i with
    | some ⟨_, .fetch⟩, none => some (s.moveRewarm i ⟨s.getGlobalActive, .delete⟩ .delete)
    | _, _ => none
  | .rewarmDelete i ok =>
    match s.rewarms i with
    | some ⟨ids, .delete⟩ => some (s.rewarmDelete i ⟨ids, .delete⟩ ok)
    | _ => none
  | .rewarmAdd i ok =>
    match s.rewarms i with
    | some ⟨ids, .add⟩ => some (s.rewarmAdd i ⟨ids, .add⟩ ok)
    | _ => none
  | .reply i =>
    -- the caller may have given up
    match s.rewarms i, s.readers i with
    | some ⟨ids, .reply⟩, some ⟨owed, .fetch⟩ =>
      some ({ s with rewarms := Function.update s.rewarms i none }.moveReader i ⟨owed, .fetch⟩
        (.store ids))
    | some ⟨_, .reply⟩, none => some { s with rewarms := Function.update s.rewarms i none }
    | _, _ => none
  | .store i ok =>
    match s.readers i with
    | some ⟨owed, .store ids⟩ => some (s.store i ⟨owed, .store ids⟩ ids ok)
    | _ => none
  | .abort i =>
    match s.readers i with
    | some _ => some { s with readers := Function.update s.readers i none }
    | none => none

/-! ## The condition on a step -/

/-- What a call that ends does to the set loses no indexed policy. -/
def State.keepsIndex (s : State) (task : Task) (payloadStored ok : Bool) : Bool :=
  match ok, task.command payloadStored with
  | true, .sadd id => s.redis.index ≠ [] || s.indexed.all (· = id)
  | true, .srem id =>
    id ∉ s.indexedAfter task || (!s.redis.built && s.redis.index.all (· = id))
  | false, _ =>
    task.id ∉ s.indexedAfter task || task.id ∈ s.redis.index ||
      (s.redis.index = [] && !s.redis.built)

def allowed (s : State) : Action → Bool
  | .finish t payloadStored ok =>
    match s.tasks t with
    | some task => s.keepsIndex task payloadStored ok
    | none => true
  -- the set does not go before the sentinel does
  | .expireIndex => !s.redis.built || s.indexed = []
  -- no other reader has built the index since this one found it absent
  | .sentinel _ _ => !s.redis.built || s.redis.index = [] || s.indexed = []
  -- a rebuild leaves inactive policies out
  | .fetch i =>
    match s.readers i with
    | some r => r.owed.all fun p => (s.policies.get? p).all Flags.isActive
    | none => true
  | .rewarmDelete _ ok => !ok || !s.redis.built || s.indexed = []
  -- no policy was indexed since the ids were loaded
  | .rewarmAdd i ok =>
    match s.rewarms i with
    | some w => !ok || s.redis.index ≠ [] || s.indexed.all (· ∈ w.ids)
    | none => true
  | .store i ok =>
    match s.readers i with
    | some ⟨_, .store ids⟩ =>
      !ok || s.indexed.all (· ∈ ids) || (ids = [] && s.redis.index ≠ [])
    | _ => true
  | _ => true

/-! ## The invariant -/

/-- What a reader takes from Redis has the policies `indexed`. -/
structure Faithful (r : Redis) (indexed : List Int) : Prop where
  complete : r.index ≠ [] → ∀ p ∈ indexed, p ∈ r.index
  empty : r.index = [] → r.built = true → indexed = []

namespace Faithful

variable {r : Redis} {indexed : List Int}

theorem mono {indexed' : List Int} (h : Faithful r indexed) (hsub : indexed' ⊆ indexed) :
    Faithful r indexed' := by
  constructor
  · intro hne p hp
    exact h.complete hne p (hsub hp)
  · intro hempty hbuilt
    have hnil := h.empty hempty hbuilt
    subst hnil
    exact List.subset_nil.mp hsub

theorem insert {id : Int} (h : Faithful r indexed)
    (hid : id ∈ r.index ∨ r.index = [] ∧ r.built = false) :
    Faithful r (indexed.insert id) := by
  constructor
  · intro hne p hp
    rcases List.mem_insert_iff.mp hp with rfl | hp
    · exact hid.resolve_right fun hnil => hne hnil.1
    · exact h.complete hne p hp
  · intro hempty hbuilt
    rcases hid with hmem | hnil
    · rw [hempty] at hmem
      exact absurd hmem List.not_mem_nil
    · rw [hnil.2] at hbuilt
      exact absurd hbuilt (by decide)

/-- A call indexes its policy. -/
theorem indexedAfter {s : State} {task : Task} (h : Faithful r s.indexed)
    (htask : task.id ∈ s.indexedAfter task →
      task.id ∈ r.index ∨ r.index = [] ∧ r.built = false) :
    Faithful r (s.indexedAfter task) := by
  unfold State.indexedAfter at htask ⊢
  split
  · rename_i hindexes
    refine h.insert (htask ?_)
    rw [if_pos hindexes]
    exact List.mem_insert_self
  · exact h

theorem sadd {ids : List Int} (h : Faithful r indexed) (hids : r.index ≠ [] ∨ indexed ⊆ ids) :
    Faithful (r.sadd ids) indexed := by
  constructor
  · intro _ p hp
    refine List.mem_union_iff.mpr ?_
    rcases hids with hne | hsub
    · exact .inl (h.complete hne p hp)
    · exact .inr (hsub hp)
  · intro hempty hbuilt
    refine h.empty (List.eq_nil_iff_forall_not_mem.mpr fun p hp => ?_) hbuilt
    have hmem : p ∈ (r.sadd ids).index := List.mem_union_iff.mpr (.inl hp)
    rw [hempty] at hmem
    exact List.not_mem_nil hmem

theorem srem {id : Int} (h : Faithful r indexed)
    (hid : id ∉ indexed ∨ r.built = false ∧ ∀ p ∈ r.index, p = id) :
    Faithful (r.srem id) indexed := by
  rcases hid with hnot | ⟨hbuilt, honly⟩
  · have hkept : ∀ p ∈ indexed, p ∈ r.index → p ∈ (r.srem id).index := by
      intro p hp hmem
      refine List.mem_filter.mpr ⟨hmem, decide_eq_true ?_⟩
      rintro rfl
      exact hnot hp
    constructor
    · intro hne p hp
      refine hkept p hp (h.complete ?_ p hp)
      intro hnil
      exact hne (by rw [Redis.srem, hnil]; rfl)
    · intro hempty hbuilt
      by_cases hnil : r.index = []
      · exact h.empty hnil hbuilt
      · refine List.eq_nil_iff_forall_not_mem.mpr fun p hp => ?_
        have hmem := hkept p hp (h.complete hnil p hp)
        rw [hempty] at hmem
        exact List.not_mem_nil hmem
  · constructor
    · intro hne
      exact absurd (Redis.srem_index_eq_nil honly) hne
    · intro _ hb
      exact absurd (hb.symm.trans hbuilt) (by decide)

theorem dropIndex (h : r.built = false ∨ indexed = []) : Faithful r.dropIndex indexed := by
  constructor
  · intro hne
    exact absurd rfl hne
  · intro _ hbuilt
    refine h.resolve_left fun hfalse => ?_
    exact absurd (hbuilt.symm.trans hfalse) (by decide)

theorem dropSentinel (h : Faithful r indexed) : Faithful r.dropSentinel indexed :=
  ⟨h.complete, fun _ hbuilt => absurd hbuilt (by simp [Redis.dropSentinel])⟩

theorem rebuild {ids : List Int} (h : Faithful r indexed)
    (hids : indexed ⊆ ids ∨ ids = [] ∧ r.index ≠ []) : Faithful (r.rebuild ids) indexed := by
  unfold Redis.rebuild
  split
  · rename_i hnil
    subst hnil
    refine ⟨h.complete, fun hempty _ => ?_⟩
    rcases hids with hsub | ⟨-, hne⟩
    · exact List.subset_nil.mp hsub
    · exact absurd hempty hne
  · rename_i hne
    refine ⟨fun _ p hp => ?_, fun hempty => absurd hempty hne⟩
    exact (hids.resolve_right fun hnil => hne hnil.1) hp

end Faithful

/-- What a reader owes is indexed, and in the ids that platform-core gave it. -/
structure Reader.Sound (indexed : List Int) (w : Option Rewarm) (r : Reader) : Prop where
  indexed : r.owed ⊆ indexed
  loaded : ∀ v, w = some v → r.owed ⊆ v.ids
  stored : ∀ ids, r.phase = .store ids → r.owed ⊆ ids

structure Sound (s : State) : Prop where
  redis : Faithful s.redis s.indexed
  isGlobal : ∀ p ∈ s.indexed, s.isGlobal p = true
  readers : ∀ i r, s.readers i = some r → r.Sound s.indexed (s.rewarms i)
  answers : ∀ a ∈ s.answers, a.owed ⊆ a.ids

theorem sound_fresh (policies : Dict Int Flags) : Sound (State.fresh policies) where
  redis := ⟨fun h => absurd rfl h, fun _ _ => rfl⟩
  isGlobal _ hp := absurd hp List.not_mem_nil
  readers i r hr := absurd hr (by simp [State.fresh])
  answers _ ha := absurd ha List.not_mem_nil

namespace Sound

variable {s : State} {i : Nat} {r : Reader}

theorem withTasks (h : Sound s) (tasks : Nat → Option Task) : Sound { s with tasks := tasks } :=
  ⟨h.redis, h.isGlobal, h.readers, h.answers⟩

theorem withRedis {redis : Redis} (h : Sound s) (hredis : Faithful redis s.indexed) :
    Sound { s with redis := redis } :=
  ⟨hredis, h.isGlobal, h.readers, h.answers⟩

/-- One reader moves, begins or ends. -/
theorem withReader {r' : Option Reader} (h : Sound s)
    (hr : ∀ r, r' = some r → r.Sound s.indexed (s.rewarms i)) :
    Sound { s with readers := Function.update s.readers i r' } := by
  refine ⟨h.redis, h.isGlobal, fun j v hv => ?_, h.answers⟩
  by_cases hj : j = i
  · subst hj
    exact hr v (by simpa using hv)
  · exact h.readers j v (by simpa [hj] using hv)

theorem moveReader {phase : Phase} (h : Sound s) (hr : s.readers i = some r)
    (hphase : ∀ ids, phase = .store ids → r.owed ⊆ ids) : Sound (s.moveReader i r phase) := by
  refine h.withReader fun v hv => ?_
  obtain rfl := Option.some.inj hv
  exact ⟨(h.readers i r hr).indexed, (h.readers i r hr).loaded, hphase⟩

theorem answer {ids : List Int} (h : Sound s) (hids : r.owed ⊆ ids) :
    Sound (s.answer i r ids) := by
  have hrest : Sound { s with readers := Function.update s.readers i none } :=
    h.withReader fun _ hv => absurd hv (by simp)
  refine ⟨hrest.redis, hrest.isGlobal, hrest.readers, fun a ha => ?_⟩
  rcases List.mem_append.mp ha with ha | ha
  · exact h.answers a ha
  · rw [List.mem_singleton.mp ha]
    exact hids

/-- One request of platform-core moves, begins or ends. -/
theorem withRewarm {w : Option Rewarm} (h : Sound s)
    (hw : ∀ v r, w = some v → s.readers i = some r → r.owed ⊆ v.ids) :
    Sound { s with rewarms := Function.update s.rewarms i w } := by
  refine ⟨h.redis, h.isGlobal, fun j r hr => ?_, h.answers⟩
  have hread := h.readers j r hr
  by_cases hj : j = i
  · subst hj
    refine ⟨hread.indexed, fun v hv => hw v r (by simpa using hv) hr, hread.stored⟩
  · refine ⟨hread.indexed, fun v hv => hread.loaded v (by simpa [hj] using hv), hread.stored⟩

theorem moveRewarm {w : Rewarm} (h : Sound s) (hw : s.rewarms i = some w)
    (phase : RewarmPhase) : Sound (s.moveRewarm i w phase) := by
  refine h.withRewarm fun v r hv hr => ?_
  obtain rfl := Option.some.inj hv
  exact (h.readers i r hr).loaded w hw

/-- A policy that is not global any more is owed by nobody. -/
theorem forget {policies : Dict Int Flags} {id : Int} (h : Sound s)
    (hpolicies : ∀ p, p ≠ id → policies.get? p = s.policies.get? p)
    (tasks : Nat → Option Task) :
    Sound ({ s with policies := policies, tasks := tasks }.forget id) where
  redis := h.redis.mono (List.filter_subset_self _)
  isGlobal p hp := by
    obtain ⟨hmem, hne⟩ := List.mem_filter.mp hp
    have hglobal := h.isGlobal p hmem
    unfold State.isGlobal at hglobal ⊢
    show (policies.get? p).any Flags.isGlobal = true
    rwa [hpolicies p (by simpa using hne)]
  readers i r hr := by
    obtain ⟨v, hv, rfl⟩ := Option.map_eq_some_iff.mp hr
    have hread := h.readers i v hv
    refine ⟨?_, ?_, ?_⟩
    · exact List.filter_subset _ hread.indexed
    · intro w hw
      exact List.Subset.trans (List.filter_subset_self _) (hread.loaded w hw)
    · intro ids hids
      exact List.Subset.trans (List.filter_subset_self _) (hread.stored ids hids)
  answers := h.answers

theorem commit (h : Sound s) (t : Nat) (id : Int) (row : Option Flags) :
    Sound (s.commit t id row) := by
  unfold State.commit
  cases row with
  | none =>
    exact h.forget (fun p hp => Dict.get?_erase_of_ne s.policies hp) _
  | some row =>
    have hother : ∀ p, p ≠ id → (s.policies.set id row).get? p = s.policies.get? p := by
      intro p hp
      rw [Dict.get?_set, if_neg hp]
    cases hglobal : row.isGlobal with
    | false =>
      simp only [Option.any_some, hglobal, Bool.false_eq_true, if_false]
      exact h.forget hother _
    | true =>
      simp only [Option.any_some, hglobal, if_true]
      refine ⟨h.redis, fun p hp => ?_, h.readers, h.answers⟩
      show ((s.policies.set id row).get? p).any Flags.isGlobal = true
      by_cases hp' : p = id
      · subst hp'
        rw [Dict.get?_set, if_pos rfl]
        exact hglobal
      · rw [hother p hp']
        exact h.isGlobal p hp

/-- Redis after a call that ends, for the policies indexed by then. -/
theorem keepsIndex {task : Task} {payloadStored ok : Bool} (h : Sound s)
    (hkeeps : s.keepsIndex task payloadStored ok = true) :
    Faithful (if ok then (task.command payloadStored).run s.redis else s.redis)
      (s.indexedAfter task) := by
  unfold State.keepsIndex at hkeeps
  cases ok with
  | false =>
    refine h.redis.indexedAfter fun hmem => ?_
    simpa [hmem] using hkeeps
  | true =>
    have hid := task.command_id payloadStored
    cases hcommand : task.command payloadStored with
    | sadd id =>
      rw [hcommand] at hkeeps hid
      have hadded : Faithful (s.redis.sadd [id]) s.indexed := by
        refine h.redis.sadd ?_
        rcases Bool.or_eq_true_iff.mp hkeeps with hne | hall
        · exact .inl (by simpa using hne)
        · refine .inr fun p hp => ?_
          simpa using List.all_eq_true.mp hall p hp
      refine hadded.indexedAfter fun _ => .inl ?_
      rw [← hid]
      exact List.mem_union_iff.mpr (.inr (List.mem_singleton.mpr rfl))
    | srem id =>
      rw [hcommand] at hkeeps hid
      have hcond : id ∉ s.indexedAfter task ∨
          s.redis.built = false ∧ ∀ p ∈ s.redis.index, p = id := by
        simpa using hkeeps
      refine Faithful.indexedAfter (h.redis.srem ?_) fun hmem => ?_
      · exact hcond.imp_left fun hnot hmem => hnot (s.subset_indexedAfter task hmem)
      · rw [← hid] at hmem
        obtain ⟨hbuilt, honly⟩ := hcond.resolve_left fun hnot => hnot hmem
        exact .inr ⟨Redis.srem_index_eq_nil honly, hbuilt⟩

theorem finish {task : Task} {payloadStored ok : Bool} (h : Sound s) (t : Nat)
    (hkeeps : s.keepsIndex task payloadStored ok = true) :
    Sound (s.finish t task payloadStored ok) where
  redis := h.keepsIndex hkeeps
  isGlobal p hp := by
    rcases s.mem_indexedAfter hp with hp | hp
    · exact h.isGlobal p hp
    · exact hp
  readers i r hr := by
    have hread := h.readers i r hr
    exact ⟨List.Subset.trans hread.indexed (s.subset_indexedAfter task), hread.loaded, hread.stored⟩
  answers := h.answers

theorem smembers {ok : Bool} (h : Sound s) (hr : s.readers i = some r) :
    Sound (s.smembers i r ok) := by
  unfold State.smembers
  split
  · split
    · exact h.moveReader hr fun _ hphase => Phase.noConfusion hphase
    · rename_i hne
      exact h.answer fun p hp => h.redis.complete hne p ((h.readers i r hr).indexed hp)
  · exact h.moveReader hr fun _ hphase => Phase.noConfusion hphase

theorem sentinel {ok : Bool} (h : Sound s) (hr : s.readers i = some r)
    (hallowed : s.redis.built = false ∨ s.redis.index = [] ∨ s.indexed = []) :
    Sound (s.sentinel i r ok) := by
  unfold State.sentinel
  split
  · rename_i hbuilt
    have hbuilt : s.redis.built = true := (Bool.and_eq_true_iff.mp hbuilt).2
    have hnil : s.indexed = [] := by
      rcases hallowed with hfalse | hempty | hnil
      · exact absurd (hbuilt.symm.trans hfalse) (by decide)
      · exact h.redis.empty hempty hbuilt
      · exact hnil
    exact h.answer (hnil ▸ (h.readers i r hr).indexed)
  · exact h.moveReader hr fun _ hphase => Phase.noConfusion hphase

/-- The ids that platform-core loads have every active policy that a reader owes. -/
theorem owed_subset_getGlobalActive (h : Sound s) (hr : s.readers i = some r)
    (hactive : ∀ p ∈ r.owed, (s.policies.get? p).all Flags.isActive = true) :
    r.owed ⊆ s.getGlobalActive := by
  intro p hp
  have hglobal := h.isGlobal p ((h.readers i r hr).indexed hp)
  obtain ⟨row, hrow, hrowGlobal⟩ := (Option.any_eq_true _ _).mp hglobal
  have hrowActive : row.isActive = true := by simpa [hrow] using hactive p hp
  refine List.mem_map.mpr ⟨(p, row), List.mem_filter.mpr ⟨Dict.mem_of_get? hrow, ?_⟩, rfl⟩
  exact Bool.and_eq_true_iff.mpr ⟨hrowGlobal, hrowActive⟩

theorem rewarmDelete {w : Rewarm} {ok : Bool} (h : Sound s) (hw : s.rewarms i = some w)
    (hallowed : ok = true → s.redis.built = false ∨ s.indexed = []) :
    Sound (s.rewarmDelete i w ok) := by
  unfold State.rewarmDelete
  split
  · rename_i hok
    exact (h.withRedis (Faithful.dropIndex (hallowed hok))).moveRewarm hw _
  · exact h.moveRewarm hw _

theorem rewarmAdd {w : Rewarm} {ok : Bool} (h : Sound s) (hw : s.rewarms i = some w)
    (hallowed : ok = true → s.redis.index ≠ [] ∨ s.indexed ⊆ w.ids) :
    Sound (s.rewarmAdd i w ok) := by
  have hredis : Faithful (if ok then s.redis.sadd w.ids else s.redis) s.indexed := by
    split
    · rename_i hok
      exact h.redis.sadd (hallowed hok)
    · exact h.redis
  exact (h.withRedis hredis).moveRewarm hw _

theorem store {ids : List Int} {ok : Bool} (h : Sound s) (hr : s.readers i = some r)
    (hphase : r.phase = .store ids)
    (hallowed : ok = true → s.indexed ⊆ ids ∨ ids = [] ∧ s.redis.index ≠ []) :
    Sound (s.store i r ids ok) := by
  have hredis : Faithful (if ok then s.redis.rebuild ids else s.redis) s.indexed := by
    split
    · rename_i hok
      exact h.redis.rebuild (hallowed hok)
    · exact h.redis
  exact (h.withRedis hredis).answer ((h.readers i r hr).stored ids hphase)

end Sound

/-! ## The runs -/

theorem step_sound {s s' : State} {a : Action} (h : Sound s) (hallowed : allowed s a = true)
    (hstep : step s a = some s') : Sound s' := by
  cases a with
  | commit t id row =>
    simp only [step] at hstep
    split at hstep
    · obtain rfl := Option.some.inj hstep
      exact h.commit t id row
    · cases hstep
  | load t id =>
    simp only [step] at hstep
    split at hstep
    · obtain rfl := Option.some.inj hstep
      exact h.withTasks _
    · cases hstep
  | finish t payloadStored ok =>
    simp only [step] at hstep
    split at hstep
    · rename_i task htask
      obtain rfl := Option.some.inj hstep
      refine h.finish t ?_
      simpa [allowed, htask] using hallowed
    · cases hstep
  | expireIndex =>
    obtain rfl := Option.some.inj hstep
    refine h.withRedis (Faithful.dropIndex ?_)
    simpa [allowed] using hallowed
  | expireSentinel =>
    obtain rfl := Option.some.inj hstep
    exact h.withRedis h.redis.dropSentinel
  | begin i =>
    simp only [step] at hstep
    split at hstep
    · rename_i hrewarm
      obtain rfl := Option.some.inj hstep
      refine h.withReader fun r hr => ?_
      obtain rfl := Option.some.inj hr
      refine ⟨List.Subset.refl _, fun v hv => ?_, fun _ hphase => Phase.noConfusion hphase⟩
      rw [hrewarm] at hv
      cases hv
    · cases hstep
  | smembers i ok =>
    simp only [step] at hstep
    split at hstep
    · rename_i owed hr
      obtain rfl := Option.some.inj hstep
      exact h.smembers hr
    · cases hstep
  | sentinel i ok =>
    simp only [step] at hstep
    split at hstep
    · rename_i owed hr
      obtain rfl := Option.some.inj hstep
      refine h.sentinel hr ?_
      simpa [allowed, or_assoc] using hallowed
    · cases hstep
  | fetch i =>
    simp only [step] at hstep
    split at hstep
    · rename_i owed hr hw
      obtain rfl := Option.some.inj hstep
      refine h.withRewarm fun v r hv hr' => ?_
      obtain rfl := Option.some.inj hv
      refine h.owed_subset_getGlobalActive hr' fun p hp => ?_
      simp only [allowed, hr'] at hallowed
      exact List.all_eq_true.mp hallowed p hp
    · cases hstep
  | rewarmDelete i ok =>
    simp only [step] at hstep
    split at hstep
    · rename_i ids hw
      obtain rfl := Option.some.inj hstep
      refine h.rewarmDelete hw fun hok => ?_
      simpa [allowed, hok] using hallowed
    · cases hstep
  | rewarmAdd i ok =>
    simp only [step] at hstep
    split at hstep
    · rename_i ids hw
      obtain rfl := Option.some.inj hstep
      refine h.rewarmAdd hw fun hok => ?_
      simpa [allowed, hok, hw, List.subset_def] using hallowed
    · cases hstep
  | reply i =>
    simp only [step] at hstep
    split at hstep
    · rename_i ids owed hw hr
      obtain rfl := Option.some.inj hstep
      have hcleared := h.withRewarm (i := i) (w := none) fun v r hv => absurd hv (by simp)
      refine hcleared.moveReader hr fun ids' hids => ?_
      obtain rfl := Phase.store.inj hids
      exact (h.readers i _ hr).loaded _ hw
    · obtain rfl := Option.some.inj hstep
      exact h.withRewarm fun v r hv => absurd hv (by simp)
    · cases hstep
  | store i ok =>
    simp only [step] at hstep
    split at hstep
    · rename_i owed ids hr
      obtain rfl := Option.some.inj hstep
      refine h.store hr rfl fun hok => ?_
      simpa [allowed, hok, hr, List.subset_def] using hallowed
    · cases hstep
  | abort i =>
    simp only [step] at hstep
    split at hstep
    · obtain rfl := Option.some.inj hstep
      exact h.withReader fun _ hv => absurd hv (by simp)
    · cases hstep

/-- In every run whose commands leave no set incomplete, every list that a reader returned has
the policies it owed: indexed before the call began, and global ever since. -/
theorem global_policies_returned {policies : Dict Int Flags} {as : List Action} {s : State}
    (hrun : Run step (State.fresh policies) as s)
    (hallowed : Guarded step (fun s a => allowed s a = true) (State.fresh policies) as) :
    ∀ answer ∈ s.answers, ∀ p ∈ answer.owed, p ∈ answer.ids := by
  have hsound : Sound s :=
    hrun.guardedInvariant (fun _ _ _ h hallowed hstep => step_sound h hallowed hstep) hallowed
      (sound_fresh policies)
  intro answer hanswer p hp
  exact hsound.answers answer hanswer hp

/-- Two policies are indexed and read, the set is evicted, and the next reader rebuilds it. -/
def rebuildRun : List Action :=
  [.commit 0 1 (some ⟨true, true⟩), .finish 0 true true, .commit 0 2 (some ⟨true, true⟩),
    .finish 0 true true, .begin 0, .smembers 0 true, .expireIndex, .begin 0, .smembers 0 true,
    .sentinel 0 true, .fetch 0, .rewarmDelete 0 true, .rewarmAdd 0 true, .reply 0, .store 0 true]

theorem global_policies_returned_rebuilt : ∃ s, Run step (State.fresh []) rebuildRun s ∧
    s.answers = [⟨[2, 1], [1, 2]⟩, ⟨[2, 1], [1, 2]⟩] ∧
    ∀ answer ∈ s.answers, ∀ p ∈ answer.owed, p ∈ answer.ids := by
  obtain ⟨s, hrun, hanswers⟩ := exists_run_of_map step (State.fresh []) rebuildRun State.answers
    (x := [⟨[2, 1], [1, 2]⟩, ⟨[2, 1], [1, 2]⟩]) (by decide +kernel)
  refine ⟨s, hrun, hanswers, global_policies_returned hrun ?_⟩
  exact guarded_of_check (fun _ _ h => h) (by decide +kernel)

/-- The set with policy 1 is evicted, and caching policy 2 makes a set without policy 1. -/
theorem partial_set_taken_as_complete : ∃ s, Run step (State.fresh [])
      [.commit 0 1 (some ⟨true, true⟩), .finish 0 true true, .expireIndex,
        .commit 0 2 (some ⟨true, true⟩), .finish 0 true true, .begin 0, .smembers 0 true] s ∧
    s.policies.get? 1 = some ⟨true, true⟩ ∧
    ¬ ∀ answer ∈ s.answers, ∀ p ∈ answer.owed, p ∈ answer.ids := by
  obtain ⟨s, hrun, hend⟩ := exists_run_of_map step (State.fresh [])
    [.commit 0 1 (some ⟨true, true⟩), .finish 0 true true, .expireIndex,
      .commit 0 2 (some ⟨true, true⟩), .finish 0 true true, .begin 0, .smembers 0 true]
    (fun s => (s.policies.get? 1, s.answers))
    (x := (some ⟨true, true⟩, [⟨[2, 1], [2]⟩])) (by decide +kernel)
  obtain ⟨hpolicy, hanswers⟩ := Prod.mk.inj hend
  refine ⟨s, hrun, hpolicy, fun hall => ?_⟩
  have hmem : (1 : Int) ∈ [(2 : Int)] := hall ⟨[2, 1], [2]⟩ (by simp [hanswers]) 1 (by simp)
  exact absurd hmem (by decide)

end Ai4iCore.Guardrail.GlobalIndex
