import Ai4iCore.Base.Run

/-!
# The fetch loop of the pay-per-use consumer

`run` (main.py) over `ManagedConsumer` (bootstrap/consumers.py), as a group of members of
one consumer group that share a topic. A member fetches a chunk inside `consume()`, where
the rebalance callbacks run as well, and then goes through it: the fence (`owns`), the
classification (`_usable`), the chunk deadline, the handler, `store_offsets`, `commit`.
The broker knows who owns a partition and which offset is committed; a member that lost a
partition without a callback still believes it has it, and its commits are rejected.

The deadline abandons the rest of a chunk, "so the next fetch returns it". It does not:
`consume()` has moved the position past every message it returned, and only an assignment
moves it back. `abandoned` records the partitions this happened to, and the main result
holds for the runs that fetch nothing more from such a partition before it is assigned
again.
-/

namespace Ai4iCore.Billing.Loop

open StepSystem

structure Message where
  partition : Nat
  offset : Nat
  deriving DecidableEq, Repr

/-- An entry of a chunk: a message, or an error entry that `_usable` turns down. -/
inductive Entry
  | message (m : Message)
  | error
  deriving DecidableEq, Repr

/-- Where a member stands. -/
inductive Phase
  /-- inside `consume()`, or about to call it -/
  | polling
  /-- in the loop over the chunk -/
  | looping
  /-- the handler has returned; `store_processed` is next -/
  | storing (m : Message)
  /-- `commit_stored` is next -/
  | committing
  deriving DecidableEq, Repr

/-- A consumer process. -/
structure Member where
  /-- `_assigned` -/
  assigned : Nat → Bool
  /-- the next offset `consume()` returns -/
  position : Nat → Nat
  /-- what `store_offsets` has recorded -/
  stored : Nat → Option Nat
  chunk : List Entry
  phase : Phase
  /-- ghost: the deadline dropped messages of the partition since it was assigned -/
  abandoned : Nat → Bool

/-- A member that has just started. -/
def Member.fresh : Member where
  assigned _ := false
  position _ := 0
  stored _ := none
  chunk := []
  phase := .polling
  abandoned _ := false

/-- The members, the broker and the topic. -/
structure Group where
  member : Nat → Member
  /-- the member the broker has given a partition to -/
  owner : Nat → Option Nat
  committed : Nat → Nat
  /-- the offset after the last message of a partition -/
  ended : Nat → Nat
  /-- ghost: the messages the handler was passed to completion -/
  handled : List Message

inductive Action
  | publish (p : Nat)
  /-- `on_assign` -/
  | assign (i p : Nat)
  /-- `on_revoke` -/
  | revoke (i p : Nat)
  /-- the broker takes a partition away and the member does not know yet -/
  | expire (p : Nat)
  /-- `on_lost` -/
  | lose (i p : Nat)
  /-- `consume()` takes one more entry into the chunk -/
  | fetch (i p : Nat)
  | fetchError (i : Nat)
  /-- `consume()` returns -/
  | returned (i : Nat)
  /-- one round of the loop, up to the return of `_handle_with_retry` -/
  | next (i : Nat) (late : Bool)
  | store (i : Nat)
  | commit (i : Nat)
  /-- `commit_stored` absorbs `_ASSIGNMENT_LOST` -/
  | rejected (i : Nat)
  /-- the process ends, by an exception or by a shutdown, and starts again -/
  | restart (i : Nat)
  deriving DecidableEq, Repr

def Group.setMember (g : Group) (i : Nat) (m : Member) : Group :=
  { g with member := Function.update g.member i m }

/-- `_drop` and `incremental_unassign`. -/
def Member.drop (m : Member) (p : Nat) : Member :=
  { m with
    assigned := Function.update m.assigned p false
    stored := Function.update m.stored p none }

/-- `on_assign`: the partition is read from its committed offset on. -/
def Member.assign (m : Member) (p committed : Nat) : Member :=
  { m with
    assigned := Function.update m.assigned p true
    position := Function.update m.position p committed
    stored := Function.update m.stored p none
    abandoned := Function.update m.abandoned p false }

/-- `consume()` returns the message at the position and moves past it. -/
def Member.fetch (m : Member) (p : Nat) : Member :=
  { m with
    position := Function.update m.position p (m.position p + 1)
    chunk := m.chunk ++ [.message ⟨p, m.position p⟩] }

/-- The chunk has a message of the partition. -/
def holds (chunk : List Entry) (p : Nat) : Bool :=
  chunk.any fun
    | .message msg => msg.partition = p
    | .error => false

/-- One round of the loop: the member, and the message the handler was given. -/
def Member.next (m : Member) (late : Bool) : Member × Option Message :=
  match m.chunk with
  | [] => ({ m with phase := .polling }, none)
  | .error :: rest => ({ m with chunk := rest }, none)
  | .message msg :: rest =>
    if !m.assigned msg.partition then ({ m with chunk := rest }, none)
    else if late then
      -- the tail is dropped and the position stays where it is
      ({ m with
          chunk := [], phase := .polling
          abandoned := fun p => m.abandoned p || holds m.chunk p }, none)
    else ({ m with chunk := rest, phase := .storing msg }, some msg)

/-- A commit by member `i` of everything it has stored. -/
def Group.commitBy (g : Group) (i : Nat) : Group :=
  { g with committed := fun p =>
      if g.owner p = some i then ((g.member i).stored p).getD (g.committed p)
      else g.committed p }

/-- One step of the group. -/
def step (g : Group) : Action → Option Group
  | .publish p => some { g with ended := Function.update g.ended p (g.ended p + 1) }
  | .assign i p =>
    if g.owner p = none ∧ (g.member i).phase = .polling ∧ (g.member i).assigned p = false then
      some ({ g with owner := Function.update g.owner p (some i) }.setMember i
        ((g.member i).assign p (g.committed p)))
    else none
  | .revoke i p =>
    if g.owner p = some i ∧ (g.member i).phase = .polling then
      some ({ g with owner := Function.update g.owner p none }.setMember i ((g.member i).drop p))
    else none
  | .expire p => some { g with owner := Function.update g.owner p none }
  | .lose i p =>
    if g.owner p ≠ some i ∧ (g.member i).phase = .polling then
      some (g.setMember i ((g.member i).drop p))
    else none
  | .fetch i p =>
    if (g.member i).phase = .polling ∧ (g.member i).assigned p = true ∧
        (g.member i).position p < g.ended p then
      some (g.setMember i ((g.member i).fetch p))
    else none
  | .fetchError i =>
    if (g.member i).phase = .polling then
      some (g.setMember i { g.member i with chunk := (g.member i).chunk ++ [.error] })
    else none
  | .returned i =>
    if (g.member i).phase = .polling then
      some (g.setMember i { g.member i with phase := .looping })
    else none
  | .next i late =>
    if (g.member i).phase = .looping then
      some ({ g with handled := ((g.member i).next late).2.toList ++ g.handled }.setMember i
        ((g.member i).next late).1)
    else none
  | .store i =>
    match (g.member i).phase with
    | .storing msg =>
      some (g.setMember i { g.member i with
        stored := Function.update (g.member i).stored msg.partition (some (msg.offset + 1))
        phase := .committing })
    | _ => none
  | .commit i =>
    if (g.member i).phase = .committing then
      some ((g.commitBy i).setMember i { g.member i with phase := .looping })
    else none
  | .rejected i =>
    if (g.member i).phase = .committing then
      some (g.setMember i { g.member i with phase := .looping })
    else none
  | .restart i =>
    some ({ g with owner := fun p => if g.owner p = some i then none else g.owner p }.setMember i
      .fresh)

/-! ## The invariant -/

/-- Everything of partition `p` from the group's starting offset up to `n` was handled, or is
among `pending`. -/
def CoveredBelow (start : Nat → Nat) (handled : List Message) (pending : List Entry)
    (p n : Nat) : Prop :=
  ∀ o, start p ≤ o → o < n → ⟨p, o⟩ ∈ handled ∨ .message ⟨p, o⟩ ∈ pending

theorem CoveredBelow.mono {start : Nat → Nat} {handled handled' : List Message}
    {pending pending' : List Entry} {p n : Nat} (h : CoveredBelow start handled pending p n)
    (hhandled : ∀ msg ∈ handled, msg ∈ handled') (hpending : ∀ e ∈ pending, e ∈ pending') :
    CoveredBelow start handled' pending' p n :=
  fun o hstart hlt => (h o hstart hlt).imp (hhandled _) (hpending _)

/-- The first entry of `pending` was handled. -/
theorem CoveredBelow.head {start : Nat → Nat} {handled : List Message} {msg : Message}
    {pending : List Entry} {p n : Nat}
    (h : CoveredBelow start handled (.message msg :: pending) p n) :
    CoveredBelow start (msg :: handled) pending p n := by
  intro o hstart hlt
  obtain hdone | hmem := h o hstart hlt
  · exact .inl (List.mem_cons_of_mem _ hdone)
  · obtain hhead | htail := List.mem_cons.mp hmem
    · cases hhead
      exact .inl List.mem_cons_self
    · exact .inr htail

/-- The first entry of `pending` is not of the partition. -/
theorem CoveredBelow.skip {start : Nat → Nat} {handled : List Message} {e : Entry}
    {pending : List Entry} {p n : Nat} (h : CoveredBelow start handled (e :: pending) p n)
    (he : ∀ o, e ≠ .message ⟨p, o⟩) : CoveredBelow start handled pending p n := by
  intro o hstart hlt
  refine (h o hstart hlt).imp id fun hmem => ?_
  obtain hhead | htail := List.mem_cons.mp hmem
  · exact absurd hhead.symm (he o)
  · exact htail

/-- What a member may rely on, for the partitions it will go on with. -/
structure Sound (start : Nat → Nat) (handled : List Message) (m : Member) : Prop where
  /-- what lies below a message of the chunk was handled or comes before it -/
  chunk : ∀ p, m.phase = .polling ∨ m.assigned p = true → ∀ pre o post,
    m.chunk = pre ++ .message ⟨p, o⟩ :: post → CoveredBelow start handled pre p o
  /-- what lies below the position was handled or is in the chunk -/
  position : ∀ p, m.assigned p = true → m.abandoned p = false →
    CoveredBelow start handled m.chunk p (m.position p)
  stored : ∀ p n, m.stored p = some n → CoveredBelow start handled [] p n
  storing : ∀ msg, m.phase = .storing msg →
    CoveredBelow start handled [] msg.partition (msg.offset + 1)

theorem Sound.mono {start : Nat → Nat} {handled handled' : List Message} {m : Member}
    (h : Sound start handled m) (hsub : ∀ msg ∈ handled, msg ∈ handled') :
    Sound start handled' m :=
  ⟨fun p hp pre o post heq => (h.chunk p hp pre o post heq).mono hsub fun _ he => he,
   fun p hp ha => (h.position p hp ha).mono hsub fun _ he => he,
   fun p n hn => (h.stored p n hn).mono hsub fun _ he => he,
   fun msg hmsg => (h.storing msg hmsg).mono hsub fun _ he => he⟩

structure NothingLost (start : Nat → Nat) (g : Group) : Prop where
  committed : ∀ p, CoveredBelow start g.handled [] p (g.committed p)
  members : ∀ i, Sound start g.handled (g.member i)

section Members

variable {start : Nat → Nat} {handled : List Message} {m : Member}

theorem sound_fresh : Sound start handled .fresh := by
  refine ⟨fun p _ pre o post heq => ?_, nofun, nofun, nofun⟩
  exact absurd heq (by simp [Member.fresh])

theorem sound_drop (h : Sound start handled m) (hphase : m.phase = .polling) (p : Nat) :
    Sound start handled (m.drop p) := by
  constructor
  · exact fun q _ => h.chunk q (.inl hphase)
  · intro q hq habandoned
    change Function.update m.assigned p false q = true at hq
    by_cases hqp : q = p
    · rw [hqp, Function.update_self] at hq
      cases hq
    · rw [Function.update_of_ne hqp] at hq
      exact h.position q hq habandoned
  · intro q n hn
    change Function.update m.stored p none q = some n at hn
    by_cases hqp : q = p
    · rw [hqp, Function.update_self] at hn
      cases hn
    · rw [Function.update_of_ne hqp] at hn
      exact h.stored q n hn
  · exact h.storing

theorem sound_assign (h : Sound start handled m) (hphase : m.phase = .polling) {p n : Nat}
    (hcommitted : CoveredBelow start handled [] p n) : Sound start handled (m.assign p n) := by
  constructor
  · exact fun q _ => h.chunk q (.inl hphase)
  · intro q hq habandoned
    change Function.update m.assigned p true q = true at hq
    change Function.update m.abandoned p false q = false at habandoned
    show CoveredBelow start handled m.chunk q (Function.update m.position p n q)
    by_cases hqp : q = p
    · rw [hqp, Function.update_self]
      exact hcommitted.mono (fun _ hmsg => hmsg) nofun
    · rw [Function.update_of_ne hqp] at hq habandoned ⊢
      exact h.position q hq habandoned
  · intro q k hk
    change Function.update m.stored p none q = some k at hk
    by_cases hqp : q = p
    · rw [hqp, Function.update_self] at hk
      cases hk
    · rw [Function.update_of_ne hqp] at hk
      exact h.stored q k hk
  · exact h.storing

/-- An entry at the end of the chunk. -/
theorem sound_append (h : Sound start handled m) (hphase : m.phase = .polling) {e : Entry}
    {position : Nat → Nat}
    (he : ∀ p o, e = .message ⟨p, o⟩ → CoveredBelow start handled m.chunk p o)
    (hposition : ∀ p, m.assigned p = true → m.abandoned p = false →
      CoveredBelow start handled (m.chunk ++ [e]) p (position p)) :
    Sound start handled { m with position, chunk := m.chunk ++ [e] } := by
  refine ⟨fun p _ pre o post heq => ?_, hposition, h.stored, h.storing⟩
  obtain rfl | ⟨post', last, rfl⟩ := List.eq_nil_or_concat post
  · obtain ⟨rfl, hlast⟩ := List.append_inj' heq rfl
    exact he p o (List.singleton_inj.mp hlast)
  · rw [List.concat_eq_append, ← List.cons_append, ← List.append_assoc] at heq
    obtain ⟨hchunk, -⟩ := List.append_inj' heq rfl
    exact h.chunk p (.inl hphase) pre o post' hchunk

theorem sound_fetch (h : Sound start handled m) (hphase : m.phase = .polling) {p : Nat}
    (hassigned : m.assigned p = true) (hcontiguous : m.abandoned p = false) :
    Sound start handled (m.fetch p) := by
  refine sound_append h hphase (fun q o heq => ?_) fun q hq habandoned => ?_
  · cases heq
    exact h.position p hassigned hcontiguous
  · by_cases hqp : q = p
    · subst hqp
      rw [Function.update_self]
      intro o hstart hlt
      obtain hlt | rfl := Nat.lt_succ_iff_lt_or_eq.mp hlt
      · exact (h.position q hassigned hcontiguous o hstart hlt).imp id
          (List.mem_append_left _)
      · exact .inr (List.mem_append_right _ (List.mem_singleton_self _))
    · rw [Function.update_of_ne hqp]
      exact (h.position q hq habandoned).mono (fun _ hmsg => hmsg)
        fun _ => List.mem_append_left _

/-- The head of the chunk is passed over; it is no message of an assigned partition. -/
theorem sound_skip (h : Sound start handled m) (hphase : m.phase = .looping) {e : Entry}
    {rest : List Entry} (hchunk : m.chunk = e :: rest)
    (he : ∀ p, m.assigned p = true → ∀ o, e ≠ .message ⟨p, o⟩) :
    Sound start handled { m with chunk := rest } := by
  refine ⟨fun p hp pre o post heq => ?_, fun p hp habandoned => ?_, h.stored, h.storing⟩
  · obtain hpolling | hassigned := hp
    · rw [hphase] at hpolling
      cases hpolling
    · have hcovered := h.chunk p (.inr hassigned) (e :: pre) o post
        (hchunk.trans (congrArg _ heq))
      exact hcovered.skip (he p hassigned)
  · have hcovered := h.position p hp habandoned
    rw [hchunk] at hcovered
    exact hcovered.skip (he p hp)

/-- The handler returns: the message and everything below it are handled. -/
theorem sound_handle (h : Sound start handled m) {msg : Message} {rest : List Entry}
    (hchunk : m.chunk = .message msg :: rest) (hassigned : m.assigned msg.partition = true) :
    Sound start (msg :: handled) { m with chunk := rest, phase := .storing msg } := by
  refine ⟨fun p hp pre o post heq => ?_, fun p hp habandoned => ?_, fun p n hn => ?_,
    fun msg' hmsg' => ?_⟩
  · obtain hpolling | hp := hp
    · cases hpolling
    · have hcovered := h.chunk p (.inr hp) (.message msg :: pre) o post
        (hchunk.trans (congrArg _ heq))
      exact hcovered.head
  · have hcovered := h.position p hp habandoned
    rw [hchunk] at hcovered
    exact hcovered.head
  · exact (h.stored p n hn).mono (fun _ => List.mem_cons_of_mem _) fun _ he => he
  · obtain rfl := Phase.storing.inj hmsg'
    have hbelow := h.chunk msg.partition (.inr hassigned) [] msg.offset rest hchunk
    intro o hstart hlt
    obtain hlt | rfl := Nat.lt_succ_iff_lt_or_eq.mp hlt
    · exact (hbelow o hstart hlt).imp (List.mem_cons_of_mem _) id
    · exact .inl List.mem_cons_self

/-- The deadline drops the chunk. -/
theorem sound_abandon (h : Sound start handled m) :
    Sound start handled { m with
      chunk := [], phase := .polling
      abandoned := fun p => m.abandoned p || holds m.chunk p } := by
  refine ⟨fun p _ pre o post heq => ?_, fun p hp habandoned => ?_, h.stored, nofun⟩
  · exact absurd heq (by simp)
  · obtain ⟨hnot, hnone⟩ := Bool.or_eq_false_iff.mp habandoned
    intro o hstart hlt
    refine (h.position p hp hnot o hstart hlt).imp id fun hmem => ?_
    have hyes : holds m.chunk p = true :=
      List.any_eq_true.mpr ⟨_, hmem, decide_eq_true rfl⟩
    rw [hnone] at hyes
    cases hyes

theorem sound_next (h : Sound start handled m) (hphase : m.phase = .looping) (late : Bool) :
    Sound start ((m.next late).2.toList ++ handled) (m.next late).1 := by
  unfold Member.next
  split
  · rename_i hchunk
    refine ⟨fun p _ pre o post heq => ?_, h.position, h.stored, nofun⟩
    change m.chunk = _ at heq
    rw [hchunk] at heq
    exact absurd heq (by simp)
  · rename_i rest hchunk
    exact sound_skip h hphase hchunk fun _ _ _ heq => (nomatch heq)
  · rename_i msg rest hchunk
    split
    · rename_i hfence
      refine sound_skip h hphase hchunk fun p hp o heq => ?_
      cases heq
      rw [hp] at hfence
      cases hfence
    · rename_i hfence
      split
      · exact sound_abandon h
      · exact sound_handle h hchunk (by simpa using hfence)

/-- A step that changes neither what a member holds nor what it has read. -/
theorem sound_phase (h : Sound start handled m) {phase : Phase}
    (hphase : phase = .polling → m.phase = .polling) (hstoring : ∀ msg, phase ≠ .storing msg) :
    Sound start handled { m with phase } := by
  refine ⟨fun p hp => h.chunk p (hp.imp hphase id), h.position, h.stored, fun msg hmsg => ?_⟩
  exact absurd hmsg (hstoring msg)

/-- `store_offsets` after the handler has returned. -/
theorem sound_store (h : Sound start handled m) {msg : Message} (hphase : m.phase = .storing msg) :
    Sound start handled { m with
      stored := Function.update m.stored msg.partition (some (msg.offset + 1))
      phase := .committing } := by
  refine ⟨fun p hp => ?_, h.position, fun p n hn => ?_, nofun⟩
  · obtain hpolling | hassigned := hp
    · cases hpolling
    · exact h.chunk p (.inr hassigned)
  · change Function.update m.stored msg.partition (some (msg.offset + 1)) p = some n at hn
    by_cases hpart : p = msg.partition
    · rw [hpart, Function.update_self] at hn
      obtain rfl := Option.some.inj hn
      rw [hpart]
      exact h.storing msg hphase
    · rw [Function.update_of_ne hpart] at hn
      exact h.stored p n hn

end Members

section Steps

variable {start : Nat → Nat} {g : Group}

/-- One member moves and the topic's ghost log may grow; the committed offsets stay covered. -/
theorem NothingLost.setMember (h : NothingLost start g) {i : Nat} {m : Member}
    {owner committed ended : Nat → _} {handled : List Message}
    (hsub : ∀ msg ∈ g.handled, msg ∈ handled)
    (hcommitted : ∀ p, CoveredBelow start handled [] p (committed p))
    (hm : Sound start handled m) :
    NothingLost start
      (Group.setMember { member := g.member, owner, committed, ended, handled } i m) := by
  refine ⟨hcommitted, fun j => ?_⟩
  show Sound start handled (Function.update g.member i m j)
  by_cases hj : j = i
  · rw [hj, Function.update_self]
    exact hm
  · rw [Function.update_of_ne hj]
    exact (h.members j).mono hsub

/-- A commit publishes only offsets that were stored. -/
theorem NothingLost.commitBy (h : NothingLost start g) (i p : Nat) :
    CoveredBelow start g.handled [] p ((g.commitBy i).committed p) := by
  show CoveredBelow start g.handled [] p
    (if g.owner p = some i then ((g.member i).stored p).getD (g.committed p)
      else g.committed p)
  split
  · cases hstored : (g.member i).stored p with
    | none => exact h.committed p
    | some n => exact (h.members i).stored p n hstored
  · exact h.committed p

/-- The condition of the main result: a partition of which a deadline has dropped messages is
not read on before it is assigned again. -/
def Contiguous (g : Group) : Action → Prop
  | .fetch i p => (g.member i).abandoned p = false
  | _ => True

instance (g : Group) (a : Action) : Decidable (Contiguous g a) := by
  cases a <;> unfold Contiguous <;> infer_instance

theorem nothingLost_step {g' : Group} {a : Action} (h : NothingLost start g)
    (hcontiguous : Contiguous g a) (hstep : step g a = some g') : NothingLost start g' := by
  have hsame : ∀ msg ∈ g.handled, msg ∈ g.handled := fun _ hmsg => hmsg
  cases a with
  | publish p =>
    cases hstep
    exact ⟨h.committed, h.members⟩
  | expire p =>
    cases hstep
    exact ⟨h.committed, h.members⟩
  | assign i p =>
    obtain ⟨⟨-, hphase, -⟩, ⟨⟩⟩ := Option.ite_none_right_eq_some.mp hstep
    exact h.setMember hsame h.committed (sound_assign (h.members i) hphase (h.committed p))
  | revoke i p =>
    obtain ⟨⟨-, hphase⟩, ⟨⟩⟩ := Option.ite_none_right_eq_some.mp hstep
    exact h.setMember hsame h.committed (sound_drop (h.members i) hphase p)
  | lose i p =>
    obtain ⟨⟨-, hphase⟩, ⟨⟩⟩ := Option.ite_none_right_eq_some.mp hstep
    exact h.setMember hsame h.committed (sound_drop (h.members i) hphase p)
  | fetch i p =>
    obtain ⟨⟨hphase, hassigned, -⟩, ⟨⟩⟩ := Option.ite_none_right_eq_some.mp hstep
    exact h.setMember hsame h.committed
      (sound_fetch (h.members i) hphase hassigned hcontiguous)
  | fetchError i =>
    obtain ⟨hphase, ⟨⟩⟩ := Option.ite_none_right_eq_some.mp hstep
    refine h.setMember hsame h.committed (sound_append (h.members i) hphase nofun ?_)
    intro p hassigned habandoned
    exact ((h.members i).position p hassigned habandoned).mono hsame
      fun _ => List.mem_append_left _
  | returned i =>
    obtain ⟨-, ⟨⟩⟩ := Option.ite_none_right_eq_some.mp hstep
    exact h.setMember hsame h.committed (sound_phase (h.members i) nofun nofun)
  | next i late =>
    obtain ⟨hphase, ⟨⟩⟩ := Option.ite_none_right_eq_some.mp hstep
    have hsub : ∀ msg ∈ g.handled, msg ∈ ((g.member i).next late).2.toList ++ g.handled :=
      fun _ => List.mem_append_right _
    refine h.setMember hsub (fun p => ?_) (sound_next (h.members i) hphase late)
    exact (h.committed p).mono hsub fun _ he => he
  | store i =>
    simp only [step] at hstep
    split at hstep
    · rename_i msg hphase
      cases hstep
      exact h.setMember hsame h.committed (sound_store (h.members i) hphase)
    · cases hstep
  | commit i =>
    obtain ⟨-, ⟨⟩⟩ := Option.ite_none_right_eq_some.mp hstep
    exact h.setMember hsame (h.commitBy i) (sound_phase (h.members i) nofun nofun)
  | rejected i =>
    obtain ⟨-, ⟨⟩⟩ := Option.ite_none_right_eq_some.mp hstep
    exact h.setMember hsame h.committed (sound_phase (h.members i) nofun nofun)
  | restart i =>
    cases hstep
    exact h.setMember hsame h.committed sound_fresh

end Steps

/-! ## Runs -/

/-- A topic of which nothing was read yet: every message below a committed offset is older
than the group. -/
def Group.idle (committed ended : Nat → Nat) : Group where
  member _ := .fresh
  owner _ := none
  committed
  ended
  handled := []

theorem nothingLost_idle (committed ended : Nat → Nat) :
    NothingLost committed (.idle committed ended) := by
  refine ⟨fun p o hstart hlt => ?_, fun _ => sound_fresh⟩
  exact absurd hlt (Nat.not_lt.mpr hstart)

/-- In every run that reads on from a partition only while no deadline has dropped a message of
it, every message below a committed offset has been passed to the handler. -/
theorem no_message_lost {committed ended : Nat → Nat} {as : List Action} {g : Group}
    (hrun : Run step (.idle committed ended) as g)
    (hcontiguous : Guarded step Contiguous (.idle committed ended) as) :
    ∀ p o, committed p ≤ o → o < g.committed p → ⟨p, o⟩ ∈ g.handled := by
  have hinv : NothingLost committed g :=
    hrun.guardedInvariant (fun _ _ _ h hG hstep => nothingLost_step h hG hstep) hcontiguous
      (nothingLost_idle committed ended)
  intro p o hstart hlt
  obtain hdone | hpending := hinv.committed p o hstart hlt
  · exact hdone
  · exact absurd hpending List.not_mem_nil

/-- A topic without messages. -/
def emptyTopic : Group := .idle (fun _ => 0) (fun _ => 0)

/-- Fetch two of three messages, handle the first and meet the deadline at the second. -/
def untilDeadline : List Action :=
  [.publish 0, .publish 0, .publish 0, .assign 0 0, .fetch 0 0, .fetch 0 0, .returned 0,
    .next 0 false, .store 0, .commit 0, .next 0 true]

/-- The partition is assigned again after the deadline: the dropped message comes back. -/
def afterReassignment : List Action :=
  untilDeadline ++
    [.revoke 0 0, .assign 0 0, .fetch 0 0, .fetch 0 0, .returned 0,
      .next 0 false, .store 0, .commit 0, .next 0 false, .store 0, .commit 0]

theorem no_message_lost_after_reassignment :
    (final step emptyTopic afterReassignment).committed 0 = 3 ∧
      ∀ p o, emptyTopic.committed p ≤ o →
        o < (final step emptyTopic afterReassignment).committed p →
        ⟨p, o⟩ ∈ (final step emptyTopic afterReassignment).handled :=
  ⟨by decide +kernel,
   no_message_lost (run_final (by decide +kernel))
     (guarded_of_check (g := fun g a => decide (Contiguous g a))
       (fun _ _ h => of_decide_eq_true h) (by decide +kernel))⟩

/-- Without an assignment the next fetch returns the third message, and its offset is
committed. -/
def withoutReassignment : List Action :=
  untilDeadline ++ [.fetch 0 0, .returned 0, .next 0 false, .store 0, .commit 0]

theorem deadline_loses_message :
    ¬ ∀ (committed ended : Nat → Nat) (as : List Action) (g : Group),
      Run step (.idle committed ended) as g →
      ∀ p o, committed p ≤ o → o < g.committed p → ⟨p, o⟩ ∈ g.handled := by
  intro h
  have hlost : (⟨0, 1⟩ : Message) ∉ (final step emptyTopic withoutReassignment).handled := by
    decide +kernel
  exact hlost (h _ _ withoutReassignment _ (run_final (s := emptyTopic) (by decide +kernel)) 0 1
    (Nat.zero_le _) (by decide +kernel))

end Ai4iCore.Billing.Loop
