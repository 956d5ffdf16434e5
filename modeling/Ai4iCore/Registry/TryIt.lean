import Ai4iCore.Base.Lock
import Ai4iCore.Base.Run

/-!
# The Try-It default of a task type

`update_service` of the service registry sets `is_try_it_default` and first clears the flag on the
other services of the task type; no constraint of `mm_services` backs it. Each call is one
transaction at READ COMMITTED, and what it writes is committed in one step. A clearing statement
takes the rows that match when it begins, one after the other: it waits for a row that another
call has written, and looks again at what is there then.

The type that is cleared is the one the service had when it was read. An update that moves a
flagged service brings the flag to a type that was never cleared (`two_defaults`), and two updates
can clear before either commits. Otherwise no type gets a second default
(`at_most_one_default`).
-/

namespace Ai4iCore.Registry.TryIt

open StepSystem

/-! ## Services -/

/-- The columns of `mm_services` the flag depends on. A task type is a text that is not empty. -/
structure Service (τ : Type) where
  serviceId : String
  taskType : Option τ
  isTryItDefault : Bool
  isDeleted : Bool
deriving Repr, DecidableEq

/-- The fields of an accepted body that write these columns. A `taskType` that is null is not
accepted; an `isTryItDefault` that is null is false. -/
structure Body (τ : Type) where
  serviceId : String
  taskType : Option τ
  isTryItDefault : Option Bool
deriving Repr, DecidableEq

inductive Request (τ : Type)
  | createService (serviceId : String) (taskType : τ)
  | updateService (body : Body τ)
  | deleteService (serviceId : String)
deriving Repr, DecidableEq

/-- How far a call is. -/
inductive Phase (τ : Type)
  | idle
  | loaded (instance_ : Service τ)
  /-- `clear_try_it_default` for the type: the rows that it still has to look at, and those it
  has written. -/
  | clearing (instance_ : Service τ) (taskType : τ) (todo cleared : List String)
  | succeeded
  | failed
  | aborted
deriving Repr, DecidableEq

section Defs

variable {τ : Type} [DecidableEq τ]

def Phase.isDone : Phase τ → Bool
  | .succeeded | .failed | .aborted => true
  | _ => false

/-- `get_by_service_id`. -/
def getByServiceId (services : List (Service τ)) (id : String) : Option (Service τ) :=
  services.find? fun r => r.serviceId = id && !r.isDeleted

/-- The condition of `clear_try_it_default`, but for the service it spares. -/
def Service.isFlagged (r : Service τ) (t : τ) : Bool := r.taskType = some t && r.isTryItDefault

/-- The rows the clearing statement matches. -/
def matching (services : List (Service τ)) (t : τ) (excluded : String) : List String :=
  (services.filter fun r => r.isFlagged t && r.serviceId ≠ excluded).map (·.serviceId)

/-- A column at the flush: a value that was loaded is not written. -/
def flushed {α : Type} [DecidableEq α] (loaded current : α) : Option α → α
  | none => current
  | some value => if value = loaded then current else value

/-- The row of the service at the commit. -/
def Body.flush (b : Body τ) (loaded current : Service τ) : Service τ :=
  { current with
    taskType := flushed loaded.taskType current.taskType (b.taskType.map some)
    isTryItDefault := flushed loaded.isTryItDefault current.isTryItDefault b.isTryItDefault }

/-- The table after the commit of an update. -/
def commitUpdate (services : List (Service τ)) (b : Body τ) (loaded : Service τ)
    (cleared : List String) : List (Service τ) :=
  services.map fun r =>
    if r.serviceId = b.serviceId then b.flush loaded r
    else if r.serviceId ∈ cleared then { r with isTryItDefault := false } else r

/-- The table after the commit of a deletion. -/
def commitDelete (services : List (Service τ)) (id : String) : List (Service τ) :=
  services.map fun r => if r.serviceId = id then { r with isDeleted := true } else r

/-- The type whose flags an update clears first. -/
def Body.clears (b : Body τ) (loaded : Service τ) : Option τ :=
  if b.isTryItDefault = some true then loaded.taskType else none

/-! ## Steps -/

structure State (τ : Type) where
  services : List (Service τ)
  /-- The row locks, by `service_id`. -/
  locks : Locks String
  phases : Nat → Phase τ

/-- The next statement of call `i`, or its end by an error. -/
inductive Label
  | load (i : Nat)
  | clear (i : Nat)
  | clearRow (i : Nat) (serviceId : String)
  | commit (i : Nat)
  | abort (i : Nat)
deriving Repr, DecidableEq

def State.set (s : State τ) (i : Nat) (p : Phase τ) : State τ :=
  { s with phases := Function.update s.phases i p }

/-- The transaction of `i` ends. -/
def State.close (s : State τ) (i : Nat) (p : Phase τ) : State τ :=
  { s.set i p with locks := s.locks.release i }

/-- Call `i` commits `services`. -/
def State.commit (s : State τ) (i : Nat) (services : List (Service τ)) : State τ :=
  { s.close i .succeeded with services := services }

/-- The first statement of a call. A creation is nothing but its insertion, which the unique
`service_id` refuses; a new service has no flag. -/
def load (s : State τ) (i : Nat) : Request τ → State τ
  | .createService id t =>
    if s.services.any fun r => r.serviceId = id then s.close i .failed
    else s.commit i (s.services ++ [⟨id, some t, false, false⟩])
  | .updateService b => (getByServiceId s.services b.serviceId).elim (s.close i .failed)
      fun r => s.set i (.loaded r)
  | .deleteService id => (getByServiceId s.services id).elim (s.close i .failed)
      fun r => s.set i (.loaded r)

/-- The commit of a call that has nothing to clear any more. -/
def commit (s : State τ) (i : Nat) : Request τ → Phase τ → Option (State τ)
  | .updateService b, .loaded r =>
    if s.locks.mayTake i b.serviceId ∧ b.clears r = none then
      some (s.commit i (commitUpdate s.services b r []))
    else none
  | .updateService b, .clearing r _ [] cleared =>
    if s.locks.mayTake i b.serviceId then
      some (s.commit i (commitUpdate s.services b r cleared))
    else none
  | .deleteService id, .loaded _ =>
    if s.locks.mayTake i id then some (s.commit i (commitDelete s.services id)) else none
  | _, _ => none

/-- The clearing statement gets hold of a row and looks at it again. -/
def clearRow (s : State τ) (i : Nat) (id : String) : Phase τ → Option (State τ)
  | .clearing r t todo cleared =>
    if id ∈ todo ∧ s.locks.mayTake i id then
      let still := (matching s.services t r.serviceId).contains id
      some { s.set i (.clearing r t (todo.erase id) (if still then id :: cleared else cleared)) with
        locks := s.locks.take i id }
    else none
  | _ => none

def step (requests : Nat → Request τ) (s : State τ) : Label → Option (State τ)
  | .load i => if s.phases i = .idle then some (load s i (requests i)) else none
  | .clear i =>
    match requests i, s.phases i with
    | .updateService b, .loaded r => (b.clears r).map fun t =>
        s.set i (.clearing r t (matching s.services t r.serviceId) [])
    | _, _ => none
  | .clearRow i id => clearRow s i id (s.phases i)
  | .commit i => commit s i (requests i) (s.phases i)
  | .abort i => if (s.phases i).isDone then none else some (s.close i .aborted)

/-- No call has begun. -/
def State.start (services : List (Service τ)) : State τ :=
  ⟨services, fun _ => none, fun _ => .idle⟩

end Defs

theorem getByServiceId_serviceId {τ : Type} {services : List (Service τ)} {id : String} {r : Service τ}
    (h : getByServiceId services id = some r) : r.serviceId = id := by
  have hfound := List.find?_some h
  rw [Bool.and_eq_true, decide_eq_true_eq] at hfound
  exact hfound.1

section Invariant

variable {τ : Type} [DecidableEq τ] {services : List (Service τ)} {t : τ} {id : String}

/-! ## One default at most -/

/-- A service that is not deleted is the default of the type. -/
def IsDefault (services : List (Service τ)) (t : τ) (id : String) : Prop :=
  ∃ r ∈ services, r.serviceId = id ∧ r.isFlagged t = true ∧ r.isDeleted = false

def AtMostOneDefault (services : List (Service τ)) : Prop :=
  ∀ t id id', IsDefault services t id → IsDefault services t id' → id = id'

/-- The body writes another type than the one the service was read with. -/
def Body.Moves (b : Body τ) (loaded : Service τ) : Prop :=
  ∃ t, b.taskType = some t ∧ loaded.taskType ≠ some t

/-- The body sets the flag, or takes it away. -/
def Body.Sets (b : Body τ) (loaded : Service τ) : Prop :=
  b.isTryItDefault = some true ∧ loaded.isTryItDefault = false

def Body.Unsets (b : Body τ) (loaded : Service τ) : Prop :=
  b.isTryItDefault = some false ∧ loaded.isTryItDefault = true

def Phase.instance? : Phase τ → Option (Service τ)
  | .loaded r | .clearing r _ _ _ => some r
  | _ => none

/-- The type a call is clearing. -/
def Phase.clearingType : Phase τ → Option τ
  | .clearing _ t _ _ => some t
  | _ => none

/-- An update that moves a service to another type leaves it without the flag. One that sets the
flag commits while the service has the type it was read with, and while no other update is between
its clearing of this type and its commit. -/
def Apart (requests : Nat → Request τ) (s : State τ) : Label → Prop
  | .commit i => ∀ b loaded, requests i = .updateService b → (s.phases i).instance? = some loaded →
      (b.Moves loaded → ¬b.Sets loaded ∧ ∀ r ∈ s.services, r.serviceId = b.serviceId →
        r.isDeleted = false → r.isTryItDefault = true → b.Unsets loaded) ∧
      (b.Sets loaded → (∀ r ∈ s.services, r.serviceId = b.serviceId → r.isDeleted = false →
          r.taskType = loaded.taskType) ∧
        ∀ j t, j ≠ i → loaded.taskType = some t → (s.phases j).clearingType ≠ some t)
  | _ => True

/-! ## What a commit makes a default -/

theorem isFlagged_iff {r : Service τ} :
    r.isFlagged t = true ↔ r.taskType = some t ∧ r.isTryItDefault = true := by
  rw [Service.isFlagged, Bool.and_eq_true, decide_eq_true_eq]

theorem mem_matching {excluded : String} (h : IsDefault services t id) (hne : id ≠ excluded) :
    id ∈ matching services t excluded := by
  obtain ⟨r, hr, rfl, hflagged, -⟩ := h
  refine List.mem_map_of_mem (List.mem_filter.mpr ⟨hr, ?_⟩)
  simp [hflagged, hne]

/-- A row that the flush flags for a type it was not flagged for: the body sets the flag, and the
type is the one the service was read with. -/
theorem sets_of_flush {b : Body τ} {loaded r : Service τ}
    (hmoves : b.Moves loaded → ¬b.Sets loaded ∧ (r.isTryItDefault = true → b.Unsets loaded))
    (hsets : b.Sets loaded → r.taskType = loaded.taskType)
    (hflush : (b.flush loaded r).isFlagged t = true) (hbefore : ¬r.isFlagged t = true) :
    b.Sets loaded ∧ loaded.taskType = some t := by
  obtain ⟨htype, hflag⟩ := isFlagged_iff.mp hflush
  change flushed loaded.taskType r.taskType (b.taskType.map some) = some t at htype
  change flushed loaded.isTryItDefault r.isTryItDefault b.isTryItDefault = true at hflag
  -- where the flag comes from
  have hsource : r.isTryItDefault = true ∧ ¬b.Unsets loaded ∨ b.Sets loaded := by
    cases hb : b.isTryItDefault with
    | none =>
      rw [hb] at hflag
      exact .inl ⟨hflag, fun h => Option.some_ne_none _ (h.1.symm.trans hb)⟩
    | some f =>
      rw [hb] at hflag
      change (if f = loaded.isTryItDefault then _ else f) = true at hflag
      split at hflag
      · rename_i hloaded
        refine .inl ⟨hflag, fun h => ?_⟩
        obtain rfl := Option.some.inj (hb.symm.trans h.1)
        exact absurd (hloaded.trans h.2) Bool.false_ne_true
      · rename_i hloaded
        subst hflag
        exact .inr ⟨hb, Bool.eq_false_iff.mpr (Ne.symm hloaded)⟩
  have hstays : ¬b.Moves loaded := by
    intro hmove
    obtain ⟨hnot, hunsets⟩ := hmoves hmove
    obtain ⟨hflagged, hkept⟩ | hset := hsource
    · exact hkept (hunsets hflagged)
    · exact hnot hset
  have hcurrent : r.taskType = some t := by
    cases hb : b.taskType with
    | none =>
      rw [hb] at htype
      exact htype
    | some x =>
      rw [hb] at htype
      change (if some x = loaded.taskType then _ else some x) = some t at htype
      split at htype
      · exact htype
      · rename_i hne
        exact absurd ⟨x, hb, Ne.symm hne⟩ hstays
  obtain ⟨hflagged, -⟩ | hset := hsource
  · exact absurd (isFlagged_iff.mpr ⟨hcurrent, hflagged⟩) hbefore
  · exact ⟨hset, (hsets hset).symm.trans hcurrent⟩

/-- What is a default after the commit of an update was one and has not been cleared, or is the
service itself. -/
theorem isDefault_commitUpdate {b : Body τ} {loaded : Service τ} {cleared : List String}
    (h : IsDefault (commitUpdate services b loaded cleared) t id) :
    (IsDefault services t id ∧ (id ≠ b.serviceId → id ∉ cleared)) ∨
      (id = b.serviceId ∧ ∃ r ∈ services, r.serviceId = b.serviceId ∧ r.isDeleted = false ∧
        (b.flush loaded r).isFlagged t = true ∧ ¬r.isFlagged t = true) := by
  obtain ⟨r', hr', hid, hflagged, hdeleted⟩ := h
  obtain ⟨r, hr, rfl⟩ := List.mem_map.mp hr'
  by_cases hown : r.serviceId = b.serviceId
  · rw [if_pos hown] at hid hflagged hdeleted
    have hid' : id = b.serviceId := hid.symm.trans hown
    by_cases hbefore : r.isFlagged t = true
    · exact .inl ⟨⟨r, hr, hid, hbefore, hdeleted⟩, fun hne => absurd hid' hne⟩
    · exact .inr ⟨hid', r, hr, hown, hdeleted, hflagged, hbefore⟩
  · rw [if_neg hown] at hid hflagged hdeleted
    split at hflagged
    · obtain ⟨-, hflag⟩ := isFlagged_iff.mp hflagged
      cases hflag
    · rename_i hmem
      rw [if_neg hmem] at hid hdeleted
      exact .inl ⟨⟨r, hr, hid, hflagged, hdeleted⟩, fun _ => hid ▸ hmem⟩

theorem isDefault_commitDelete {deleted : String}
    (h : IsDefault (commitDelete services deleted) t id) : IsDefault services t id := by
  obtain ⟨r', hr', hid, hflagged, hdeleted⟩ := h
  obtain ⟨r, hr, rfl⟩ := List.mem_map.mp hr'
  split at hid
  · rename_i hown
    rw [if_pos hown] at hdeleted
    cases hdeleted
  · rename_i hown
    rw [if_neg hown] at hflagged hdeleted
    exact ⟨r, hr, hid, hflagged, hdeleted⟩

theorem isDefault_append {new : String} {type : τ}
    (h : IsDefault (services ++ [⟨new, some type, false, false⟩]) t id) : IsDefault services t id := by
  obtain ⟨r, hr, hid, hflagged, hdeleted⟩ := h
  obtain hr | hr := List.mem_append.mp hr
  · exact ⟨r, hr, hid, hflagged, hdeleted⟩
  · obtain rfl := List.mem_singleton.mp hr
    cases (isFlagged_iff.mp hflagged).2

end Invariant

section Steps

variable {τ : Type} [DecidableEq τ] {requests : Nat → Request τ} {s s' : State τ} {i : Nat}

/-! ## The invariant -/

/-- A clearing call has the defaults of its type before it or behind it, but for the service it
spares. -/
def CallInv (services : List (Service τ)) (r : Request τ) : Phase τ → Prop
  | .loaded loaded => ∀ b, r = .updateService b → loaded.serviceId = b.serviceId
  | .clearing loaded t todo cleared => ∀ b, r = .updateService b →
      loaded.serviceId = b.serviceId ∧ b.clears loaded = some t ∧
        ∀ id, IsDefault services t id → id ≠ b.serviceId → id ∈ todo ∨ id ∈ cleared
  | _ => True

structure Inv (requests : Nat → Request τ) (s : State τ) : Prop where
  one : AtMostOneDefault s.services
  calls : ∀ i, CallInv s.services (requests i) (s.phases i)

/-- Fewer defaults do no harm. -/
theorem CallInv.mono {services services' : List (Service τ)} {r : Request τ} {p : Phase τ}
    (h : CallInv services r p)
    (hdefaults : ∀ t id, p.clearingType = some t → IsDefault services' t id →
      IsDefault services t id) : CallInv services' r p := by
  cases p with
  | clearing loaded t todo cleared =>
    intro b hb
    obtain ⟨hid, hclears, hcovered⟩ := h b hb
    exact ⟨hid, hclears, fun id hdefault => hcovered id (hdefaults t id rfl hdefault)⟩
  | _ => exact h

theorem callInv_done {services : List (Service τ)} {r : Request τ} {p : Phase τ}
    (hp : p.isDone = true) : CallInv services r p := by
  cases p with
  | succeeded => trivial
  | failed => trivial
  | aborted => trivial
  | _ => cases hp

/-- A step of call `i` that writes nothing. -/
theorem Inv.moved (hinv : Inv requests s) {p : Phase τ} {locks : Locks String}
    (hp : CallInv s.services (requests i) p) : Inv requests { s.set i p with locks := locks } := by
  refine ⟨hinv.one, fun j => ?_⟩
  show CallInv s.services (requests j) (Function.update s.phases i p j)
  by_cases hj : j = i
  · subst hj
    rw [Function.update_self]
    exact hp
  · rw [Function.update_of_ne hj]
    exact hinv.calls j

/-- A commit that leaves one default at most and makes none that another call is clearing. -/
theorem Inv.commit (hinv : Inv requests s) {services : List (Service τ)}
    (hone : AtMostOneDefault services)
    (hdefaults : ∀ j t id, j ≠ i → (s.phases j).clearingType = some t →
      IsDefault services t id → IsDefault s.services t id) :
    Inv requests (s.commit i services) := by
  refine ⟨hone, fun j => ?_⟩
  show CallInv services (requests j) (Function.update s.phases i .succeeded j)
  by_cases hj : j = i
  · subst hj
    rw [Function.update_self]
    trivial
  · rw [Function.update_of_ne hj]
    exact (hinv.calls j).mono fun t id ht => hdefaults j t id hj ht

/-- A commit that makes no default at all. -/
theorem Inv.commit_of_fewer (hinv : Inv requests s) {services : List (Service τ)}
    (hfewer : ∀ t id, IsDefault services t id → IsDefault s.services t id) :
    Inv requests (s.commit i services) :=
  hinv.commit (fun t id id' h h' => hinv.one t id id' (hfewer t id h) (hfewer t id' h'))
    fun _ t id _ _ => hfewer t id

theorem inv_load (hinv : Inv requests s) : Inv requests (load s i (requests i)) := by
  cases hrequest : requests i with
  | createService id t =>
    show Inv requests (if _ then _ else _)
    split
    · exact hinv.moved (callInv_done rfl)
    · exact hinv.commit_of_fewer fun _ _ => isDefault_append
  | updateService b =>
    show Inv requests (Option.elim _ _ _)
    cases hget : getByServiceId s.services b.serviceId with
    | none => exact hinv.moved (callInv_done rfl)
    | some r =>
      show Inv requests { s.set i _ with locks := s.locks }
      refine hinv.moved fun b' hb => ?_
      obtain rfl := Request.updateService.inj (hrequest.symm.trans hb)
      exact getByServiceId_serviceId hget
  | deleteService id =>
    show Inv requests (Option.elim _ _ _)
    cases getByServiceId s.services id with
    | none => exact hinv.moved (callInv_done rfl)
    | some r =>
      show Inv requests { s.set i _ with locks := s.locks }
      refine hinv.moved fun b' hb => ?_
      cases hrequest.symm.trans hb

theorem inv_clear (hinv : Inv requests s) (h : step requests s (.clear i) = some s') :
    Inv requests s' := by
  unfold step at h
  dsimp only at h
  split at h
  · rename_i b r hrequest hphase
    obtain ⟨t, hclears, rfl⟩ := Option.map_eq_some_iff.mp h
    show Inv requests { s.set i _ with locks := s.locks }
    refine hinv.moved fun b' hb => ?_
    obtain rfl := Request.updateService.inj (hrequest.symm.trans hb)
    have hcall := hinv.calls i
    rw [hphase] at hcall
    have hid : r.serviceId = b.serviceId := hcall b hrequest
    exact ⟨hid, hclears, fun id hdefault hne => .inl (mem_matching hdefault (hid ▸ hne))⟩
  · cases h

/-- A row that is looked at again and is still a default is written. -/
theorem inv_clearRow {id : String} (hinv : Inv requests s)
    (h : step requests s (.clearRow i id) = some s') : Inv requests s' := by
  change clearRow s i id (s.phases i) = some s' at h
  have hcall := hinv.calls i
  unfold clearRow at h
  split at h
  · rename_i r t todo cleared hphase
    rw [hphase] at hcall
    split at h
    · obtain rfl := Option.some.inj h
      refine hinv.moved fun b hb => ?_
      obtain ⟨hid, hclears, hcovered⟩ := hcall b hb
      refine ⟨hid, hclears, fun other hdefault hne => ?_⟩
      obtain hmem | hmem := hcovered other hdefault hne
      · by_cases hother : other = id
        · subst hother
          have hstill : (matching s.services t r.serviceId).contains other = true :=
            List.contains_iff_mem.mpr (mem_matching hdefault (hid ▸ hne))
          exact .inr (by rw [if_pos hstill]; exact List.mem_cons_self)
        · exact .inl ((List.mem_erase_of_ne hother).mpr hmem)
      · refine .inr ?_
        split
        · exact List.mem_cons_of_mem _ hmem
        · exact hmem
    · cases h
  · cases h

/-- The commit of an update: whoever becomes the default of a type has cleared all others, and no
other call is clearing the type. -/
theorem inv_commitUpdate (hinv : Inv requests s) {b : Body τ} {loaded : Service τ}
    {cleared : List String} (hguard : Apart requests s (.commit i))
    (hrequest : requests i = .updateService b)
    (hloaded : (s.phases i).instance? = some loaded)
    (hcovered : ∀ t, b.clears loaded = some t → ∀ id, IsDefault s.services t id →
      id ≠ b.serviceId → id ∈ cleared) :
    Inv requests (s.commit i (commitUpdate s.services b loaded cleared)) := by
  obtain ⟨hmoves, hsets⟩ := hguard b loaded hrequest hloaded
  -- a new default of `t` sets the flag for the type it was read with
  have hnew : ∀ t, (∃ r ∈ s.services, r.serviceId = b.serviceId ∧ r.isDeleted = false ∧
      (b.flush loaded r).isFlagged t = true ∧ ¬r.isFlagged t = true) →
      b.Sets loaded ∧ loaded.taskType = some t := by
    rintro t ⟨r, hr, hid, hdeleted, hflush, hbefore⟩
    exact sets_of_flush (fun h => ⟨(hmoves h).1, (hmoves h).2 r hr hid hdeleted⟩)
      (fun h => (hsets h).1 r hr hid hdeleted) hflush hbefore
  have hother : ∀ t, b.Sets loaded ∧ loaded.taskType = some t → ∀ id, id ≠ b.serviceId →
      IsDefault s.services t id → id ∈ cleared := by
    rintro t ⟨hset, htype⟩ id hne hdefault
    refine hcovered t ?_ id hdefault hne
    rw [Body.clears, if_pos hset.1, htype]
  refine hinv.commit (fun t id id' h h' => ?_) fun j t id hj ht h => ?_
  · obtain ⟨hid, hkept⟩ | ⟨hid, hid_new⟩ := isDefault_commitUpdate h
    · obtain ⟨hid', hkept'⟩ | ⟨hid', hid'_new⟩ := isDefault_commitUpdate h'
      · exact hinv.one t id id' hid hid'
      · by_cases hne : id = b.serviceId
        · exact hne.trans hid'.symm
        · exact absurd (hother t (hnew t hid'_new) id hne hid) (hkept hne)
    · obtain ⟨hid', hkept'⟩ | ⟨hid', -⟩ := isDefault_commitUpdate h'
      · by_cases hne : id' = b.serviceId
        · exact hid.trans hne.symm
        · exact absurd (hother t (hnew t hid_new) id' hne hid') (hkept' hne)
      · exact hid.trans hid'.symm
  · obtain ⟨hid, -⟩ | ⟨-, hid_new⟩ := isDefault_commitUpdate h
    · exact hid
    · obtain ⟨hset, htype⟩ := hnew t hid_new
      exact absurd ht ((hsets hset).2 j t hj htype)

theorem inv_commit (hinv : Inv requests s) (hguard : Apart requests s (.commit i))
    (h : step requests s (.commit i) = some s') : Inv requests s' := by
  change commit s i (requests i) (s.phases i) = some s' at h
  have hcall := hinv.calls i
  unfold commit at h
  split at h
  · rename_i b r hrequest hphase
    split at h
    · rename_i hcond
      obtain rfl := Option.some.inj h
      refine inv_commitUpdate hinv hguard hrequest (by rw [hphase]; rfl) fun t hclears => ?_
      exact absurd (hcond.2.symm.trans hclears) (Option.some_ne_none t).symm
    · cases h
  · rename_i b r t cleared hrequest hphase
    rw [hphase] at hcall
    split at h
    · obtain rfl := Option.some.inj h
      obtain ⟨-, hclears, hcovered⟩ := hcall b hrequest
      refine inv_commitUpdate hinv hguard hrequest (by rw [hphase]; rfl)
        fun t' ht' id hdefault hne => ?_
      obtain rfl := Option.some.inj (hclears.symm.trans ht')
      exact (hcovered id hdefault hne).resolve_left List.not_mem_nil
    · cases h
  · split at h
    · obtain rfl := Option.some.inj h
      exact hinv.commit_of_fewer fun _ _ => isDefault_commitDelete
    · cases h
  · cases h

/-- **A step keeps the invariant.** -/
theorem inv_step {a : Label} (hinv : Inv requests s) (hguard : Apart requests s a)
    (h : step requests s a = some s') : Inv requests s' := by
  cases a with
  | load i =>
    unfold step at h
    dsimp only at h
    split at h
    · obtain rfl := Option.some.inj h
      exact inv_load hinv
    · cases h
  | clear i => exact inv_clear hinv h
  | clearRow i id => exact inv_clearRow hinv h
  | commit i => exact inv_commit hinv hguard h
  | abort i =>
    unfold step at h
    dsimp only at h
    split at h
    · cases h
    · obtain rfl := Option.some.inj h
      exact hinv.moved (callInv_done rfl)

end Steps

/-! ## One default of each type -/

/-- **At most one default**: when no update moves a flagged service, and no two updates that flag
a service of one type are between clearing and commit at a time, no type has two defaults in any
state of the run. -/
theorem at_most_one_default {τ : Type} [DecidableEq τ] (requests : Nat → Request τ)
    (services : List (Service τ)) (s : State τ) (labels : List Label)
    (hone : AtMostOneDefault services)
    (hrun : Run (step requests) (State.start services) labels s)
    (hguard : Guarded (step requests) (Apart requests) (State.start services) labels) :
    AtMostOneDefault s.services :=
  (Run.guardedInvariant (fun _ _ _ hm hG h => inv_step hm hG h) hrun hguard
    ⟨hone, fun _ => trivial⟩).one

/-- Two translation services and one for speech; the first of each type is the default. -/
def sampleServices : List (Service String) :=
  [⟨"indic-nmt", some "nmt", true, false⟩, ⟨"bhasha-nmt", some "nmt", false, false⟩,
    ⟨"indic-asr", some "asr", true, false⟩]

theorem sampleServices_one : AtMostOneDefault sampleServices := by
  rintro t id id' ⟨r, hr, rfl, hflagged, -⟩ ⟨r', hr', rfl, hflagged', -⟩
  obtain ⟨htype, hflag⟩ := isFlagged_iff.mp hflagged
  obtain ⟨htype', hflag'⟩ := isFlagged_iff.mp hflagged'
  have hunique : ∀ r ∈ sampleServices, ∀ r' ∈ sampleServices, r.isTryItDefault = true →
      r'.isTryItDefault = true → r.taskType = r'.taskType → r.serviceId = r'.serviceId := by decide
  exact hunique r hr r' hr' hflag hflag' (htype.trans htype'.symm)

/-- Call 0 makes the second translation service the default, call 1 moves the first one to speech,
call 2 and all others make the first one the default. -/
def sampleRequests : Nat → Request String
  | 0 => .updateService ⟨"bhasha-nmt", none, some true⟩
  | 1 => .updateService ⟨"indic-nmt", some "asr", none⟩
  | _ => .updateService ⟨"indic-nmt", none, some true⟩

/-- The default of a type changes hands. -/
theorem at_most_one_default_in_turn :
    ∃ s, Run (step sampleRequests) (State.start sampleServices)
        [.load 0, .clear 0, .clearRow 0 "indic-nmt", .commit 0] s ∧
      IsDefault s.services "nmt" "bhasha-nmt" ∧ AtMostOneDefault s.services := by
  have hrun : Run (step sampleRequests) (State.start sampleServices)
      [.load 0, .clear 0, .clearRow 0 "indic-nmt", .commit 0]
      (final (step sampleRequests) (State.start sampleServices)
        [.load 0, .clear 0, .clearRow 0 "indic-nmt", .commit 0]) := run_final (by decide +kernel)
  refine ⟨_, hrun, ⟨⟨"bhasha-nmt", some "nmt", true, false⟩, by decide +kernel, rfl, by decide, rfl⟩,
    at_most_one_default sampleRequests sampleServices _ _ sampleServices_one hrun ?_⟩
  refine ⟨trivial, fun m₁ h₁ => ⟨trivial, fun m₂ h₂ => ⟨trivial, fun m₃ h₃ => ⟨?_, fun _ _ =>
    trivial⟩⟩⟩⟩
  -- the service is of its type, and nobody else has begun
  obtain rfl := Option.some.inj h₁
  obtain rfl := Option.some.inj h₂
  obtain rfl := Option.some.inj h₃
  intro b loaded hb hloaded
  obtain rfl := Request.updateService.inj hb
  obtain rfl := Option.some.inj hloaded
  refine ⟨fun hmoves => ?_, fun _ => ⟨by decide +kernel, fun j t hj _ hclearing => ?_⟩⟩
  · obtain ⟨t, ht, -⟩ := hmoves
    cases ht
  · match j, hj with
    | 0, hj => exact hj rfl
    | j + 1, _ => cases hclearing

/-- The moved service takes its flag along; and two updates that both clear first both set it. -/
theorem two_defaults :
    AtMostOneDefault sampleServices ∧
    (∃ s, Run (step sampleRequests) (State.start sampleServices) [.load 1, .commit 1] s ∧
      IsDefault s.services "asr" "indic-nmt" ∧ IsDefault s.services "asr" "indic-asr" ∧
        ¬AtMostOneDefault s.services) ∧
    ∃ s, Run (step sampleRequests)
        (State.start [⟨"indic-nmt", some "nmt", false, false⟩,
          ⟨"bhasha-nmt", some "nmt", false, false⟩])
        [.load 0, .load 2, .clear 0, .clear 2, .commit 0, .commit 2] s ∧
      ¬AtMostOneDefault s.services := by
  refine ⟨sampleServices_one, ⟨_, run_final (by decide +kernel), ?_, ?_, fun hone => ?_⟩, _,
    run_final (by decide +kernel), fun hone => ?_⟩
  · exact ⟨⟨"indic-nmt", some "asr", true, false⟩, by decide +kernel, rfl, by decide, rfl⟩
  · exact ⟨⟨"indic-asr", some "asr", true, false⟩, by decide +kernel, rfl, by decide, rfl⟩
  · have heq := hone "asr" "indic-nmt" "indic-asr"
      ⟨⟨"indic-nmt", some "asr", true, false⟩, by decide +kernel, rfl, by decide, rfl⟩
      ⟨⟨"indic-asr", some "asr", true, false⟩, by decide +kernel, rfl, by decide, rfl⟩
    exact absurd heq (by decide)
  · have heq := hone "nmt" "indic-nmt" "bhasha-nmt"
      ⟨⟨"indic-nmt", some "nmt", true, false⟩, by decide +kernel, rfl, by decide, rfl⟩
      ⟨⟨"bhasha-nmt", some "nmt", true, false⟩, by decide +kernel, rfl, by decide, rfl⟩
    exact absurd heq (by decide)

end Ai4iCore.Registry.TryIt
