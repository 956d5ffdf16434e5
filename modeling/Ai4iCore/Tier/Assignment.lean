import Ai4iCore.Base.Checked
import Ai4iCore.Base.Lock
import Ai4iCore.Base.Run
import Ai4iCore.Base.Table

/-!
# Tiers: disabling a tier and assigning it

`update_tier_status` of platform-core and `assign_tenant_tier` of the auth-service, statement by
statement, for any number of calls. Each looks into the other's database before it writes its
own: a tier is disabled when no tenant is on it, and a tenant is put on a tier that is ACTIVE.
No transaction spans the two databases, so what a call has seen may be over when it commits.

`no_tenant_on_disabled_tier`: as long as no disabling of a tier overlaps an assignment to it,
both of them behind their checks, every tenant's tier is ACTIVE in every state that is reached.
-/

namespace Ai4iCore.Tier

open Checked StepSystem

/-! ## The two databases -/

inductive TierStatus
  | inactive
  | active
  | deactivated
  | deleted
  deriving DecidableEq, Repr

structure TierRow where
  id : Nat
  status : TierStatus
  deriving DecidableEq, Repr

/-- The column of `mm_services` that names tiers. -/
structure ServiceRow where
  tierIds : List Nat
  deriving DecidableEq, Repr

structure TenantRow where
  id : Nat
  tierId : Option Nat
  deriving DecidableEq, Repr

/-- `tiers` and `mm_services` are platform-core's, `tenants` is the auth-service's. -/
structure Databases where
  tiers : List TierRow
  services : List ServiceRow
  tenants : List TenantRow
  deriving DecidableEq, Repr

namespace Databases

def tier (d : Databases) (id : Nat) : Option TierRow := Table.get (·.id) d.tiers id

def tenant (d : Databases) (id : Nat) : Option TenantRow := Table.get (·.id) d.tenants id

/-- `SELECT 1 FROM tenants WHERE tier_id = :tier_id`. -/
def assigned (d : Databases) (tierId : Nat) : Bool := d.tenants.any fun t => t.tierId = some tierId

/-- `SELECT 1 FROM mm_services WHERE :tier_id = ANY(tier_ids)`. -/
def mapped (d : Databases) (tierId : Nat) : Bool := d.services.any fun s => tierId ∈ s.tierIds

/-- `SELECT id, name FROM tiers WHERE id = :tid AND status = 'ACTIVE'` finds a row. -/
def isActive (d : Databases) (tierId : Nat) : Bool :=
  d.tiers.any fun t => t.id = tierId ∧ t.status = .active

def setStatus (d : Databases) (tierId : Nat) (status : TierStatus) : Databases :=
  { d with tiers := Table.modify (·.id) d.tiers tierId fun t => { t with status } }

def setTier (d : Databases) (tenantId tierId : Nat) : Databases :=
  { d with tenants := Table.modify (·.id) d.tenants tenantId fun t =>
      { t with tierId := some tierId } }

end Databases

/-! ## The requests -/

inductive TierError
  | invalidTierId
  | tierNotFound
  | tierStatusUnchanged
  | invalidTierStatusTransition
  | authDbNotConfigured
  | tierStillAssigned
  | tierStillMapped
  | insufficientPermissions
  | tenantNotFound
  | platformCoreDbNotConfigured
  | tenantAlreadyOnTier
  deriving DecidableEq, Repr

/-- A request; a tier id that is no UUID is `none`, and each carries whether it was given a
session of the other database. -/
inductive Request
  | updateTierStatus (tierId : Option Nat) (target : TierStatus) (authDb : Bool)
  | assignTenantTier (tenantId : Nat) (tierId : Option Nat) (isAdmin platformCoreDb : Bool)
  deriving DecidableEq, Repr

/-- `_ALLOWED_TIER_STATUS_TRANSITIONS`. -/
def allowedTransitions : TierStatus → List TierStatus
  | .inactive => [.active]
  | .active => [.deactivated]
  | .deactivated => [.active, .deleted]
  | .deleted => []

/-- `assert_valid_tier_status_transition`. -/
def assertValidTierStatusTransition (current target : TierStatus) : Except TierError Unit := do
  require (current ≠ target) .tierStatusUnchanged
  require (target ∈ allowedTransitions current) .invalidTierStatusTransition

/-- `_get_tier_or_404`. -/
def getTierOr404 (d : Databases) (tierId : Option Nat) : Except TierError TierRow := do
  let id ← orRaise tierId .invalidTierId
  orRaise (d.tiers.find? fun t => t.id = id ∧ t.status ≠ .deleted) .tierNotFound

/-- The targets that need the two checks. -/
def TierStatus.disables (target : TierStatus) : Bool := target ∈ [.deactivated, .deleted]

/-! ## Steps -/

/-- How far a call is. -/
inductive Phase
  | idle
  /-- The tier is read and the transition is allowed. -/
  | loaded (tierId : Nat) (target : TierStatus) (authDb : Bool)
  /-- No tenant had the tier. -/
  | unassigned (tierId : Nat) (target : TierStatus)
  /-- And no service. -/
  | unmapped (tierId : Nat) (target : TierStatus)
  /-- The tenant's row is locked. -/
  | locked (tenant : TenantRow) (tierId : Nat) (platformCoreDb : Bool)
  /-- The tier was ACTIVE. -/
  | checked (tenantId tierId : Nat)
  | succeeded
  | failed (e : TierError)
  | aborted
  deriving DecidableEq, Repr

structure State where
  db : Databases
  /-- The row locks of `tenants`. -/
  locks : Locks Nat
  phases : Nat → Phase

/-- One statement of call `i`, its end by an error of a database, or a change of the services. -/
inductive Label
  | load (i : Nat)
  | checkTenants (i : Nat)
  | checkServices (i : Nat)
  | commit (i : Nat)
  | lock (i : Nat)
  | checkTier (i : Nat)
  | write (i : Nat)
  | abort (i : Nat)
  | mapServices (services : List ServiceRow)
  deriving DecidableEq, Repr

def State.set (s : State) (i : Nat) (p : Phase) : State :=
  { s with phases := Function.update s.phases i p }

/-- The transaction of `i` ends. -/
def State.close (s : State) (i : Nat) (p : Phase) : State :=
  { s.set i p with locks := s.locks.release i }

/-- The first read of `update_tier_status`. -/
def loadTier (d : Databases) (tierId : Option Nat) (target : TierStatus) (authDb : Bool) :
    Except TierError Phase := do
  let tier ← getTierOr404 d tierId
  assertValidTierStatusTransition tier.status target
  return .loaded tier.id target authDb

/-- What `assign_tenant_tier` decides on once it has read the tier. -/
def checkTier (d : Databases) (tenant : TenantRow) (tierId : Nat) (platformCoreDb : Bool) :
    Except TierError Phase := do
  require platformCoreDb .platformCoreDbNotConfigured
  require (d.isActive tierId) .tierNotFound
  require (tenant.tierId ≠ some tierId) .tenantAlreadyOnTier
  return .checked tenant.id tierId

/-- The checks of `assign_tenant_tier` before it locks. -/
def precheck (tierId : Option Nat) (isAdmin : Bool) : Except TierError Nat := do
  require isAdmin .insufficientPermissions
  orRaise tierId .invalidTierId

section Step

variable (requests : Nat → Request)

def step (s : State) : Label → Option State
  | .load i =>
    match s.phases i, requests i with
    | .idle, .updateTierStatus tierId target authDb =>
      match loadTier s.db tierId target authDb with
      | .ok p => some (s.set i p)
      | .error e => some (s.close i (.failed e))
    | _, _ => none
  | .checkTenants i =>
    match s.phases i with
    | .loaded tierId target authDb =>
      if target.disables then
        if !authDb then some (s.close i (.failed .authDbNotConfigured))
        else if s.db.assigned tierId then some (s.close i (.failed .tierStillAssigned))
        else some (s.set i (.unassigned tierId target))
      else none
    | _ => none
  | .checkServices i =>
    match s.phases i with
    | .unassigned tierId target =>
      if s.db.mapped tierId then some (s.close i (.failed .tierStillMapped))
      else some (s.set i (.unmapped tierId target))
    | _ => none
  | .commit i =>
    match s.phases i with
    | .loaded tierId target _ =>
      if target.disables then none
      else some { s.close i .succeeded with db := s.db.setStatus tierId target }
    | .unmapped tierId target =>
      some { s.close i .succeeded with db := s.db.setStatus tierId target }
    | _ => none
  | .lock i =>
    match s.phases i, requests i with
    | .idle, .assignTenantTier tenantId tierId isAdmin platformCoreDb =>
      match precheck tierId isAdmin with
      | .error e => some (s.close i (.failed e))
      | .ok tierId =>
        if s.locks.mayTake i tenantId then
          match s.db.tenant tenantId with
          | none => some (s.close i (.failed .tenantNotFound))
          | some tenant =>
            some { s.set i (.locked tenant tierId platformCoreDb) with
              locks := s.locks.take i tenantId }
        else none
    | _, _ => none
  | .checkTier i =>
    match s.phases i with
    | .locked tenant tierId platformCoreDb =>
      match checkTier s.db tenant tierId platformCoreDb with
      | .ok p => some (s.set i p)
      | .error e => some (s.close i (.failed e))
    | _ => none
  | .write i =>
    match s.phases i with
    | .checked tenantId tierId =>
      some { s.close i .succeeded with db := s.db.setTier tenantId tierId }
    | _ => none
  | .abort i =>
    match s.phases i with
    | .succeeded | .failed _ | .aborted => none
    | _ => some (s.close i .aborted)
  | .mapServices services => some { s with db := { s.db with services } }

end Step

/-! ## The invariant -/

/-- Every tenant's tier is ACTIVE. -/
def NoneDisabled (d : Databases) : Prop :=
  ∀ t ∈ d.tenants, ∀ tierId, t.tierId = some tierId → d.isActive tierId = true

/-- What a call has seen is still true. -/
def PhaseInv (d : Databases) : Phase → Prop
  | .loaded _ target _ => target ≠ .inactive
  | .unassigned tierId _ => d.assigned tierId = false
  | .unmapped tierId _ => d.assigned tierId = false
  | .checked _ tierId => d.isActive tierId = true
  | _ => True

structure Inv (s : State) : Prop where
  sound : NoneDisabled s.db
  phases : ∀ i, PhaseInv s.db (s.phases i)

/-- A disabling of a tier does not commit while an assignment to it has passed its check, and
an assignment does not commit while a disabling of its tier has passed its check of the tenants. -/
def Apart (s : State) : Label → Prop
  | .commit i => ∀ tierId target, s.phases i = .unmapped tierId target →
      ∀ j tenantId, s.phases j ≠ .checked tenantId tierId
  | .write i => ∀ tenantId tierId, s.phases i = .checked tenantId tierId →
      ∀ j target, s.phases j ≠ .unassigned tierId target ∧ s.phases j ≠ .unmapped tierId target
  | _ => True

/-! ## The two writes -/

section Writes

variable {d : Databases} {tierId tenantId : Nat}

theorem isActive_iff : d.isActive tierId = true ↔
    ∃ t ∈ d.tiers, t.id = tierId ∧ t.status = .active := by
  unfold Databases.isActive
  simp only [List.any_eq_true, decide_eq_true_eq]

theorem assigned_eq_false_iff : d.assigned tierId = false ↔
    ∀ t ∈ d.tenants, t.tierId ≠ some tierId := by
  unfold Databases.assigned
  simp only [List.any_eq_false, decide_eq_true_eq, ne_eq]

/-- A tier whose status is not written to is as active as before, and so is one that becomes
ACTIVE. -/
theorem isActive_setStatus {status : TierStatus} {other : Nat} (h : d.isActive other = true)
    (hother : other ≠ tierId ∨ status = .active) :
    (d.setStatus tierId status).isActive other = true := by
  obtain ⟨t, ht, hid, hactive⟩ := isActive_iff.mp h
  refine isActive_iff.mpr ⟨_, List.mem_map_of_mem ht, ?_⟩
  by_cases heq : t.id = tierId
  · rw [if_pos heq]
    exact ⟨hid, hother.resolve_left fun hne => hne (hid.symm.trans heq)⟩
  · rw [if_neg heq]
    exact ⟨hid, hactive⟩

/-- Nobody gets a tier that is not the one assigned. -/
theorem assigned_setTier {other : Nat} (h : d.assigned other = false) (hother : other ≠ tierId) :
    (d.setTier tenantId tierId).assigned other = false := by
  refine assigned_eq_false_iff.mpr fun t ht => ?_
  obtain ⟨b, hb, rfl⟩ := List.mem_map.mp ht
  split
  · exact fun heq => hother (Option.some.inj heq).symm
  · exact assigned_eq_false_iff.mp h b hb

theorem NoneDisabled.setTier (h : NoneDisabled d) (hactive : d.isActive tierId = true) :
    NoneDisabled (d.setTier tenantId tierId) := by
  intro t ht other hother
  obtain ⟨b, hb, rfl⟩ := List.mem_map.mp ht
  show d.isActive other = true
  split at hother
  · exact Option.some.inj hother ▸ hactive
  · exact h b hb other hother

/-- A tier may be disabled when nobody is on it. -/
theorem NoneDisabled.setStatus {status : TierStatus} (h : NoneDisabled d)
    (hfree : d.assigned tierId = false ∨ status = .active) :
    NoneDisabled (d.setStatus tierId status) := by
  intro t ht other hother
  refine isActive_setStatus (h t ht other hother) ?_
  rcases hfree with hfree | hstatus
  · left
    rintro rfl
    exact assigned_eq_false_iff.mp hfree t ht hother
  · exact .inr hstatus

end Writes

/-! ## Steps keep the invariant -/

section Steps

variable {requests : Nat → Request} {s s' : State} {i : Nat}

/-- A step of call `i` that writes neither `tiers` nor `tenants`. -/
theorem Inv.moved (hinv : Inv s) (hdb : s'.db = s.db)
    (hphases : ∀ j, j ≠ i → s'.phases j = s.phases j) (hp : PhaseInv s.db (s'.phases i)) :
    Inv s' := by
  refine ⟨hdb ▸ hinv.sound, fun j => ?_⟩
  rw [hdb]
  by_cases hj : j = i
  · exact hj ▸ hp
  · rw [hphases j hj]
    exact hinv.phases j

theorem Inv.set (hinv : Inv s) {p : Phase} (hp : PhaseInv s.db p) : Inv (s.set i p) := by
  refine hinv.moved (i := i) rfl (fun j hj => Function.update_of_ne hj _ _) ?_
  rw [show (s.set i p).phases i = p from Function.update_self _ _ _]
  exact hp

theorem Inv.close (hinv : Inv s) {p : Phase} (hp : PhaseInv s.db p) : Inv (s.close i p) := by
  refine hinv.moved (i := i) rfl (fun j hj => Function.update_of_ne hj _ _) ?_
  rw [show (s.close i p).phases i = p from Function.update_self _ _ _]
  exact hp

theorem Inv.relock (hinv : Inv s) (locks : Locks Nat) : Inv { s with locks } :=
  ⟨hinv.sound, hinv.phases⟩

/-- An allowed transition does not lead back to INACTIVE. -/
theorem loadTier_ok {d : Databases} {tierId : Option Nat} {target : TierStatus} {authDb : Bool}
    {p : Phase} (h : loadTier d tierId target authDb = .ok p) :
    ∃ id, p = .loaded id target authDb ∧ target ≠ .inactive := by
  unfold loadTier at h
  obtain ⟨tier, -, h⟩ := bind_ok h
  obtain ⟨_, htransition, h⟩ := bind_ok h
  obtain rfl := Except.ok.inj h
  obtain ⟨-, hallowed⟩ := require_bind htransition
  refine ⟨tier.id, rfl, ?_⟩
  rintro rfl
  have hmem := of_decide_eq_true (require_ok hallowed)
  cases hstatus : tier.status <;> simp [hstatus, allowedTransitions] at hmem

theorem checkTier_ok {d : Databases} {tenant : TenantRow} {tierId : Nat} {platformCoreDb : Bool}
    {p : Phase} (h : checkTier d tenant tierId platformCoreDb = .ok p) :
    p = .checked tenant.id tierId ∧ d.isActive tierId = true := by
  unfold checkTier at h
  obtain ⟨-, h⟩ := require_bind h
  obtain ⟨hactive, h⟩ := require_bind h
  obtain ⟨-, h⟩ := require_bind h
  exact ⟨(Except.ok.inj h).symm, hactive⟩

theorem inv_load (hinv : Inv s) (h : step requests s (.load i) = some s') : Inv s' := by
  unfold step at h
  dsimp only at h
  split at h
  · split at h
    · rename_i p hload
      obtain rfl := Option.some.inj h
      obtain ⟨id, rfl, hactive⟩ := loadTier_ok hload
      exact hinv.set hactive
    · obtain rfl := Option.some.inj h
      exact hinv.close trivial
  · cases h

/-- The check of the tenants: nobody is on the tier. -/
theorem inv_checkTenants (hinv : Inv s)
    (h : step requests s (.checkTenants i) = some s') : Inv s' := by
  unfold step at h
  dsimp only at h
  split at h
  · split at h
    · split at h
      · obtain rfl := Option.some.inj h
        exact hinv.close trivial
      · split at h
        · obtain rfl := Option.some.inj h
          exact hinv.close trivial
        · rename_i hfree
          obtain rfl := Option.some.inj h
          exact hinv.set (Bool.eq_false_iff.mpr hfree)
    · cases h
  · cases h

theorem inv_checkServices (hinv : Inv s)
    (h : step requests s (.checkServices i) = some s') : Inv s' := by
  unfold step at h
  dsimp only at h
  split at h
  · rename_i tierId target hphase
    split at h
    · obtain rfl := Option.some.inj h
      exact hinv.close trivial
    · obtain rfl := Option.some.inj h
      have hp := hinv.phases i
      rw [hphase] at hp
      exact hinv.set hp
  · cases h

theorem inv_lock (hinv : Inv s) (h : step requests s (.lock i) = some s') : Inv s' := by
  unfold step at h
  dsimp only at h
  split at h
  · split at h
    · obtain rfl := Option.some.inj h
      exact hinv.close trivial
    · split at h
      · split at h
        · obtain rfl := Option.some.inj h
          exact hinv.close trivial
        · obtain rfl := Option.some.inj h
          exact Inv.relock (hinv.set (p := .locked _ _ _) trivial) _
      · cases h
  · cases h

/-- The check of the tier: it is ACTIVE. -/
theorem inv_checkTier (hinv : Inv s) (h : step requests s (.checkTier i) = some s') : Inv s' := by
  unfold step at h
  dsimp only at h
  split at h
  · split at h
    · rename_i p hcheck
      obtain rfl := Option.some.inj h
      obtain ⟨rfl, hactive⟩ := checkTier_ok hcheck
      exact hinv.set hactive
    · obtain rfl := Option.some.inj h
      exact hinv.close trivial
  · cases h

theorem inv_abort (hinv : Inv s) (h : step requests s (.abort i) = some s') : Inv s' := by
  unfold step at h
  dsimp only at h
  split at h
  · cases h
  · cases h
  · cases h
  · obtain rfl := Option.some.inj h
    exact hinv.close trivial

theorem inv_mapServices (hinv : Inv s) {services : List ServiceRow}
    (h : step requests s (.mapServices services) = some s') : Inv s' := by
  unfold step at h
  dsimp only at h
  obtain rfl := Option.some.inj h
  refine ⟨hinv.sound, fun j => ?_⟩
  have hp := hinv.phases j
  show PhaseInv _ (s.phases j)
  cases hphase : s.phases j <;> rw [hphase] at hp <;> exact hp

/-- The calls that are not at a write keep what they have seen. -/
theorem inv_written {d : Databases} (hsound : NoneDisabled d)
    (hothers : ∀ j, j ≠ i → PhaseInv d (s.phases j)) :
    Inv { s.close i .succeeded with db := d } := by
  refine ⟨hsound, fun j => ?_⟩
  show PhaseInv d (Function.update s.phases i .succeeded j)
  by_cases hj : j = i
  · rw [hj, Function.update_self]
    trivial
  · rw [Function.update_of_ne hj]
    exact hothers j hj

/-- A status is written: nobody is on the tier, or it becomes ACTIVE. -/
theorem inv_setStatus (hinv : Inv s) {tierId : Nat} {target : TierStatus}
    (hfree : (s.db.assigned tierId = false ∧ ∀ j tenantId, s.phases j ≠ .checked tenantId tierId) ∨
      target = .active) :
    Inv { s.close i .succeeded with db := s.db.setStatus tierId target } := by
  refine inv_written (hinv.sound.setStatus (hfree.imp_left And.left)) fun j _ => ?_
  have hp := hinv.phases j
  cases hphase : s.phases j with
  | checked tenantId other =>
    rw [hphase] at hp
    refine isActive_setStatus hp ?_
    rcases hfree with ⟨-, hnone⟩ | hactive
    · left
      rintro rfl
      exact hnone j tenantId hphase
    · exact .inr hactive
  | _ =>
    rw [hphase] at hp
    exact hp

/-- A tier is assigned that is ACTIVE and that nobody is about to disable. -/
theorem inv_setTier (hinv : Inv s) {tenantId tierId : Nat} (hactive : s.db.isActive tierId = true)
    (hnone : ∀ j target, s.phases j ≠ .unassigned tierId target ∧
      s.phases j ≠ .unmapped tierId target) :
    Inv { s.close i .succeeded with db := s.db.setTier tenantId tierId } := by
  refine inv_written (hinv.sound.setTier hactive) fun j _ => ?_
  have hp := hinv.phases j
  cases hphase : s.phases j with
  | unassigned other target =>
    rw [hphase] at hp
    refine assigned_setTier hp ?_
    rintro rfl
    exact (hnone j target).1 hphase
  | unmapped other target =>
    rw [hphase] at hp
    refine assigned_setTier hp ?_
    rintro rfl
    exact (hnone j target).2 hphase
  | _ =>
    rw [hphase] at hp
    exact hp

/-- A status is written behind both checks, or when it disables nothing. -/
theorem inv_commit (hinv : Inv s) (hguard : Apart s (.commit i))
    (h : step requests s (.commit i) = some s') : Inv s' := by
  unfold step at h
  dsimp only at h
  have hp := hinv.phases i
  split at h
  · rename_i tierId target authDb hphase
    rw [hphase] at hp
    split at h
    · cases h
    · rename_i henables
      obtain rfl := Option.some.inj h
      refine inv_setStatus hinv (.inr ?_)
      cases target with
      | inactive => exact absurd rfl hp
      | active => rfl
      | deactivated => exact absurd rfl henables
      | deleted => exact absurd rfl henables
  · rename_i tierId target hphase
    rw [hphase] at hp
    obtain rfl := Option.some.inj h
    exact inv_setStatus hinv (.inl ⟨hp, hguard tierId target hphase⟩)
  · cases h

theorem inv_write (hinv : Inv s) (hguard : Apart s (.write i))
    (h : step requests s (.write i) = some s') : Inv s' := by
  unfold step at h
  dsimp only at h
  split at h
  · rename_i tenantId tierId hphase
    have hp := hinv.phases i
    rw [hphase] at hp
    obtain rfl := Option.some.inj h
    exact inv_setTier hinv hp (hguard tenantId tierId hphase)
  · cases h

theorem inv_step {a : Label} (hinv : Inv s) (hguard : Apart s a)
    (h : step requests s a = some s') : Inv s' := by
  cases a with
  | load i => exact inv_load hinv h
  | checkTenants i => exact inv_checkTenants hinv h
  | checkServices i => exact inv_checkServices hinv h
  | commit i => exact inv_commit hinv hguard h
  | lock i => exact inv_lock hinv h
  | checkTier i => exact inv_checkTier hinv h
  | write i => exact inv_write hinv hguard h
  | abort i => exact inv_abort hinv h
  | mapServices services => exact inv_mapServices hinv h

end Steps

/-! ## No tenant on a disabled tier -/

/-- No call has begun. -/
def State.start (d : Databases) : State := ⟨d, fun _ => none, fun _ => .idle⟩

/-- **No tenant on a disabled tier.** When no disabling of a tier commits next to an assignment
to it that has passed its check, and no assignment next to a disabling that has, every tenant's
tier is ACTIVE in every state of the run. -/
theorem no_tenant_on_disabled_tier (requests : Nat → Request) (d : Databases) (s : State)
    (labels : List Label) (hstart : NoneDisabled d)
    (hrun : Run (step requests) (State.start d) labels s)
    (hguard : Guarded (step requests) Apart (State.start d) labels) : NoneDisabled s.db := by
  have hinv : Inv s :=
    Run.guardedInvariant (fun _ _ _ hm hG h => inv_step hm hG h) hrun hguard
      ⟨hstart, fun _ => trivial⟩
  exact hinv.sound

/-! ## A tier is disabled while it is assigned -/

/-- A call has not begun or is over. -/
def Phase.finished : Phase → Bool
  | .idle | .succeeded | .failed _ | .aborted => true
  | _ => false

/-- No call is running. -/
def Quiescent (s : State) : Prop := ∀ i, (s.phases i).finished = true

/-- An ACTIVE tier, and a tenant that has none. -/
def freeTier : Databases where
  tiers := [⟨5, .active⟩]
  services := []
  tenants := [⟨1, none⟩]

theorem freeTier_noneDisabled : NoneDisabled freeTier := by
  intro t ht tierId htier
  obtain rfl := List.mem_singleton.mp ht
  cases htier

/-- Call 0 assigns the tier, every other call deactivates it. -/
def assignAndDeactivate (i : Nat) : Request :=
  if i = 0 then .assignTenantTier 1 (some 5) true true
  else .updateTierStatus (some 5) .deactivated true

/-- The deactivation, from its first read to its commit. -/
def deactivation : List Label := [.load 1, .checkTenants 1, .checkServices 1, .commit 1]

/-- Both calls pass their checks, then both commit: the tenant is on a DEACTIVATED tier. -/
theorem tenant_on_disabled_tier :
    NoneDisabled freeTier ∧ ∃ s, Run (step assignAndDeactivate) (State.start freeTier)
        ([.lock 0, .checkTier 0] ++ deactivation ++ [.write 0]) s ∧
      Quiescent s ∧ ¬NoneDisabled s.db := by
  refine ⟨freeTier_noneDisabled, final (step assignAndDeactivate) (State.start freeTier)
    ([.lock 0, .checkTier 0] ++ deactivation ++ [.write 0]), run_final (by decide), ?_, ?_⟩
  · intro i
    match i with
    | 0 => rfl
    | 1 => rfl
    | i + 2 => rfl
  · intro hnone
    exact absurd (hnone ⟨1, some 5⟩ (by decide) 5 rfl) (by decide)

/-- One call after the other: the deactivation finds the tenant. -/
theorem no_tenant_on_disabled_tier_in_turn :
    ∃ s, Run (step assignAndDeactivate) (State.start freeTier)
        [.lock 0, .checkTier 0, .write 0, .load 1, .checkTenants 1] s ∧
      s.db.tenants = [⟨1, some 5⟩] ∧ NoneDisabled s.db := by
  refine ⟨final (step assignAndDeactivate) (State.start freeTier)
    [.lock 0, .checkTier 0, .write 0, .load 1, .checkTenants 1], run_final (by decide),
    by decide, ?_⟩
  refine no_tenant_on_disabled_tier assignAndDeactivate freeTier _
    [.lock 0, .checkTier 0, .write 0, .load 1, .checkTenants 1] freeTier_noneDisabled
    (run_final (by decide)) ?_
  refine ⟨trivial, fun m hm => ⟨trivial, fun n hn => ⟨?_, fun o ho => ⟨trivial, fun p hp =>
    ⟨trivial, fun _ _ => trivial⟩⟩⟩⟩⟩
  -- nothing but call 0 has begun when it writes
  cases hm
  cases hn
  intro tenantId tierId _ j target
  match j with
  | 0 => exact ⟨(fun h => nomatch h), fun h => nomatch h⟩
  | j + 1 => exact ⟨(fun h => nomatch h), fun h => nomatch h⟩

end Ai4iCore.Tier
