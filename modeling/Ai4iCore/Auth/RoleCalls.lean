import Ai4iCore.Auth.LastAdmin
import Ai4iCore.Base.Lock

/-!
# Role calls, statement by statement

`assign_role` and `remove_role` of `RoleService`, `update_tenant_user_status` and
`delete_tenant_user` of `TenantService`, for any number of calls. Each call is one transaction at
READ COMMITTED: a statement sees what is committed when it runs, and what the call writes is
committed in one step. `pg_advisory_xact_lock` of the tenant's id is held from its statement to
the end of the transaction.

A loaded user stays as it was loaded, and the flush writes only the columns that then differ.
Besides the user, the reads at the beginning of a call see roles and tenants, which no call
writes; they are one statement. The checks on the caller, and the one that the tenant is ACTIVE,
refuse calls and do nothing else; a call they refuse is one that aborts. Columns that none of
these calls reads (`updated_by`, `activated_at` and the like) are left out.
-/

namespace Ai4iCore.Auth.RoleCalls

open Checked StepSystem

/-! ## The database -/

/-- A row of `user_role`, with its key. -/
structure Grant where
  id : Nat
  userId : UserId
  role : RoleName
deriving Repr, DecidableEq

/-- `nextGrant` is the sequence of `user_role.id`. -/
structure Database where
  accounts : Accounts
  catalogue : List RoleName
  grants : List Grant
  nextGrant : Nat
deriving Repr, DecidableEq

namespace Database

/-- The tables as the queries of `RoleStore` read them. -/
def view (d : Database) : RoleStore :=
  ⟨d.accounts, d.catalogue, d.grants.map fun g => ⟨g.userId, g.role⟩⟩

/-- The rows of a pair. -/
def records (d : Database) (id : UserId) (role : RoleName) : List Grant :=
  d.grants.filter fun g => g.userId = id && g.role = role

/-- `get_user_role_record`, and the first statement of `remove_role` of the repository:
`scalar_one_or_none` raises when there are several. -/
def record (d : Database) (id : UserId) (role : RoleName) : Except RoleError (Option Grant) :=
  match d.records id role with
  | [] => .ok none
  | [g] => .ok (some g)
  | _ => .error .multipleResultsFound

/-- The Default Organisation, when the user is in it. -/
def defaultTenantOf (d : Database) (target : Option User) : Option Tenant :=
  ((target.bind User.tenantId).bind d.accounts.tenant).filter isDefaultTenant

/-- The tenant whose lock an assignment waits for. -/
def rosterOf (d : Database) (id : UserId) (role : RoleName) : Option Nat :=
  if role = .admin then (d.defaultTenantOf (d.accounts.getById id)).map Tenant.id else none

end Database

/-- What a call commits. A column that does not change is not written (`none`, `false`). -/
inductive Write
  | insertGrant (id : UserId) (role : RoleName)
  | deleteGrant (grant : Nat)
  | setActive (id : UserId) (flag : Option Bool)
  | markDeleted (id : UserId) (deactivates : Bool)
deriving Repr, DecidableEq

namespace Database

def deleteUser (u : User) (deactivates : Bool) : User :=
  { u with
    isDelete := true
    isActive := !deactivates && u.isActive
    email := "del_" ++ toString u.id }

/-- The write takes effect. -/
def apply (d : Database) : Write → Database
  | .insertGrant id role =>
    { d with grants := d.grants ++ [⟨d.nextGrant, id, role⟩], nextGrant := d.nextGrant + 1 }
  | .deleteGrant grant => { d with grants := d.grants.filter fun g => g.id ≠ grant }
  | .setActive id flag =>
    { d with accounts := d.accounts.modifyUser id fun u =>
        { u with isActive := flag.getD u.isActive } }
  | .markDeleted id deactivates =>
    { d with accounts := d.accounts.modifyUser id fun u => deleteUser u deactivates }

/-- A grant refers to a user and a role; nothing else can fail. -/
def accepts (d : Database) : Write → Bool
  | .insertGrant id role => (d.accounts.user id).isSome && decide (role ∈ d.catalogue)
  | _ => true

end Database

/-! ## The calls -/

inductive Request
  | assignRole (target : UserId) (role : RoleName)
  | removeRole (target : UserId) (role : RoleName)
  | updateTenantUserStatus (tenantId : Nat) (target : UserId) (isActive : Bool)
  | deleteTenantUser (tenantId : Nat) (target : UserId)
deriving Repr, DecidableEq

/-- `assign_role` or `remove_role`. -/
def Request.isRoleRequest : Request → Bool
  | .assignRole _ _ | .removeRole _ _ => true
  | _ => false

/-- How far a call is. `counted` is the tenant whose ADMINs were counted under its lock. -/
inductive Phase
  | idle
  /-- `_lock_default_org_admin_roster` waits for the lock. -/
  | rosterLock (tenantId : Nat)
  /-- `assign_role` looks for a row of the pair. -/
  | lookup
  /-- `_assert_role_removal_keeps_a_platform_admin` waits for the lock, and counts. -/
  | removalLock (tenantId : Nat)
  | removalCount (tenantId : Nat)
  /-- `remove_role` looks for the row. -/
  | select (counted : Option Nat)
  /-- `_assert_not_last_tenant_admin` or `_assert_not_last_platform_admin` reads the roles of the
  loaded user, waits for the lock, and counts. -/
  | guardRoles (role : RoleName) (tenant : Tenant) (target : User)
  | guardLock (role : RoleName) (tenant : Tenant) (target : User)
  | guardCount (role : RoleName) (tenant : Tenant) (target : User)
  | writing (write : Write) (counted : Option Nat)
  | succeeded
  | failed (e : RoleError)
  | aborted
deriving Repr, DecidableEq

def Phase.isDone : Phase → Bool
  | .succeeded | .failed _ | .aborted => true
  | _ => false

/-- What a call on a loaded user writes. -/
def Request.write (target : User) : Request → Write
  | .updateTenantUserStatus _ id isActive =>
    .setActive id (if target.isActive = isActive then none else some isActive)
  | .deleteTenantUser _ id => .markDeleted id target.isActive
  | .assignRole id _ | .removeRole id _ => .setActive id none

section Statements

variable (d : Database)

/-- `assign_role` up to its first statement on the grants, or the lock. -/
def loadAssign (id : UserId) (role : RoleName) : Except RoleError Phase := do
  require (decide (role ∈ d.catalogue)) .entityNotFound
  if role = .user then return .lookup
  else do
    RoleStore.assertRoleAssignableToCreationType (d.accounts.getById id)
    if role = .admin then
      return (d.defaultTenantOf (d.accounts.getById id)).elim .lookup fun t => .rosterLock t.id
    else return .lookup

/-- `remove_role`, likewise: a user that is not active is not counted. -/
def loadRemove (id : UserId) (role : RoleName) : Except RoleError Phase := do
  require (decide (role ∈ d.catalogue)) .entityNotFound
  match role with
  | .user =>
    require (!(d.accounts.getById id).any User.isSelfRegistered) .selfRegisteredRoleRestricted
    return .select none
  | .admin =>
    return (d.defaultTenantOf ((d.accounts.getById id).filter User.isActive)).elim (.select none)
      fun t => .removalLock t.id
  | _ => return .select none

/-- `_assert_not_last_platform_admin` up to its first statement. -/
def platformGuard (r : Request) (tenant : Tenant) (target : User) : Phase :=
  if !isDefaultTenant tenant || !target.isActive then .writing (r.write target) none
  else .guardRoles .admin tenant target

/-- What follows the guard for `role`. -/
def afterGuard (r : Request) (role : RoleName) (tenant : Tenant) (target : User)
    (counted : Option Nat) : Phase :=
  if role = .admin then .writing (r.write target) counted else platformGuard r tenant target

/-- `update_tenant_user_status`: only a suspension is guarded. -/
def loadStatus (tenantId : Nat) (id : UserId) (isActive : Bool) : Except RoleError Phase := do
  let tenant ← orRaise (d.accounts.tenant tenantId) .entityNotFound
  let target ← d.view.loadTenantUser tenantId id
  let r : Request := .updateTenantUserStatus tenantId id isActive
  return if isActive then .writing (r.write target) none else platformGuard r tenant target

/-- `delete_tenant_user`. -/
def loadDelete (tenantId : Nat) (id : UserId) : Except RoleError Phase := do
  let tenant ← orRaise (d.accounts.tenant tenantId) .entityNotFound
  let target ← d.view.loadTenantUser tenantId id
  return .guardRoles .tenantAdmin tenant target

def Request.load : Request → Except RoleError Phase
  | .assignRole id role => loadAssign d id role
  | .removeRole id role => loadRemove d id role
  | .updateTenantUserStatus tenantId id isActive => loadStatus d tenantId id isActive
  | .deleteTenantUser tenantId id => loadDelete d tenantId id

/-- `LAST_TENANT_ADMIN` and `LAST_PLATFORM_ADMIN`. -/
def lastAdminError (role : RoleName) : RoleError :=
  if role = .admin then .lastPlatformAdmin else .lastTenantAdmin

/-- The next statement of a call, when it is a read. -/
def read (r : Request) : Phase → Option (Except RoleError Phase)
  | .idle => some (r.load d)
  | .lookup =>
    match r with
    | .assignRole id role => some do
      let existing ← d.record id role
      return if existing.isSome then .succeeded else .writing (.insertGrant id role) none
    | _ => none
  | .removalCount tenantId => some do
    require (1 < d.view.countInTenant .admin tenantId) .lastPlatformAdmin
    return .select (some tenantId)
  | .select counted =>
    match r with
    | .removeRole id role => some do
      let grant ← orRaise (← d.record id role) .roleNotHeld
      return .writing (.deleteGrant grant.id) counted
    | _ => none
  | .guardRoles role tenant target =>
    some (.ok (if role ∈ d.view.getUserRoles target.id then .guardLock role tenant target
      else afterGuard r role tenant target none))
  | .guardCount role tenant target => some do
    require (1 < d.view.countInTenant role tenant.id) (lastAdminError role)
    return afterGuard r role tenant target (some tenant.id)
  | _ => none

end Statements

/-- The lock a call waits for, and how it goes on with it. -/
def Phase.wants : Phase → Option (Nat × Phase)
  | .rosterLock tenantId => some (tenantId, .lookup)
  | .removalLock tenantId => some (tenantId, .removalCount tenantId)
  | .guardLock role tenant target => some (tenant.id, .guardCount role tenant target)
  | _ => none

/-! ## Steps -/

structure State where
  db : Database
  /-- The advisory locks, by tenant. -/
  locks : Locks Nat
  phases : Nat → Phase

/-- The next statement of call `i`, or its end by an error. -/
inductive Label
  | run (i : Nat)
  | abort (i : Nat)
deriving Repr, DecidableEq

def State.set (s : State) (i : Nat) (p : Phase) : State :=
  { s with phases := Function.update s.phases i p }

/-- The transaction of `i` ends. -/
def State.close (s : State) (i : Nat) (p : Phase) : State :=
  { s.set i p with locks := s.locks.release i }

/-- Call `i` has gone on to `p`. -/
def State.goOn (s : State) (i : Nat) (p : Phase) : State :=
  if p.isDone then s.close i p else s.set i p

/-- The flush and the commit. -/
def State.commit (s : State) (i : Nat) (write : Write) : State :=
  if s.db.accepts write then { s.close i .succeeded with db := s.db.apply write }
  else s.close i (.failed .integrityError)

/-- The statement of call `i` at `p`, which is no write. -/
def State.statement (requests : Nat → Request) (s : State) (i : Nat) (p : Phase) : Option State :=
  match p.wants with
  | some (tenantId, p') =>
    if s.locks.mayTake i tenantId then
      some { s.set i p' with locks := s.locks.take i tenantId }
    else none
  | none =>
    (read s.db (requests i) p).map fun result =>
      match result with
      | .ok p' => s.goOn i p'
      | .error e => s.close i (.failed e)

def step (requests : Nat → Request) (s : State) : Label → Option State
  | .run i =>
    match s.phases i with
    | .writing write _ => some (s.commit i write)
    | p => s.statement requests i p
  | .abort i => if (s.phases i).isDone then none else some (s.close i .aborted)

/-- No call has begun. -/
def State.start (d : Database) : State := ⟨d, fun _ => none, fun _ => .idle⟩

/-! ## Keys -/

/-- The keys of both tables are unique. -/
structure Database.WellFormed (d : Database) : Prop where
  users : d.accounts.WellFormed
  grants : (d.grants.map (·.id)).Nodup
  next : ∀ g ∈ d.grants, g.id < d.nextGrant

section Keys

variable {d : Database}

theorem mem_roles {id : UserId} {role : RoleName} : role ∈ d.view.getUserRoles id ↔
    ∃ g ∈ d.grants, g.userId = id ∧ g.role = role := by
  rw [RoleStore.mem_getUserRoles]
  show _ ∈ d.grants.map _ ↔ _
  simp only [List.mem_map, UserRole.mk.injEq]

theorem wellFormed_apply (hd : d.WellFormed) (w : Write) : (d.apply w).WellFormed := by
  have husers : ∀ (user : UserId) (f : User → User), (∀ u, (f u).id = u.id) →
      (d.accounts.modifyUser user f).WellFormed := fun user f hf =>
    RoleStore.modifyUser_wellFormed (s := d.view) hf hd.users
  cases w with
  | insertGrant user role =>
    refine ⟨hd.users, Table.nodup_append_of_not_mem hd.grants fun hmem => ?_, fun g hg => ?_⟩
    · obtain ⟨g, hg, hid⟩ := List.mem_map.mp hmem
      exact Nat.ne_of_lt (hd.next g hg) hid
    · obtain hg | hg := List.mem_append.mp hg
      · exact Nat.lt_succ_of_lt (hd.next g hg)
      · rw [List.mem_singleton.mp hg]
        exact Nat.lt_succ_self _
  | deleteGrant grant =>
    exact ⟨hd.users, hd.grants.sublist (List.filter_sublist.map _),
      fun g hg => hd.next g (List.mem_filter.mp hg).1⟩
  | setActive user flag => exact ⟨husers _ _ fun _ => rfl, hd.grants, hd.next⟩
  | markDeleted user deactivates => exact ⟨husers _ _ fun _ => rfl, hd.grants, hd.next⟩

end Keys

/-! ## What a read can lead to -/

section Reads

/-- Where the reads at the beginning of a call lead. -/
inductive Loaded (d : Database) : Request → Phase → Prop
  | lookup {id : UserId} {role : RoleName} (hroster : d.rosterOf id role = none) :
      Loaded d (.assignRole id role) .lookup
  | rosterLock {id : UserId} {role : RoleName} {t : Nat} (hroster : d.rosterOf id role = some t) :
      Loaded d (.assignRole id role) (.rosterLock t)
  | select {id : UserId} {role : RoleName} : Loaded d (.removeRole id role) (.select none)
  | removalLock {id : UserId} {role : RoleName} {t : Nat} :
      Loaded d (.removeRole id role) (.removalLock t)
  | unguarded {r : Request} {target : User} (hrole : r.isRoleRequest = false) :
      Loaded d r (.writing (r.write target) none)
  | guarded {r : Request} {role : RoleName} {tenant : Tenant} {target : User}
      (hrole : r.isRoleRequest = false) : Loaded d r (.guardRoles role tenant target)

/-- Where a read leads that does not raise. -/
inductive Reads (d : Database) : Request → Phase → Phase → Prop
  | load {r : Request} {p : Phase} (h : Loaded d r p) : Reads d r .idle p
  | found {id : UserId} {role : RoleName} : Reads d (.assignRole id role) .lookup .succeeded
  | missing {id : UserId} {role : RoleName} (hnil : d.records id role = []) :
      Reads d (.assignRole id role) .lookup (.writing (.insertGrant id role) none)
  | counted {r : Request} {t : Nat} (hcount : 1 < d.view.countInTenant .admin t) :
      Reads d r (.removalCount t) (.select (some t))
  | selected {id : UserId} {role : RoleName} {g : Grant} {counted : Option Nat}
      (hone : d.records id role = [g]) :
      Reads d (.removeRole id role) (.select counted) (.writing (.deleteGrant g.id) counted)
  | holds {r : Request} {role : RoleName} {tenant : Tenant} {target : User} :
      Reads d r (.guardRoles role tenant target) (.guardLock role tenant target)
  | guardCounted {r : Request} {tenant : Tenant} {target : User}
      (hcount : 1 < d.view.countInTenant .admin tenant.id) :
      Reads d r (.guardCount .admin tenant target) (.writing (r.write target) (some tenant.id))
  | unguarded {r : Request} {role : RoleName} {tenant : Tenant} {target : User} {p : Phase}
      (hp : p = .guardRoles role tenant target ∨ p = .guardCount role tenant target) :
      Reads d r p (.writing (r.write target) none)
  | platformGuard {r : Request} {role : RoleName} {tenant : Tenant} {target : User} {p : Phase}
      (hp : p = .guardRoles role tenant target ∨ p = .guardCount role tenant target) :
      Reads d r p (.guardRoles .admin tenant target)

variable {d : Database} {r : Request} {p p' : Phase}

theorem record_ok {id : UserId} {role : RoleName} {found : Option Grant}
    (h : d.record id role = .ok found) : d.records id role = found.toList := by
  unfold Database.record at h
  split at h
  · rename_i hnil
    obtain rfl := Except.ok.inj h
    exact hnil
  · rename_i g hone
    obtain rfl := Except.ok.inj h
    exact hone
  · cases h

theorem loadAssign_cases {id : UserId} {role : RoleName} (h : loadAssign d id role = .ok p) :
    Loaded d (.assignRole id role) p := by
  obtain ⟨-, h⟩ := require_bind h
  split at h
  · rename_i huser
    obtain rfl := Except.ok.inj h
    exact .lookup (if_neg (by rw [huser]; decide))
  · obtain ⟨_, -, h⟩ := bind_ok h
    split at h
    · rename_i hadmin
      obtain rfl := Except.ok.inj h
      cases htenant : d.defaultTenantOf (d.accounts.getById id) with
      | none => exact .lookup (by rw [Database.rosterOf, if_pos hadmin, htenant]; rfl)
      | some t => exact .rosterLock (by rw [Database.rosterOf, if_pos hadmin, htenant]; rfl)
    · rename_i hadmin
      obtain rfl := Except.ok.inj h
      exact .lookup (if_neg hadmin)

theorem loadRemove_cases {id : UserId} {role : RoleName} (h : loadRemove d id role = .ok p) :
    Loaded d (.removeRole id role) p := by
  obtain ⟨-, h⟩ := require_bind h
  split at h
  · obtain ⟨-, h⟩ := require_bind h
    obtain rfl := Except.ok.inj h
    exact .select
  · obtain rfl := Except.ok.inj h
    cases d.defaultTenantOf ((d.accounts.getById id).filter User.isActive) with
    | none => exact .select
    | some t => exact .removalLock
  · obtain rfl := Except.ok.inj h
    exact .select

theorem load_cases (h : r.load d = .ok p) : Loaded d r p := by
  cases r with
  | assignRole id role => exact loadAssign_cases h
  | removeRole id role => exact loadRemove_cases h
  | updateTenantUserStatus tenantId id isActive =>
    obtain ⟨tenant, -, h⟩ := orRaise_bind h
    obtain ⟨target, -, h⟩ := bind_ok h
    obtain rfl := Except.ok.inj h
    split
    · exact .unguarded rfl
    · unfold platformGuard
      split
      · exact .unguarded rfl
      · exact .guarded rfl
  | deleteTenantUser tenantId id =>
    obtain ⟨tenant, -, h⟩ := orRaise_bind h
    obtain ⟨target, -, h⟩ := bind_ok h
    obtain rfl := Except.ok.inj h
    exact .guarded rfl

theorem platformGuard_cases {role : RoleName} {tenant : Tenant} {target : User}
    (hp : p = .guardRoles role tenant target ∨ p = .guardCount role tenant target) :
    Reads d r p (platformGuard r tenant target) := by
  unfold platformGuard
  split
  · exact .unguarded hp
  · exact .platformGuard hp

theorem read_cases (h : read d r p = some (.ok p')) : Reads d r p p' := by
  cases p with
  | idle => exact .load (load_cases (Option.some.inj h))
  | lookup =>
    cases r with
    | assignRole id role =>
      obtain ⟨found, hrecord, h⟩ := bind_ok (Option.some.inj h)
      obtain rfl := Except.ok.inj h
      cases found with
      | some g => exact .found
      | none => exact .missing (record_ok hrecord)
    | _ => cases h
  | removalCount tenantId =>
    obtain ⟨hcount, h⟩ := require_bind (Option.some.inj h)
    obtain rfl := Except.ok.inj h
    exact .counted (of_decide_eq_true hcount)
  | select counted =>
    cases r with
    | removeRole id role =>
      obtain ⟨found, hrecord, h⟩ := bind_ok (Option.some.inj h)
      obtain ⟨g, rfl, h⟩ := orRaise_bind h
      obtain rfl := Except.ok.inj h
      exact .selected (record_ok hrecord)
    | _ => cases h
  | guardRoles role tenant target =>
    obtain rfl := Except.ok.inj (Option.some.inj h)
    split
    · exact .holds
    · unfold afterGuard
      split
      · exact .unguarded (.inl rfl)
      · exact platformGuard_cases (.inl rfl)
  | guardCount role tenant target =>
    obtain ⟨hcount, h⟩ := require_bind (Option.some.inj h)
    obtain rfl := Except.ok.inj h
    unfold afterGuard
    split
    · rename_i hrole
      subst hrole
      exact .guardCounted (of_decide_eq_true hcount)
    · exact platformGuard_cases (.inr rfl)
  | _ => cases h

/-- No call begins twice. -/
theorem read_ne_idle (h : read d r p = some (.ok p')) : p' ≠ .idle := by
  rintro rfl
  cases read_cases h with
  | load h => cases h

end Reads

/-! ## What a step can do -/

section Cases

variable {requests : Nat → Request} {s s' : State}

/-- A call ends without an effect, commits its write, takes its lock, or goes on. -/
inductive Steps (requests : Nat → Request) (s : State) (i : Nat) : State → Prop
  | close (p : Phase) (hp : p.isDone = true) : Steps requests s i (s.close i p)
  | write (write : Write) (counted : Option Nat) (hphase : s.phases i = .writing write counted)
      (haccepts : s.db.accepts write = true) :
      Steps requests s i { s.close i .succeeded with db := s.db.apply write }
  | lock (tenantId : Nat) (p : Phase) (hwants : (s.phases i).wants = some (tenantId, p))
      (hmay : s.locks.mayTake i tenantId = true) :
      Steps requests s i { s.set i p with locks := s.locks.take i tenantId }
  | go (p : Phase) (hread : read s.db (requests i) (s.phases i) = some (.ok p))
      (hp : p.isDone = false) : Steps requests s i (s.set i p)

theorem statement_cases {i : Nat} (h : s.statement requests i (s.phases i) = some s') :
    Steps requests s i s' := by
  unfold State.statement at h
  split at h
  · rename_i tenantId p' hwants
    split at h
    · rename_i hmay
      obtain rfl := Option.some.inj h
      exact .lock tenantId p' hwants hmay
    · cases h
  · obtain ⟨result, hread, rfl⟩ := Option.map_eq_some_iff.mp h
    cases result with
    | error e => exact .close (.failed e) rfl
    | ok p' =>
      show Steps requests s i (s.goOn i p')
      unfold State.goOn
      split
      · rename_i hdone
        exact .close p' hdone
      · rename_i hdone
        exact .go p' hread (by simpa using hdone)

theorem step_cases {a : Label} (h : step requests s a = some s') :
    ∃ i, (a = .run i ∨ a = .abort i ∧ s' = s.close i .aborted) ∧ Steps requests s i s' := by
  cases a with
  | abort i =>
    change (if (s.phases i).isDone then none else some _) = _ at h
    split at h
    · cases h
    · obtain rfl := Option.some.inj h
      exact ⟨i, .inr ⟨rfl, rfl⟩, .close .aborted rfl⟩
  | run i =>
    refine ⟨i, .inl rfl, ?_⟩
    unfold step at h
    dsimp only at h
    split at h
    · rename_i write counted hphase
      obtain rfl := Option.some.inj h
      unfold State.commit
      split
      · rename_i haccepts
        exact .write write counted hphase haccepts
      · exact .close _ rfl
    · exact statement_cases h

theorem wellFormed_step {a : Label} (hd : s.db.WellFormed) (h : step requests s a = some s') :
    s'.db.WellFormed := by
  obtain ⟨i, -, hsteps⟩ := step_cases h
  cases hsteps with
  | write w counted _ _ => exact wellFormed_apply hd w
  | _ => exact hd

end Cases

end Ai4iCore.Auth.RoleCalls
