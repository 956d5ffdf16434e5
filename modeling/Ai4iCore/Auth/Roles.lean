import Ai4iCore.Auth.Account
import Ai4iCore.Base.Checked

/-!
# Role requests

The four requests that change the roles of a user: `POST /auth/roles/assign` and
`/auth/roles/remove` (`routes/role.py`), and `create_tenant_user` and
`update_tenant_user` with a role (`tenant_service.py`). All grants go through
`RoleService.assign_role`, which is additive, but each request stands behind
guards of its own: the role of the caller, the tenant of the target, how the
account was created, the Default Organisation, the last administrator.

A request that fails rolls its transaction back, so a handler is a function from
the store to a new store or an error. The permission check of the gateway stands
before these handlers and only refuses more requests.
-/

namespace Ai4iCore.Auth

open ApiKey (TenantStatus)
open Checked

/-- `RoleName`. -/
inductive RoleName
  | admin
  | user
  | guest
  | moderator
  | tenantAdmin
  | usageViewer
deriving Repr, DecidableEq

/-- `TenantUserRole`: the roles a tenant hands out itself. -/
inductive TenantUserRole
  | user
  | tenantAdmin
deriving Repr, DecidableEq

/-- The role's name. -/
def TenantUserRole.value : TenantUserRole → RoleName
  | .user => .user
  | .tenantAdmin => .tenantAdmin

/-- `tenant_roles` of `_set_tenant_user_role`. -/
def RoleName.isTenantUserRole (r : RoleName) : Bool := r = .user || r = .tenantAdmin

/-- Why a role request is refused. -/
inductive RoleError
  | userNotFound
  | userInactive
  | insufficientPermissions
  | entityNotFound
  | tenantForbidden
  | defaultOrgProtected
  | selfRegisteredRoleRestricted
  | lastPlatformAdmin
  | roleNotHeld
  | tenantNotActive
  | duplicateEntity
  | userNotInTenant
  | contactRoleLocked
  | lastTenantAdmin
  | multipleResultsFound
  | integrityError
deriving Repr, DecidableEq

/-- A row of `user_role`. -/
structure UserRole where
  userId : UserId
  role : RoleName
deriving Repr, DecidableEq

/-- The accounts, the catalogue of roles and who holds which. -/
structure RoleStore where
  accounts : Accounts
  catalogue : List RoleName
  userRoles : List UserRole
deriving Repr, DecidableEq

namespace RoleStore

/-! ## Queries -/

/-- `get_user_roles`, the latest first. -/
def getUserRoles (s : RoleStore) (id : UserId) : List RoleName :=
  ((s.userRoles.filter fun r => r.userId = id).map UserRole.role).reverse

/-- `get_user_role_record`: `scalar_one_or_none` raises when there are several. -/
def getUserRoleRecord (s : RoleStore) (id : UserId) (role : RoleName) :
    Except RoleError (Option UserRole) :=
  match s.userRoles.filter fun r => r.userId = id && r.role = role with
  | [] => .ok none
  | [r] => .ok (some r)
  | _ => .error .multipleResultsFound

/-- `count_admins_in_tenant` and `count_tenant_admins_in_tenant`. -/
def countInTenant (s : RoleStore) (role : RoleName) (tenantId : Nat) : Nat :=
  (s.accounts.users.filter fun u => u.tenantId = some tenantId && !u.isDelete && u.isActive &&
    decide (role ∈ s.getUserRoles u.id)).length

/-! ## Guards on the caller -/

/-- `get_current_user`. -/
def getCurrentUser (s : RoleStore) (caller : UserId) : Except RoleError User := do
  let u ← orRaise (s.accounts.getById caller) .userNotFound
  require u.isActive .userInactive
  return u

/-- `PermissionChecker.has_any_role`. -/
def hasAnyRole (s : RoleStore) (id : UserId) (names : List RoleName) : Bool :=
  names.any fun r => decide (r ∈ s.getUserRoles id)

/-- `require_any_role`. -/
def requireAnyRole (s : RoleStore) (caller : UserId) (names : List RoleName) :
    Except RoleError User := do
  let u ← s.getCurrentUser caller
  require (s.hasAnyRole u.id names) .insufficientPermissions
  return u

/-- `enforce_target_user_same_tenant`. Nothing sets `request.state.tenant_id`, so the
tenant compared is the caller's own. -/
def enforceTargetUserSameTenant (s : RoleStore) (current : User) (target : UserId)
    (bypassRoles : List RoleName) : Except RoleError Unit :=
  if s.hasAnyRole current.id bypassRoles then .ok ()
  else do
    let u ← orRaise (s.accounts.getById target) .entityNotFound
    require (current.tenantId.any (· ≠ 0) && current.tenantId = u.tenantId) .tenantForbidden

/-- `enforce_scope`. -/
def enforceScope (s : RoleStore) (current : User) (tenantId : Nat) : Except RoleError Unit :=
  if s.hasAnyRole current.id [.admin, .moderator] then .ok ()
  else require (current.tenantId = some tenantId) .tenantForbidden

/-- `_deny_moderator`. -/
def denyModerator (s : RoleStore) (current : User) : Except RoleError Unit :=
  require (!s.hasAnyRole current.id [.moderator]) .insufficientPermissions

/-! ## Guards on the target -/

/-- `assert_tenant_admin_assignable`. -/
def assertTenantAdminAssignable (s : RoleStore) (tenantId : Option Nat) :
    Except RoleError Unit :=
  match tenantId with
  | none => .ok ()
  | some id => do
    let tenant ← orRaise (s.accounts.tenant id) .entityNotFound
    require (!isDefaultTenant tenant) .defaultOrgProtected

/-- `_assert_role_assignable_to_creation_type`, for a role other than USER. -/
def assertRoleAssignableToCreationType (target : Option User) : Except RoleError Unit :=
  require (!target.any User.isSelfRegistered) .selfRegisteredRoleRestricted

/-- `_assert_role_removal_keeps_a_platform_admin`. -/
def assertRoleRemovalKeepsAPlatformAdmin (s : RoleStore) (id : UserId) :
    Except RoleError Unit :=
  match (s.accounts.getById id).filter User.isActive with
  | none => .ok ()
  | some target =>
    match (target.tenantId.bind s.accounts.tenant).filter isDefaultTenant with
    | none => .ok ()
    | some tenant => require (1 < s.countInTenant .admin tenant.id) .lastPlatformAdmin

/-- `_assert_not_last_tenant_admin`. -/
def assertNotLastTenantAdmin (s : RoleStore) (target : User) (tenant : Tenant) :
    Except RoleError Unit :=
  if s.hasAnyRole target.id [.tenantAdmin] then
    require (1 < s.countInTenant .tenantAdmin tenant.id) .lastTenantAdmin
  else .ok ()

/-- `_assert_tenant_admin_demotable`. -/
def assertTenantAdminDemotable (s : RoleStore) (target : User) (tenant : Tenant) :
    Except RoleError Unit :=
  if s.hasAnyRole target.id [.tenantAdmin] then do
    require (target.email ≠ tenant.email) .contactRoleLocked
    if target.isActive then s.assertNotLastTenantAdmin target tenant else .ok ()
  else .ok ()

/-! ## `RoleService` -/

/-- The guard of `assign_role`: a self-registered user holds USER only. -/
def assignGuard (s : RoleStore) (id : UserId) (role : RoleName) : Except RoleError Unit :=
  if role = .user then .ok () else assertRoleAssignableToCreationType (s.accounts.getById id)

/-- `INSERT` into `user_role`; the user has to exist. -/
def insertUserRole (s : RoleStore) (id : UserId) (role : RoleName) :
    Except RoleError RoleStore := do
  require (s.accounts.user id).isSome .integrityError
  return { s with userRoles := s.userRoles ++ [⟨id, role⟩] }

/-- `RoleService.assign_role`. A role already held is silently kept. -/
def assignRole (s : RoleStore) (id : UserId) (role : RoleName) :
    Except RoleError RoleStore := do
  require (decide (role ∈ s.catalogue)) .entityNotFound
  s.assignGuard id role
  let existing ← s.getUserRoleRecord id role
  if existing.isSome then return s else s.insertUserRole id role

/-- The guards of `remove_role`. -/
def removeGuard (s : RoleStore) (id : UserId) (role : RoleName) : Except RoleError Unit :=
  match role with
  | .user => require (!(s.accounts.getById id).any User.isSelfRegistered)
      .selfRegisteredRoleRestricted
  | .admin => s.assertRoleRemovalKeepsAPlatformAdmin id
  | _ => .ok ()

/-- `RoleService.remove_role`. -/
def removeRole (s : RoleStore) (id : UserId) (role : RoleName) :
    Except RoleError RoleStore := do
  require (decide (role ∈ s.catalogue)) .entityNotFound
  s.removeGuard id role
  let record ← s.getUserRoleRecord id role
  require record.isSome .roleNotHeld
  return { s with userRoles := s.userRoles.erase ⟨id, role⟩ }

/-- `_set_tenant_user_role`: assign the new role, remove the other tenant roles. -/
def setTenantUserRole (s : RoleStore) (id : UserId) (role : TenantUserRole) :
    Except RoleError RoleStore := do
  let current := s.getUserRoles id
  let assigned ← s.assignRole id role.value
  (current.filter fun r => r.isTenantUserRole && r ≠ role.value).foldlM
    (fun s r => s.removeRole id r) assigned

/-! ## The requests -/

/-- `POST /auth/roles/assign`. -/
def assignRoleRoute (s : RoleStore) (caller target : UserId) (role : RoleName) :
    Except RoleError RoleStore := do
  let current ← s.requireAnyRole caller [.admin, .tenantAdmin]
  s.enforceTargetUserSameTenant current target [.admin, .moderator]
  if role = .tenantAdmin then do
    let u ← orRaise (s.accounts.getById target) .entityNotFound
    s.assertTenantAdminAssignable u.tenantId
    s.assignRole target role
  else s.assignRole target role

/-- `POST /auth/roles/remove`. -/
def removeRoleRoute (s : RoleStore) (caller target : UserId) (role : RoleName) :
    Except RoleError RoleStore := do
  let current ← s.requireAnyRole caller [.admin, .tenantAdmin]
  s.enforceTargetUserSameTenant current target [.admin, .moderator]
  s.removeRole target role

/-- `provision_user`, for a tenant user: inactive and without credentials. -/
def provisionUser (s : RoleStore) (id : UserId) (email : String) (tenantId : Nat)
    (role : RoleName) : Except RoleError RoleStore := do
  require (!s.accounts.emailExists email) .duplicateEntity
  require (s.accounts.user id).isNone .integrityError
  let user : User := ⟨id, email, some tenantId, false, none, false, true, some .tenant⟩
  let created := { s with accounts := { s.accounts with users := s.accounts.users ++ [user] } }
  match created.assignRole id role with
  -- a role missing from the catalogue is skipped
  | .error .entityNotFound => return created
  | result => result

/-- `create_tenant_user`. -/
def createTenantUser (s : RoleStore) (caller : UserId) (tenantId : Nat) (id : UserId)
    (email : String) (role : TenantUserRole) : Except RoleError RoleStore := do
  let current ← s.getCurrentUser caller
  s.enforceScope current tenantId
  s.denyModerator current
  let tenant ← orRaise (s.accounts.tenant tenantId) .entityNotFound
  require (tenant.status = .active) .tenantNotActive
  require (role ≠ .tenantAdmin || !isDefaultTenant tenant) .defaultOrgProtected
  s.provisionUser id email tenantId role.value

/-- The checks of `update_tenant_user` on a new role. -/
def updateRoleGuard (s : RoleStore) (target : User) (tenant : Tenant) :
    Option TenantUserRole → Except RoleError Unit
  | some .tenantAdmin => require (!isDefaultTenant tenant) .defaultOrgProtected
  | some .user => s.assertTenantAdminDemotable target tenant
  | none => .ok ()

/-- The profile part of `update_tenant_user`; addresses are unique. -/
def updateEmail (s : RoleStore) (id : UserId) (email : Option String) :
    Except RoleError RoleStore :=
  match email with
  | none => .ok s
  | some address => do
    require (!s.accounts.users.any fun u => u.email = address && u.id ≠ id) .integrityError
    return { s with accounts := s.accounts.modifyUser id fun u => { u with email := address } }

/-- `update_tenant_user`. -/
def updateTenantUser (s : RoleStore) (caller : UserId) (tenantId : Nat) (target : UserId)
    (email : Option String) (role : Option TenantUserRole) : Except RoleError RoleStore := do
  let current ← s.getCurrentUser caller
  s.enforceScope current tenantId
  s.denyModerator current
  let tenant ← orRaise (s.accounts.tenant tenantId) .entityNotFound
  let u ← orRaise (s.accounts.getById target) .entityNotFound
  require (u.tenantId = some tenantId) .userNotInTenant
  s.updateRoleGuard u tenant role
  let updated ← s.updateEmail target email
  match role with
  | none => return updated
  | some r => updated.setTenantUserRole target r

/-- A role request. -/
inductive Request
  | assignRole (target : UserId) (role : RoleName)
  | removeRole (target : UserId) (role : RoleName)
  | createTenantUser (tenantId : Nat) (id : UserId) (email : String) (role : TenantUserRole)
  | updateTenantUser (tenantId : Nat) (target : UserId) (email : Option String)
      (role : Option TenantUserRole)
deriving Repr, DecidableEq

/-- A request and who makes it. -/
structure Call where
  caller : UserId
  request : Request
deriving Repr, DecidableEq

/-- The handler of a request. -/
def handle (s : RoleStore) (c : Call) : Except RoleError RoleStore :=
  match c.request with
  | .assignRole target role => s.assignRoleRoute c.caller target role
  | .removeRole target role => s.removeRoleRoute c.caller target role
  | .createTenantUser tenantId id email role =>
    s.createTenantUser c.caller tenantId id email role
  | .updateTenantUser tenantId target email role =>
    s.updateTenantUser c.caller tenantId target email role

/-- An accepted request. -/
def step (s : RoleStore) (c : Call) : Option RoleStore := (s.handle c).toOption

end RoleStore

end Ai4iCore.Auth
