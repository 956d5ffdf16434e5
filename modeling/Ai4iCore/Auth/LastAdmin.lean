import Ai4iCore.Auth.RoleLaw

/-!
# The last administrator of a tenant

`_assert_not_last_tenant_admin` refuses a request that would leave a tenant without an
active TENANT ADMIN. Three requests can take the last one away: a deletion, a demotion
and a suspension; `delete_tenant_user` and the demotion in `update_tenant_user` ask the
guard, `update_tenant_user_status` and `/auth/roles/remove` do not
(`root_suspends_the_last_admin`).

Every accepted request leaves the administrators other than its target alone, so the
tenant keeps one exactly when these two spare the only one (`tenant_keeps_an_admin`).
-/

namespace Ai4iCore.Auth

open ApiKey (Time)
open Checked StepSystem

/-- Why a request on a tenant user is refused, next to the reasons of the role requests. -/
inductive UserError
  | role (e : RoleError)
  | selfDeactivationForbidden
deriving Repr, DecidableEq

namespace RoleStore

/-! ## Suspension and deletion -/

/-- `_load_tenant_user_or_404`. -/
def loadTenantUser (s : RoleStore) (tenantId : Nat) (id : UserId) : Except RoleError User := do
  let target ← orRaise (s.accounts.getById id) .entityNotFound
  require (target.tenantId = some tenantId) .userNotInTenant
  return target

/-- `_assert_not_last_platform_admin`. -/
def assertNotLastPlatformAdmin (s : RoleStore) (target : User) (tenant : Tenant) :
    Except RoleError Unit :=
  if !isDefaultTenant tenant then .ok ()
  else if !target.isActive then .ok ()
  else if s.hasAnyRole target.id [.admin] then
    require (1 < s.countInTenant .admin tenant.id) .lastPlatformAdmin
  else .ok ()

/-- `_assert_tenant_active_for_user_deactivation`. -/
def assertTenantActiveForUserDeactivation (tenant : Tenant) (isActive : Option Bool) :
    Except RoleError Unit :=
  if isActive = some false then require (tenant.status = .active) .tenantNotActive else .ok ()

/-- The row after `update_tenant_user_status`: the first activation is dated. -/
def statusUpdated (u : User) (isActive : Bool) (now : Time) : User :=
  if isActive && !u.isActivated then { u with isActive := isActive, activatedAt := some now }
  else { u with isActive := isActive }

/-- The checks of a suspension, before the state of the tenant is looked at. -/
def suspensionGuard (s : RoleStore) (current target : User) (tenant : Tenant)
    (isActive : Option Bool) : Except UserError Unit :=
  if isActive = some false then do
    require (!(target.id = current.id && s.hasAnyRole current.id [.tenantAdmin]))
      .selfDeactivationForbidden
    (s.assertNotLastPlatformAdmin target tenant).mapError .role
  else .ok ()

/-- `update_tenant_user_status`. The column `is_active` is not nullable, so a body without
the field fails at the flush. -/
def updateTenantUserStatus (s : RoleStore) (caller : UserId) (tenantId : Nat) (id : UserId)
    (isActive : Option Bool) (now : Time) : Except UserError RoleStore := do
  let current ← (s.getCurrentUser caller).mapError .role
  (s.enforceScope current tenantId).mapError .role
  (s.denyModerator current).mapError .role
  let tenant ← orRaise (s.accounts.tenant tenantId) (.role .entityNotFound)
  let target ← (s.loadTenantUser tenantId id).mapError .role
  s.suspensionGuard current target tenant isActive
  (assertTenantActiveForUserDeactivation tenant isActive).mapError .role
  let flag ← orRaise isActive (.role .integrityError)
  return { s with accounts := s.accounts.modifyUser id fun u => statusUpdated u flag now }

/-- The row after `delete_tenant_user`. -/
def anonymised (u : User) : User :=
  { u with isDelete := true, isActive := false, email := "del_" ++ toString u.id }

/-- A MODERATOR deletes users, but no TENANT ADMIN. -/
def deletionGuard (s : RoleStore) (current target : User) : Except RoleError Unit :=
  if s.hasAnyRole target.id [.tenantAdmin] then s.denyModerator current else .ok ()

/-- `delete_tenant_user`. The refresh tokens it deletes are not kept here. -/
def deleteTenantUser (s : RoleStore) (caller : UserId) (tenantId : Nat) (id : UserId) :
    Except RoleError RoleStore := do
  let current ← s.getCurrentUser caller
  s.enforceScope current tenantId
  let tenant ← orRaise (s.accounts.tenant tenantId) .entityNotFound
  let target ← s.loadTenantUser tenantId id
  s.deletionGuard current target
  s.assertNotLastTenantAdmin target tenant
  s.assertNotLastPlatformAdmin target tenant
  return { s with accounts := s.accounts.modifyUser id anonymised }

/-- A request that can change who administers a tenant. -/
inductive AdminRequest
  | role (request : Request)
  | updateTenantUserStatus (tenantId : Nat) (target : UserId) (isActive : Option Bool)
  | deleteTenantUser (tenantId : Nat) (target : UserId)
deriving Repr, DecidableEq

/-- A request, who makes it and when. -/
structure AdminCall where
  caller : UserId
  now : Time
  request : AdminRequest
deriving Repr, DecidableEq

/-- The handler of a request. -/
def handleAdmin (s : RoleStore) (c : AdminCall) : Except UserError RoleStore :=
  match c.request with
  | .role request => (s.handle ⟨c.caller, request⟩).mapError .role
  | .updateTenantUserStatus tenantId target isActive =>
    s.updateTenantUserStatus c.caller tenantId target isActive c.now
  | .deleteTenantUser tenantId target =>
    (s.deleteTenantUser c.caller tenantId target).mapError .role

/-- An accepted request. -/
def adminStep (s : RoleStore) (c : AdminCall) : Option RoleStore := (s.handleAdmin c).toOption

/-! ## Who administers a tenant -/

variable {s s' : RoleStore} {id v : UserId} {role : RoleName} {t : Nat}

/-- An active TENANT ADMIN of the tenant. -/
def IsActiveAdmin (s : RoleStore) (t : Nat) (id : UserId) : Prop :=
  ∃ u, s.accounts.user id = some u ∧ u.tenantId = some t ∧ u.isDelete = false ∧
    u.isActive = true ∧ RoleName.tenantAdmin ∈ s.getUserRoles id

/-- The tenant has an active TENANT ADMIN. -/
def HasAdmin (t : Nat) (s : RoleStore) : Prop := ∃ id, s.IsActiveAdmin t id

/-- The tenant has an active TENANT ADMIN besides `id`. -/
def HasOtherAdmin (s : RoleStore) (t : Nat) (id : UserId) : Prop :=
  ∃ v, v ≠ id ∧ s.IsActiveAdmin t v

/-- The rows `count_tenant_admins_in_tenant` counts are the active administrators. -/
theorem isActiveAdmin_of_mem (hwf : s.accounts.WellFormed) {u : User}
    (hu : u ∈ s.accounts.users.filter fun u => u.tenantId = some t && !u.isDelete && u.isActive &&
      decide (RoleName.tenantAdmin ∈ s.getUserRoles u.id)) : s.IsActiveAdmin t u.id := by
  obtain ⟨hmem, hcond⟩ := List.mem_filter.mp hu
  simp only [Bool.and_eq_true, decide_eq_true_eq, Bool.not_eq_true'] at hcond
  obtain ⟨⟨⟨htenant, hdelete⟩, hactive⟩, hrole⟩ := hcond
  exact ⟨u, Table.get_of_mem hwf hmem, htenant, hdelete, hactive, hrole⟩

theorem hasAdmin_iff (hwf : s.accounts.WellFormed) :
    HasAdmin t s ↔ 0 < s.countInTenant .tenantAdmin t := by
  rw [countInTenant, List.length_pos_iff_exists_mem]
  constructor
  · rintro ⟨id, u, hu, htenant, hdelete, hactive, hrole⟩
    refine ⟨u, List.mem_filter.mpr ⟨Table.mem_of_get hu, ?_⟩⟩
    simp [htenant, hdelete, hactive, Accounts.id_of_user hu, hrole]
  · rintro ⟨u, hu⟩
    exact ⟨u.id, isActiveAdmin_of_mem hwf hu⟩

/-- Two counted rows are two users, so one of them is another one. -/
theorem exists_counted_ne (hwf : s.accounts.WellFormed) (h : 1 < s.countInTenant role t)
    (id : UserId) :
    ∃ u ∈ s.accounts.users.filter fun u => u.tenantId = some t && !u.isDelete && u.isActive &&
      decide (role ∈ s.getUserRoles u.id), u.id ≠ id := by
  rw [countInTenant] at h
  have hids := hwf.sublist ((List.filter_sublist (p := fun u : User => u.tenantId = some t &&
    !u.isDelete && u.isActive && decide (role ∈ s.getUserRoles u.id))).map User.id)
  generalize s.accounts.users.filter _ = counted at h hids
  match counted, h with
  | u :: w :: _, _ =>
    have hne : u.id ≠ w.id := by
      rw [List.map_cons, List.map_cons, List.nodup_cons] at hids
      exact fun heq => hids.1 (heq ▸ List.mem_cons_self)
    by_cases hu : u.id = id
    · exact ⟨w, by simp, fun hw => hne (hu.trans hw.symm)⟩
    · exact ⟨u, by simp, hu⟩

theorem hasOtherAdmin_of_one_lt (hwf : s.accounts.WellFormed)
    (h : 1 < s.countInTenant .tenantAdmin t) (id : UserId) : s.HasOtherAdmin t id := by
  obtain ⟨u, hu, hne⟩ := exists_counted_ne hwf h id
  exact ⟨u.id, hne, isActiveAdmin_of_mem hwf hu⟩

/-! ## What a request does to the administrators -/

/-- Users other than `id` are administrators after the request as before. -/
def KeepsOthers (id : UserId) (s s' : RoleStore) : Prop :=
  ∀ t v, v ≠ id → (s'.IsActiveAdmin t v ↔ s.IsActiveAdmin t v)

theorem KeepsOthers.trans {m : RoleStore} (h : KeepsOthers id s m) (h' : KeepsOthers id m s') :
    KeepsOthers id s s' :=
  fun t v hv => (h' t v hv).trans (h t v hv)

theorem Changes.keepsOthers {granted : RoleName → Prop} (h : Changes id granted s s') :
    KeepsOthers id s s' := by
  intro t v hv
  rw [IsActiveAdmin, h.accounts, h.others v hv]
  rfl

/-- Users whose roles are kept stay administrators. -/
theorem Changes.isActiveAdmin {granted : RoleName → Prop} (h : Changes id granted s s')
    (hkept : RoleName.tenantAdmin ∈ s.getUserRoles id → RoleName.tenantAdmin ∈ s'.getUserRoles id)
    (hid : s.IsActiveAdmin t id) : s'.IsActiveAdmin t id := by
  obtain ⟨u, hu, htenant, hdelete, hactive, hrole⟩ := hid
  exact ⟨u, by rw [h.accounts]; exact hu, htenant, hdelete, hactive, hkept hrole⟩

/-- An `UPDATE` of the row of `id`. -/
theorem modifyUser_keepsOthers {f : User → User} (hf : ∀ u, (f u).id = u.id) :
    KeepsOthers id s { s with accounts := s.accounts.modifyUser id f } := by
  intro t v hv
  have hrow : (s.accounts.modifyUser id f).user v = s.accounts.user v :=
    Table.get_modify_of_ne hf hv
  rw [IsActiveAdmin, hrow]
  rfl

theorem modifyUser_wellFormed {f : User → User} (hf : ∀ u, (f u).id = u.id)
    (hwf : s.accounts.WellFormed) : (s.accounts.modifyUser id f).WellFormed := by
  rw [Accounts.WellFormed, Accounts.modifyUser,
    Table.map_key_modify fun u hu => (hf u).trans hu]
  exact hwf

/-- The row of `id` after its `UPDATE`. -/
theorem isActiveAdmin_modifyUser {f : User → User} (hf : ∀ u, (f u).id = u.id) :
    { s with accounts := s.accounts.modifyUser id f }.IsActiveAdmin t id ↔
      ∃ u, s.accounts.user id = some u ∧ (f u).tenantId = some t ∧ (f u).isDelete = false ∧
        (f u).isActive = true ∧ RoleName.tenantAdmin ∈ s.getUserRoles id := by
  rw [IsActiveAdmin, Accounts.user_modifyUser s.accounts id id f hf]
  constructor
  · rintro ⟨_, hmap, hrest⟩
    obtain ⟨u, hu, rfl⟩ := Option.map_eq_some_iff.mp hmap
    rw [if_pos rfl] at hrest
    exact ⟨u, hu, hrest⟩
  · rintro ⟨u, hu, hrest⟩
    exact ⟨f u, by rw [hu]; simp, hrest⟩

theorem statusUpdated_id (u : User) (flag : Bool) (now : Time) :
    (statusUpdated u flag now).id = u.id := by
  unfold statusUpdated
  split <;> rfl

theorem statusUpdated_isActive (u : User) (flag : Bool) (now : Time) :
    (statusUpdated u flag now).isActive = flag := by
  unfold statusUpdated
  split <;> rfl

theorem statusUpdated_keeps (u : User) (flag : Bool) (now : Time) :
    (statusUpdated u flag now).tenantId = u.tenantId ∧
      (statusUpdated u flag now).isDelete = u.isDelete := by
  unfold statusUpdated
  split <;> exact ⟨rfl, rfl⟩

/-- `update_tenant_user_status`, accepted: the flag is written, whoever the target is. -/
theorem updateTenantUserStatus_ok {caller : UserId} {isActive : Option Bool} {now : Time}
    (h : s.updateTenantUserStatus caller t id isActive now = .ok s') :
    ∃ flag, isActive = some flag ∧ s' =
      { s with accounts := s.accounts.modifyUser id fun u => statusUpdated u flag now } := by
  obtain ⟨current, -, h⟩ := bind_ok h
  obtain ⟨_, -, h⟩ := bind_ok h
  obtain ⟨_, -, h⟩ := bind_ok h
  obtain ⟨tenant, -, h⟩ := orRaise_bind h
  obtain ⟨target, -, h⟩ := bind_ok h
  obtain ⟨_, -, h⟩ := bind_ok h
  obtain ⟨_, -, h⟩ := bind_ok h
  obtain ⟨flag, hflag, h⟩ := orRaise_bind h
  exact ⟨flag, hflag, (Except.ok.inj h).symm⟩

theorem loadTenantUser_ok {u : User} (h : s.loadTenantUser t id = .ok u) :
    s.accounts.user id = some u ∧ u.tenantId = some t := by
  obtain ⟨v, hv, h⟩ := orRaise_bind h
  obtain ⟨htenant, h⟩ := require_bind h
  obtain rfl := Except.ok.inj h
  exact ⟨(Accounts.getById_eq_some.mp hv).1, by simpa using htenant⟩

theorem assertNotLastTenantAdmin_ok {target : User} {tenant : Tenant} {x : Unit}
    (h : s.assertNotLastTenantAdmin target tenant = .ok x)
    (hrole : RoleName.tenantAdmin ∈ s.getUserRoles target.id) :
    1 < s.countInTenant .tenantAdmin tenant.id := by
  unfold assertNotLastTenantAdmin at h
  rw [if_pos (by simp [hasAnyRole, hrole])] at h
  simpa using require_ok h

/-- `delete_tenant_user`, accepted: an administrator is not the last one of the tenant. -/
theorem deleteTenantUser_ok {caller : UserId} (hwf : s.accounts.WellFormed)
    (h : s.deleteTenantUser caller t id = .ok s') :
    s' = { s with accounts := s.accounts.modifyUser id anonymised } ∧
      ∀ t', s.IsActiveAdmin t' id → s.HasOtherAdmin t' id := by
  obtain ⟨current, -, h⟩ := bind_ok h
  obtain ⟨_, -, h⟩ := bind_ok h
  obtain ⟨tenant, htenant, h⟩ := orRaise_bind h
  obtain ⟨target, htarget, h⟩ := bind_ok h
  obtain ⟨_, -, h⟩ := bind_ok h
  obtain ⟨_, hlast, h⟩ := bind_ok h
  obtain ⟨_, -, h⟩ := bind_ok h
  refine ⟨(Except.ok.inj h).symm, ?_⟩
  rintro t' ⟨u, hu, hut, -, -, hrole⟩
  obtain ⟨hrow, ht⟩ := loadTenantUser_ok htarget
  obtain rfl := Option.some.inj (hrow.symm.trans hu)
  obtain rfl := Option.some.inj (ht.symm.trans hut)
  have hcount := assertNotLastTenantAdmin_ok hlast (by rw [Accounts.id_of_user hrow]; exact hrole)
  rw [Table.key_of_get htenant] at hcount
  exact hasOtherAdmin_of_one_lt hwf hcount id

/-! ### The role requests -/

theorem assignRole_kept {r : RoleName} (h : s.assignRole id role = .ok s')
    (hr : r ∈ s.getUserRoles id) : r ∈ s'.getUserRoles id := by
  obtain ⟨-, h⟩ := require_bind h
  obtain ⟨_, -, h⟩ := bind_ok h
  obtain ⟨existing, -, h⟩ := bind_ok h
  split at h
  · exact Except.ok.inj h ▸ hr
  · obtain ⟨-, h⟩ := require_bind h
    obtain rfl := Except.ok.inj h
    rw [mem_getUserRoles] at hr ⊢
    exact List.mem_append_left _ hr

/-- `remove_role`, accepted: there was one row and it is gone. -/
theorem removeRole_ok (h : s.removeRole id role = .ok s') :
    role ∉ s'.getUserRoles id ∧
      ∀ r, r ≠ role → r ∈ s.getUserRoles id → r ∈ s'.getUserRoles id := by
  obtain ⟨-, h⟩ := require_bind h
  obtain ⟨_, -, h⟩ := bind_ok h
  obtain ⟨record, hrecord, h⟩ := bind_ok h
  obtain ⟨hsome, h⟩ := require_bind h
  obtain rfl := Except.ok.inj h
  constructor
  · rw [mem_getUserRoles]
    intro hmem
    -- a row left after the erasure would have been a second one
    have hcount : 1 < s.userRoles.count ⟨id, role⟩ := by
      have hleft := List.count_pos_iff.mpr hmem
      rw [List.count_erase_self] at hleft
      omega
    have hlength : s.userRoles.count ⟨id, role⟩ ≤
        (s.userRoles.filter fun r => r.userId = id && r.role = role).length := by
      rw [← List.countP_eq_length_filter, List.count]
      refine List.countP_mono_left fun r _ hr => ?_
      obtain rfl := eq_of_beq hr
      simp
    unfold getUserRoleRecord at hrecord
    split at hrecord
    · rename_i hnil
      rw [hnil, List.length_nil] at hlength
      omega
    · rename_i hone
      rw [hone, List.length_singleton] at hlength
      omega
    · cases hrecord
  · intro r hne hr
    rw [mem_getUserRoles] at hr ⊢
    refine (List.mem_erase_of_ne fun heq => hne ?_).mpr hr
    injection heq

/-- The promotion in `_set_tenant_user_role` takes no TENANT ADMIN away. -/
theorem setTenantUserRole_tenantAdmin (h : s.setTenantUserRole id .tenantAdmin = .ok s')
    (hrole : RoleName.tenantAdmin ∈ s.getUserRoles id) :
    RoleName.tenantAdmin ∈ s'.getUserRoles id := by
  obtain ⟨assigned, hassign, h⟩ := bind_ok h
  refine foldlM_ok (P := fun m => RoleName.tenantAdmin ∈ m.getUserRoles id)
    (fun m r hr m' hm hremove => ?_) h (assignRole_kept hassign hrole)
  have hne : r ≠ .tenantAdmin := by
    have hcond := (List.mem_filter.mp hr).2
    rw [Bool.and_eq_true, decide_eq_true_eq] at hcond
    exact hcond.2
  exact (removeRole_ok hremove).2 _ hne.symm hm

/-- Demoting an active administrator takes another one. -/
theorem assertTenantAdminDemotable_ok {target : User} {tenant : Tenant} {x : Unit}
    (h : s.assertTenantAdminDemotable target tenant = .ok x) (hactive : target.isActive = true)
    (hrole : RoleName.tenantAdmin ∈ s.getUserRoles target.id) :
    1 < s.countInTenant .tenantAdmin tenant.id := by
  unfold assertTenantAdminDemotable at h
  rw [if_pos (by simp [hasAnyRole, hrole])] at h
  obtain ⟨-, h⟩ := require_bind h
  rw [if_pos hactive] at h
  exact assertNotLastTenantAdmin_ok h hrole

/-- A new address changes no administrator. -/
theorem updateEmail_admins {email : Option String} (h : s.updateEmail id email = .ok s')
    (hwf : s.accounts.WellFormed) :
    s'.accounts.WellFormed ∧ ∀ t v, s'.IsActiveAdmin t v ↔ s.IsActiveAdmin t v := by
  cases email with
  | none =>
    obtain rfl := Except.ok.inj h
    exact ⟨hwf, fun _ _ => Iff.rfl⟩
  | some address =>
    obtain ⟨-, h⟩ := require_bind h
    obtain rfl := Except.ok.inj h
    refine ⟨modifyUser_wellFormed (fun _ => rfl) hwf, fun t v => ?_⟩
    by_cases hv : v = id
    · subst hv
      exact isActiveAdmin_modifyUser (f := fun u => { u with email := address }) fun _ => rfl
    · exact modifyUser_keepsOthers (f := fun u => { u with email := address }) (fun _ => rfl) t v
        hv

/-! ## One accepted request -/

/-- The user a request is about. -/
def Request.target : Request → UserId
  | .assignRole target _ => target
  | .removeRole target _ => target
  | .createTenantUser _ id _ _ => id
  | .updateTenantUser _ target _ _ => target

/-- The user a request is about. -/
def AdminRequest.target : AdminRequest → UserId
  | .role request => request.target
  | .updateTenantUserStatus _ target _ => target
  | .deleteTenantUser _ target => target

/-- A request that takes an administrator away and does not ask for another one. -/
def AdminRequest.isUnguarded : AdminRequest → Bool
  | .role (.removeRole _ role) => role = .tenantAdmin
  | .updateTenantUserStatus _ _ isActive => isActive = some false
  | _ => false

/-- What an accepted request with target `id` does: it loses an administrator unchecked, or
the administrator stays or is not the only one. -/
structure Effect (unguarded : Bool) (id : UserId) (s s' : RoleStore) : Prop where
  wellFormed : s'.accounts.WellFormed
  others : KeepsOthers id s s'
  lost : unguarded = true → ∀ t, ¬ s'.IsActiveAdmin t id
  kept : unguarded = false → ∀ t, s.IsActiveAdmin t id → s'.IsActiveAdmin t id ∨ s.HasOtherAdmin t id

/-- A request that changes roles only and keeps TENANT ADMIN. -/
theorem Changes.effect {granted : RoleName → Prop} (h : Changes id granted s s')
    (hwf : s.accounts.WellFormed)
    (hkept : RoleName.tenantAdmin ∈ s.getUserRoles id →
      RoleName.tenantAdmin ∈ s'.getUserRoles id) : Effect false id s s' where
  wellFormed := by rw [h.accounts]; exact hwf
  others := h.keepsOthers
  lost hfalse := absurd hfalse Bool.false_ne_true
  kept _ _ hid := .inl (h.isActiveAdmin hkept hid)

/-- A user that is not there yet is no administrator. -/
theorem provisionUser_effect {email : String} (hwf : s.accounts.WellFormed)
    (h : s.provisionUser id email t role = .ok s') : Effect false id s s' := by
  obtain ⟨-, h⟩ := require_bind h
  obtain ⟨hfresh, h⟩ := require_bind h
  have hnone : s.accounts.user id = none := by simpa using hfresh
  generalize hnew : (⟨id, email, some t, false, none, false, true, some .tenant⟩ : User) = new
    at h
  have hid : new.id = id := by rw [← hnew]
  have hcreated : Effect false id s
      { s with accounts := { s.accounts with users := s.accounts.users ++ [new] } } := by
    refine ⟨Table.nodup_append_singleton hwf (by rw [hid]; exact hnone), fun t' v hv => ?_,
      fun hfalse => absurd hfalse Bool.false_ne_true, ?_⟩
    · have hrow : Table.get User.id (s.accounts.users ++ [new]) v =
          Table.get User.id s.accounts.users v := by
        rw [Table.get_append_singleton (by rw [hid]; exact hnone), if_neg (by rw [hid]; exact hv.symm)]
      rw [IsActiveAdmin, Accounts.user, hrow]
      rfl
    · rintro - t' ⟨u, hu, -⟩
      rw [hnone] at hu
      cases hu
  dsimp only at h
  split at h
  · obtain rfl := Except.ok.inj h
    exact hcreated
  · have hassigned := (assignRole_changes h).effect hcreated.wellFormed (assignRole_kept h)
    refine ⟨hassigned.wellFormed, hcreated.others.trans hassigned.others,
      fun hfalse => absurd hfalse Bool.false_ne_true, ?_⟩
    rintro - t' ⟨u, hu, -⟩
    rw [hnone] at hu
    cases hu

/-- `update_tenant_user`: a demotion asks for another administrator. -/
theorem updateTenantUser_effect {caller : UserId} {email : Option String}
    {role : Option TenantUserRole} (hwf : s.accounts.WellFormed)
    (h : s.updateTenantUser caller t id email role = .ok s') : Effect false id s s' := by
  obtain ⟨current, -, h⟩ := bind_ok h
  obtain ⟨_, -, h⟩ := bind_ok h
  obtain ⟨_, -, h⟩ := bind_ok h
  obtain ⟨tenant, htenant, h⟩ := orRaise_bind h
  obtain ⟨u, hu, h⟩ := orRaise_bind h
  obtain ⟨hut, h⟩ := require_bind h
  obtain ⟨_, hguard, h⟩ := bind_ok h
  obtain ⟨updated, hemail, h⟩ := bind_ok h
  obtain ⟨hwf', hadmins⟩ := updateEmail_admins hemail hwf
  cases role with
  | none =>
    obtain rfl := Except.ok.inj h
    exact ⟨hwf', fun t v _ => hadmins t v, fun hfalse => absurd hfalse Bool.false_ne_true,
      fun _ t hid => .inl ((hadmins t id).mpr hid)⟩
  | some r =>
    have hchanges := setTenantUserRole_changes h
    refine ⟨by rw [hchanges.accounts]; exact hwf', fun t v hv =>
      (hchanges.keepsOthers t v hv).trans (hadmins t v),
      fun hfalse => absurd hfalse Bool.false_ne_true, fun _ t' hid => ?_⟩
    cases r with
    | tenantAdmin =>
      exact .inl (hchanges.isActiveAdmin (setTenantUserRole_tenantAdmin h)
        ((hadmins t' id).mpr hid))
    | user =>
      right
      obtain ⟨w, hw, hwt, -, hactive, hrole⟩ := hid
      have hrow := (Accounts.getById_eq_some.mp hu).1
      obtain rfl := Option.some.inj (hrow.symm.trans hw)
      obtain rfl : t = t' := Option.some.inj ((by simpa using hut : u.tenantId = some t).symm.trans
        hwt)
      have hcount := assertTenantAdminDemotable_ok hguard hactive
        (by rw [Accounts.id_of_user hrow]; exact hrole)
      rw [Table.key_of_get htenant] at hcount
      exact hasOtherAdmin_of_one_lt hwf hcount id

/-- The role requests: only the remove route takes the last administrator away. -/
theorem handle_effect {caller : UserId} {request : Request} (hwf : s.accounts.WellFormed)
    (h : s.handle ⟨caller, request⟩ = .ok s') :
    Effect (AdminRequest.role request).isUnguarded request.target s s' := by
  cases request with
  | assignRole target role =>
    have hassign : s.assignRole target role = .ok s' := by
      obtain ⟨current, -, h⟩ := bind_ok h
      obtain ⟨_, -, h⟩ := bind_ok h
      split at h
      · obtain ⟨_, -, h⟩ := orRaise_bind h
        obtain ⟨_, -, h⟩ := bind_ok h
        exact h
      · exact h
    exact (assignRole_changes hassign).effect hwf (assignRole_kept hassign)
  | removeRole target role =>
    obtain ⟨current, -, h⟩ := bind_ok h
    obtain ⟨_, -, h⟩ := bind_ok h
    obtain ⟨hgone, hkept⟩ := removeRole_ok h
    have hchanges := removeRole_changes h
    refine ⟨by rw [hchanges.accounts]; exact hwf, hchanges.keepsOthers, ?_, ?_⟩
    · rintro hrole t ⟨u, -, -, -, -, hadmin⟩
      obtain rfl : role = .tenantAdmin := by simpa [AdminRequest.isUnguarded] using hrole
      exact hgone hadmin
    · intro hrole t hid
      have hne : role ≠ .tenantAdmin := by simpa [AdminRequest.isUnguarded] using hrole
      exact .inl (hchanges.isActiveAdmin (hkept _ hne.symm) hid)
  | createTenantUser tenantId newId email role =>
    obtain ⟨current, -, h⟩ := bind_ok h
    obtain ⟨_, -, h⟩ := bind_ok h
    obtain ⟨_, -, h⟩ := bind_ok h
    obtain ⟨_, -, h⟩ := orRaise_bind h
    obtain ⟨-, h⟩ := require_bind h
    obtain ⟨-, h⟩ := require_bind h
    exact provisionUser_effect hwf h
  | updateTenantUser tenantId target email role => exact updateTenantUser_effect hwf h

/-- **One accepted request.** -/
theorem handleAdmin_effect {c : AdminCall} (hwf : s.accounts.WellFormed)
    (h : s.handleAdmin c = .ok s') : Effect c.request.isUnguarded c.request.target s s' := by
  obtain ⟨caller, now, request⟩ := c
  cases request with
  | role request => exact handle_effect hwf (mapError_ok h)
  | updateTenantUserStatus tenantId target isActive =>
    obtain ⟨flag, rfl, rfl⟩ := updateTenantUserStatus_ok h
    have hid : ∀ u, (statusUpdated u flag now).id = u.id := fun u => statusUpdated_id u flag now
    refine ⟨modifyUser_wellFormed hid hwf, modifyUser_keepsOthers hid, fun hflag t hadmin => ?_,
      fun hflag t hadmin => ?_⟩
    · obtain rfl : flag = false := by simpa [AdminRequest.isUnguarded] using hflag
      obtain ⟨u, -, -, -, hactive, -⟩ := (isActiveAdmin_modifyUser hid).mp hadmin
      rw [statusUpdated_isActive] at hactive
      cases hactive
    · obtain rfl : flag = true := by simpa [AdminRequest.isUnguarded] using hflag
      obtain ⟨u, hu, htenant, hdelete, -, hrole⟩ := hadmin
      obtain ⟨htenant', hdelete'⟩ := statusUpdated_keeps u true now
      exact .inl ((isActiveAdmin_modifyUser hid).mpr ⟨u, hu, htenant'.trans htenant,
        hdelete'.trans hdelete, statusUpdated_isActive u true now, hrole⟩)
  | deleteTenantUser tenantId target =>
    obtain ⟨rfl, hother⟩ := deleteTenantUser_ok hwf (mapError_ok h)
    exact ⟨modifyUser_wellFormed (fun _ => rfl) hwf, modifyUser_keepsOthers fun _ => rfl,
      fun hfalse => absurd hfalse Bool.false_ne_true, fun _ t hadmin => .inr (hother t hadmin)⟩

/-! ## Sequences of requests -/

/-- The condition: a suspension, and a removal of TENANT ADMIN through `/auth/roles/remove`,
spare the only active TENANT ADMIN of the tenant. -/
def SparesLastAdmin (t : Nat) (s : RoleStore) (c : AdminCall) : Prop :=
  c.request.isUnguarded = true → s.IsActiveAdmin t c.request.target →
    s.HasOtherAdmin t c.request.target

/-- The tenant keeps an administrator exactly when the request meets the condition. -/
theorem Effect.hasAdmin_iff {unguarded : Bool} (h : Effect unguarded id s s')
    (hadmin : HasAdmin t s) :
    HasAdmin t s' ↔ (unguarded = true → s.IsActiveAdmin t id → s.HasOtherAdmin t id) := by
  have hother : s.HasOtherAdmin t id → HasAdmin t s' := by
    rintro ⟨v, hv, hvadmin⟩
    exact ⟨v, (h.others t v hv).mpr hvadmin⟩
  constructor
  · rintro ⟨v, hv⟩ hunguarded -
    have hne : v ≠ id := fun heq => h.lost hunguarded t (heq ▸ hv)
    exact ⟨v, hne, (h.others t v hne).mp hv⟩
  · intro hspares
    obtain ⟨w, hw⟩ := hadmin
    by_cases hwid : w = id
    · subst hwid
      cases hunguarded : unguarded with
      | true => exact hother (hspares hunguarded hw)
      | false =>
        obtain hkept | hkept := h.kept hunguarded t hw
        · exact ⟨w, hkept⟩
        · exact hother hkept
    · exact hother ⟨w, hwid, hw⟩

/-- **A tenant keeps an administrator** on exactly those runs of accepted requests in which
neither a suspension nor the remove route takes the only one. -/
theorem tenant_keeps_an_admin (s s' : RoleStore) (t : Nat) (calls : List AdminCall)
    (hwf : s.accounts.WellFormed) (hadmin : HasAdmin t s) (hrun : Run adminStep s calls s') :
    Guarded adminStep (SparesLastAdmin t) s calls ↔
      ∀ accepted m, accepted <+: calls → Run adminStep s accepted m → HasAdmin t m := by
  refine Run.guarded_iff (I := fun s => s.accounts.WellFormed) (fun m c m' hm hstep => ?_)
    (fun m c m' hm hP hstep => ?_) hrun hwf hadmin
  · exact (handleAdmin_effect hm (toOption_ok hstep)).wellFormed
  · exact (handleAdmin_effect hm (toOption_ok hstep)).hasAdmin_iff hP

/-- Two administrators join; the first one is suspended and deleted, one is demoted. -/
def handover : List AdminCall :=
  [⟨2, 1, .role (.assignRole 3 .tenantAdmin)⟩,
    ⟨2, 2, .role (.createTenantUser 5 4 "new@example.org" .tenantAdmin)⟩,
    ⟨2, 3, .updateTenantUserStatus 5 4 (some true)⟩,
    ⟨4, 4, .updateTenantUserStatus 5 2 (some false)⟩, ⟨4, 5, .deleteTenantUser 5 2⟩,
    ⟨3, 6, .role (.removeRole 4 .tenantAdmin)⟩]

theorem sampleStore_wellFormed : sampleStore.accounts.WellFormed := by
  show (sampleStore.accounts.users.map User.id).Nodup
  decide

theorem sampleStore_hasAdmin : HasAdmin 5 sampleStore :=
  (hasAdmin_iff sampleStore_wellFormed).mpr (by decide +kernel)

/-- More than one administrator when one is taken away unchecked. -/
theorem guarded_of_count {calls : List AdminCall}
    (h : guardedCheck adminStep (fun s c => !c.request.isUnguarded ||
      (decide ((s.accounts.users.map User.id).Nodup) &&
        decide (1 < s.countInTenant .tenantAdmin t))) s calls = true) :
    Guarded adminStep (SparesLastAdmin t) s calls := by
  refine guarded_of_check (fun s c hc hunguarded _ => ?_) h
  rw [hunguarded, Bool.not_true, Bool.false_or, Bool.and_eq_true, decide_eq_true_eq,
    decide_eq_true_eq] at hc
  exact hasOtherAdmin_of_one_lt hc.1 hc.2 c.request.target

theorem tenant_keeps_an_admin_handover :
    ∃ s', Run adminStep sampleStore handover s' ∧ HasAdmin 5 s' := by
  obtain ⟨s', hrun, -⟩ := exists_run_of_map adminStep sampleStore handover (fun _ => ()) (x := ())
    (by decide +kernel)
  refine ⟨s', hrun, ?_⟩
  exact (tenant_keeps_an_admin sampleStore s' 5 handover sampleStore_wellFormed
    sampleStore_hasAdmin hrun).mp (guarded_of_count (by decide +kernel)) handover s'
      (List.prefix_refl _) hrun

/-- A platform ADMIN suspends the only administrator of a tenant, or takes the role away, and
the tenant is left with none. -/
theorem root_suspends_the_last_admin :
    sampleStore.accounts.WellFormed ∧ HasAdmin 5 sampleStore ∧
      (∃ s', Run adminStep sampleStore [⟨1, 1, .updateTenantUserStatus 5 2 (some false)⟩] s' ∧
        ¬ HasAdmin 5 s') ∧
      ∃ s', Run adminStep sampleStore [⟨1, 1, .role (.removeRole 2 .tenantAdmin)⟩] s' ∧
        ¬ HasAdmin 5 s' := by
  have hlost : ∀ c, ((adminStep sampleStore c).map fun s =>
        (s.accounts.users.map User.id, s.countInTenant .tenantAdmin 5)) = some ([1, 2, 3], 0) →
      ∃ s', Run adminStep sampleStore [c] s' ∧ ¬ HasAdmin 5 s' := by
    intro c hc
    obtain ⟨s', hstep, hs'⟩ := Option.map_eq_some_iff.mp hc
    obtain ⟨hids, hcount⟩ := Prod.mk.inj hs'
    refine ⟨s', run_cons_iff.mpr ⟨s', hstep, Run.nil s'⟩, ?_⟩
    rw [hasAdmin_iff (by rw [Accounts.WellFormed, hids]; decide), hcount]
    exact Nat.lt_irrefl 0
  exact ⟨sampleStore_wellFormed, sampleStore_hasAdmin, hlost _ (by decide +kernel),
    hlost _ (by decide +kernel)⟩

end RoleStore

end Ai4iCore.Auth
