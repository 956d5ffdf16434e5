import Ai4iCore.Auth.Roles
import Ai4iCore.Base.Run

/-!
# Role grants do not escalate

Callers who are neither ADMIN nor MODERATOR can hand out USER and TENANT ADMIN in
their own tenants and nothing else, as long as `POST /auth/roles/assign` is not
asked for another role (`roles_do_not_escalate`). The restriction to these two
roles is in the request type of `create_tenant_user` and `update_tenant_user`
(`TenantUserRole`); the assign route takes any `RoleName` and has no such check,
and `tenant_admin_grants_admin` is the grant that follows.

A request changes the roles of one user (`Changes`), in the tenant of the caller
when the caller is no platform staff (`Confined`). Since no caller becomes staff
along the way, this composes over whole sequences.
-/

namespace Ai4iCore.Auth

open Checked StepSystem

namespace RoleStore

variable {s s' : RoleStore} {id : UserId} {role : RoleName}

/-! ## What the service does to the table -/

/-- Only the roles of `id` change, and what is gained is `granted`. -/
structure Changes (id : UserId) (granted : RoleName → Prop) (s s' : RoleStore) : Prop where
  accounts : s'.accounts = s.accounts
  gained : ∀ r ∈ s'.getUserRoles id, r ∈ s.getUserRoles id ∨ granted r
  others : ∀ u, u ≠ id → s'.getUserRoles u = s.getUserRoles u

variable {granted : RoleName → Prop}

theorem Changes.refl (s : RoleStore) : Changes id granted s s :=
  ⟨rfl, fun _ hr => .inl hr, fun _ _ => rfl⟩

theorem Changes.trans {m : RoleStore} (h : Changes id granted s m)
    (h' : Changes id granted m s') : Changes id granted s s' where
  accounts := h'.accounts.trans h.accounts
  gained r hr := (h'.gained r hr).elim (h.gained r) .inr
  others u hu := (h'.others u hu).trans (h.others u hu)

theorem Changes.mono {granted' : RoleName → Prop} (h : Changes id granted s s')
    (hg : ∀ r, granted r → granted' r) : Changes id granted' s s' :=
  ⟨h.accounts, fun r hr => (h.gained r hr).imp_right (hg r), h.others⟩

theorem mem_getUserRoles : role ∈ s.getUserRoles id ↔ ⟨id, role⟩ ∈ s.userRoles := by
  rw [getUserRoles, List.mem_reverse, List.mem_map]
  constructor
  · rintro ⟨r, hr, rfl⟩
    obtain ⟨hmem, hid⟩ := List.mem_filter.mp hr
    obtain rfl : r.userId = id := by simpa using hid
    exact hmem
  · intro h
    exact ⟨⟨id, role⟩, List.mem_filter.mpr ⟨h, by simp⟩, rfl⟩

theorem getUserRoles_append {u : UserId} (hu : u ≠ id) (l : List UserRole) :
    { s with userRoles := l ++ [(⟨id, role⟩ : UserRole)] }.getUserRoles u =
      { s with userRoles := l }.getUserRoles u := by
  have hfilter : ([⟨id, role⟩] : List UserRole).filter (fun r => r.userId = u) = [] := by
    simp [hu.symm]
  simp only [getUserRoles, List.filter_append, hfilter, List.append_nil]

theorem filter_erase_of_not {p : UserRole → Bool} {r : UserRole} (hr : p r = false)
    (l : List UserRole) : (l.erase r).filter p = l.filter p := by
  induction l with
  | nil => rfl
  | cons x l ih =>
    by_cases hx : x = r
    · subst hx
      rw [List.erase_cons_head, List.filter_cons_of_neg (by simp [hr])]
    · rw [List.erase_cons_tail (by simpa using hx), List.filter_cons, List.filter_cons, ih]

theorem assignRole_changes (h : s.assignRole id role = .ok s') :
    Changes id (fun r => r = role) s s' := by
  obtain ⟨-, h⟩ := require_bind h
  obtain ⟨_, -, h⟩ := bind_ok h
  obtain ⟨existing, -, h⟩ := bind_ok h
  split at h
  · obtain rfl := Except.ok.inj h
    exact Changes.refl s
  · obtain ⟨-, h⟩ := require_bind h
    obtain rfl := Except.ok.inj h
    refine ⟨rfl, fun r hr => ?_, fun u hu => getUserRoles_append hu _⟩
    rw [mem_getUserRoles] at hr ⊢
    obtain hr | hr := List.mem_append.mp hr
    · exact .inl hr
    · right
      have heq := List.mem_singleton.mp hr
      injection heq

theorem removeRole_changes (h : s.removeRole id role = .ok s') :
    Changes id (fun _ => False) s s' := by
  obtain ⟨-, h⟩ := require_bind h
  obtain ⟨_, -, h⟩ := bind_ok h
  obtain ⟨_, -, h⟩ := bind_ok h
  obtain ⟨-, h⟩ := require_bind h
  obtain rfl := Except.ok.inj h
  refine ⟨rfl, fun r hr => ?_, fun u hu => ?_⟩
  · rw [mem_getUserRoles] at hr ⊢
    exact .inl (List.mem_of_mem_erase hr)
  · have hnot : decide ((⟨id, role⟩ : UserRole).userId = u) = false := by simp [hu.symm]
    simp only [getUserRoles, filter_erase_of_not (p := fun r => decide (r.userId = u)) hnot]

/-- A role of `TenantUserRole`. -/
def IsTenantRole (role : RoleName) : Prop := role = .user ∨ role = .tenantAdmin

theorem isTenantRole_value (r : TenantUserRole) : IsTenantRole r.value := by
  cases r with
  | user => exact .inl rfl
  | tenantAdmin => exact .inr rfl

theorem setTenantUserRole_changes {r : TenantUserRole}
    (h : s.setTenantUserRole id r = .ok s') : Changes id IsTenantRole s s' := by
  obtain ⟨assigned, hassign, h⟩ := bind_ok h
  have hassigned : Changes id IsTenantRole s assigned :=
    (assignRole_changes hassign).mono fun _ hr => hr ▸ isTenantRole_value r
  refine foldlM_ok (P := fun m => Changes id IsTenantRole s m) (fun m x _ m' hm hx => ?_) h
    hassigned
  exact hm.trans ((removeRole_changes hx).mono fun _ hf => hf.elim)

/-! ## Callers who are no platform staff -/

/-- Neither ADMIN nor MODERATOR. -/
def NotStaff (s : RoleStore) (id : UserId) : Prop :=
  RoleName.admin ∉ s.getUserRoles id ∧ RoleName.moderator ∉ s.getUserRoles id

instance (s : RoleStore) (id : UserId) : Decidable (s.NotStaff id) :=
  inferInstanceAs (Decidable (_ ∧ _))

theorem NotStaff.hasAnyRole_eq_false (h : NotStaff s id) :
    s.hasAnyRole id [.admin, .moderator] = false := by
  simp [hasAnyRole, h.1, h.2]

/-- The row of a caller who is let in. -/
theorem getCurrentUser_ok {u : User} (h : s.getCurrentUser id = .ok u) :
    s.accounts.user id = some u := by
  obtain ⟨v, hv, h⟩ := orRaise_bind h
  obtain ⟨-, h⟩ := require_bind h
  obtain rfl := Except.ok.inj h
  exact (Accounts.getById_eq_some.mp hv).1

theorem requireAnyRole_ok {u : User} {names : List RoleName}
    (h : s.requireAnyRole id names = .ok u) : s.accounts.user id = some u := by
  obtain ⟨v, hv, h⟩ := bind_ok h
  obtain ⟨-, h⟩ := require_bind h
  obtain rfl := Except.ok.inj h
  exact getCurrentUser_ok hv

/-- The check on the target lets other callers through for their own tenant only. -/
theorem enforceTargetUserSameTenant_ok {current : User} {target : UserId} {x : Unit}
    (hstaff : NotStaff s current.id)
    (h : s.enforceTargetUserSameTenant current target [.admin, .moderator] = .ok x) :
    ∃ u t, s.accounts.user target = some u ∧ current.tenantId = some t ∧
      u.tenantId = some t := by
  unfold enforceTargetUserSameTenant at h
  rw [hstaff.hasAnyRole_eq_false, if_neg Bool.false_ne_true] at h
  obtain ⟨u, hu, h⟩ := orRaise_bind h
  have hcond := require_ok h
  rw [Bool.and_eq_true] at hcond
  cases hcurrent : current.tenantId with
  | none =>
    rw [hcurrent] at hcond
    cases hcond.1
  | some t =>
    refine ⟨u, t, (Accounts.getById_eq_some.mp hu).1, rfl, ?_⟩
    have heq : current.tenantId = u.tenantId := by simpa using hcond.2
    rw [← heq, hcurrent]

theorem enforceScope_ok {current : User} {tenantId : Nat} {x : Unit}
    (hstaff : NotStaff s current.id) (h : s.enforceScope current tenantId = .ok x) :
    current.tenantId = some tenantId := by
  unfold enforceScope at h
  rw [hstaff.hasAnyRole_eq_false, if_neg Bool.false_ne_true] at h
  simpa using require_ok h

/-! ## One accepted request -/

/-- A step inside the tenant `t`: users keep their tenants, only roles of users of `t`
change, and what is gained is a tenant role. -/
structure Confined (t : Nat) (s s' : RoleStore) : Prop where
  tenants : s'.accounts.tenants = s.accounts.tenants
  users : ∀ id u, s.accounts.user id = some u →
    ∃ u', s'.accounts.user id = some u' ∧ u'.tenantId = u.tenantId
  gained : ∀ id, ∀ r ∈ s'.getUserRoles id, r ∈ s.getUserRoles id ∨ IsTenantRole r
  others : ∀ id, s'.getUserRoles id = s.getUserRoles id ∨ s'.accounts.tenantOf id = some t

/-- Changing the roles of a user of the tenant. -/
theorem Changes.confined {t : Nat} {u : User} (h : Changes id IsTenantRole s s')
    (hu : s.accounts.user id = some u) (ht : u.tenantId = some t) : Confined t s s' where
  tenants := by rw [h.accounts]
  users v row hrow := ⟨row, by rw [h.accounts]; exact hrow, rfl⟩
  gained v r hr := by
    by_cases hv : v = id
    · subst hv
      exact h.gained r hr
    · rw [h.others v hv] at hr
      exact .inl hr
  others v := by
    by_cases hv : v = id
    · subst hv
      right
      rw [Accounts.tenantOf, h.accounts, hu]
      exact ht
    · exact .inl (h.others v hv)

/-- Replacing the address of a user. -/
theorem updateEmail_ok {email : Option String} (h : s.updateEmail id email = .ok s') :
    s'.userRoles = s.userRoles ∧ s'.accounts.tenants = s.accounts.tenants ∧
      ∀ v u, s.accounts.user v = some u →
        ∃ u', s'.accounts.user v = some u' ∧ u'.tenantId = u.tenantId := by
  cases email with
  | none =>
    obtain rfl := Except.ok.inj h
    exact ⟨rfl, rfl, fun _ u hu => ⟨u, hu, rfl⟩⟩
  | some address =>
    obtain ⟨-, h⟩ := require_bind h
    obtain rfl := Except.ok.inj h
    refine ⟨rfl, rfl, fun v u hu => ?_⟩
    refine ⟨if v = id then { u with email := address } else u, ?_, ?_⟩
    · have hrow := Accounts.user_modifyUser s.accounts id v
        (fun u => { u with email := address }) fun _ => rfl
      rw [hu] at hrow
      exact hrow
    · split <;> rfl

/-- A new user of the tenant. -/
theorem provisionUser_confined {email : String} {t : Nat} (hrole : IsTenantRole role)
    (h : s.provisionUser id email t role = .ok s') : Confined t s s' := by
  obtain ⟨-, h⟩ := require_bind h
  obtain ⟨hfresh, h⟩ := require_bind h
  have hnone : Table.get User.id s.accounts.users id = none := by
    simpa [Accounts.user] using hfresh
  generalize hnew : (⟨id, email, some t, false, none, false, true, some .tenant⟩ : User) = new
    at h
  have hid : new.id = id := by rw [← hnew]
  have hcreated : Confined t s
      { s with accounts := { s.accounts with users := s.accounts.users ++ [new] } } :=
    ⟨rfl, fun v u hu => ⟨u, Table.get_append_of_some hu _, rfl⟩, fun _ _ hr => .inl hr,
      fun _ => .inl rfl⟩
  have huser : Table.get User.id (s.accounts.users ++ [new]) id = some new := by
    rw [Table.get_append_singleton (by rw [hid]; exact hnone), if_pos hid]
  dsimp only at h
  split at h
  · obtain rfl := Except.ok.inj h
    exact hcreated
  · have hchanges := ((assignRole_changes h).mono fun _ hr => hr ▸ hrole :
      Changes id IsTenantRole _ s')
    have hconfined := hchanges.confined (t := t) huser (by rw [← hnew])
    refine ⟨hconfined.tenants, fun v u hu => ?_, hconfined.gained, hconfined.others⟩
    exact hconfined.users v u (Table.get_append_of_some hu _)

/-- The condition: `/auth/roles/assign` is asked for a tenant role, or for a role that the
target holds already. -/
def GrantsTenantRole (s : RoleStore) (c : Call) : Prop :=
  match c.request with
  | .assignRole target role => IsTenantRole role ∨ role ∈ s.getUserRoles target
  | _ => True

/-- Assigning a role that is held, or a tenant role. -/
theorem assignRole_confined {t : Nat} {u : User} (h : s.assignRole id role = .ok s')
    (hrole : IsTenantRole role ∨ role ∈ s.getUserRoles id)
    (hu : s.accounts.user id = some u) (ht : u.tenantId = some t) : Confined t s s' := by
  have hchanges := assignRole_changes h
  refine Changes.confined ⟨hchanges.accounts, fun r hr => ?_, hchanges.others⟩ hu ht
  obtain hr | rfl := hchanges.gained r hr
  · exact .inl hr
  · exact hrole.symm

/-- **One accepted request** of a caller who is no platform staff. -/
theorem handle_confined {c : Call} (hstaff : NotStaff s c.caller) (hgrant : GrantsTenantRole s c)
    (h : s.handle c = .ok s') :
    ∃ t, s.accounts.tenantOf c.caller = some t ∧ Confined t s s' := by
  obtain ⟨caller, request⟩ := c
  -- every handler first fetches the caller's row
  have hcaller : ∀ {current : User}, s.accounts.user caller = some current →
      NotStaff s current.id ∧ s.accounts.tenantOf caller = current.tenantId := by
    intro current hcurrent
    rw [Accounts.id_of_user hcurrent, Accounts.tenantOf, hcurrent]
    exact ⟨hstaff, rfl⟩
  cases request with
  | assignRole target role =>
    obtain ⟨current, hcurrent, h⟩ := bind_ok h
    obtain ⟨hnot, htenant⟩ := hcaller (requireAnyRole_ok hcurrent)
    obtain ⟨_, hsame, h⟩ := bind_ok h
    obtain ⟨u, t, hu, hct, hut⟩ := enforceTargetUserSameTenant_ok hnot hsame
    refine ⟨t, htenant.trans hct, ?_⟩
    split at h
    · obtain ⟨_, -, h⟩ := orRaise_bind h
      obtain ⟨_, -, h⟩ := bind_ok h
      exact assignRole_confined h hgrant hu hut
    · exact assignRole_confined h hgrant hu hut
  | removeRole target role =>
    obtain ⟨current, hcurrent, h⟩ := bind_ok h
    obtain ⟨hnot, htenant⟩ := hcaller (requireAnyRole_ok hcurrent)
    obtain ⟨_, hsame, h⟩ := bind_ok h
    obtain ⟨u, t, hu, hct, hut⟩ := enforceTargetUserSameTenant_ok hnot hsame
    exact ⟨t, htenant.trans hct,
      ((removeRole_changes h).mono fun _ hf => hf.elim).confined hu hut⟩
  | createTenantUser tenantId newId email role =>
    obtain ⟨current, hcurrent, h⟩ := bind_ok h
    obtain ⟨hnot, htenant⟩ := hcaller (getCurrentUser_ok hcurrent)
    obtain ⟨_, hscope, h⟩ := bind_ok h
    obtain ⟨_, -, h⟩ := bind_ok h
    obtain ⟨_, -, h⟩ := orRaise_bind h
    obtain ⟨-, h⟩ := require_bind h
    obtain ⟨-, h⟩ := require_bind h
    exact ⟨tenantId, htenant.trans (enforceScope_ok hnot hscope),
      provisionUser_confined (isTenantRole_value role) h⟩
  | updateTenantUser tenantId target email role =>
    obtain ⟨current, hcurrent, h⟩ := bind_ok h
    obtain ⟨hnot, htenant⟩ := hcaller (getCurrentUser_ok hcurrent)
    obtain ⟨_, hscope, h⟩ := bind_ok h
    obtain ⟨_, -, h⟩ := bind_ok h
    obtain ⟨_, -, h⟩ := orRaise_bind h
    obtain ⟨u, hu, h⟩ := orRaise_bind h
    obtain ⟨hut, h⟩ := require_bind h
    obtain ⟨_, -, h⟩ := bind_ok h
    obtain ⟨updated, hemail, h⟩ := bind_ok h
    refine ⟨tenantId, htenant.trans (enforceScope_ok hnot hscope), ?_⟩
    obtain ⟨hroles, htenants, husers⟩ := updateEmail_ok hemail
    have hkept : ∀ v, updated.getUserRoles v = s.getUserRoles v := by
      intro v
      rw [getUserRoles, hroles]
      rfl
    cases role with
    | none =>
      obtain rfl := Except.ok.inj h
      exact ⟨htenants, husers, fun v r hr => .inl (hkept v ▸ hr), fun v => .inl (hkept v)⟩
    | some r =>
      obtain ⟨u', hu', hut'⟩ := husers target u (Accounts.getById_eq_some.mp hu).1
      have hconfined := (setTenantUserRole_changes h).confined (t := tenantId) hu'
        (hut'.trans (by simpa using hut))
      refine ⟨hconfined.tenants.trans htenants, fun v w hw => ?_, fun v r hr => ?_, fun v => ?_⟩
      · obtain ⟨w', hw', hwt'⟩ := husers v w hw
        obtain ⟨w'', hw'', hwt''⟩ := hconfined.users v w' hw'
        exact ⟨w'', hw'', hwt''.trans hwt'⟩
      · rw [← hkept v]
        exact hconfined.gained v r hr
      · rw [← hkept v]
        exact hconfined.others v

/-! ## Sequences of requests -/

/-- The user belongs to the Default Organisation. -/
def InDefaultOrganisation (s : RoleStore) (id : UserId) : Prop :=
  ∃ t tenant, s.accounts.tenantOf id = some t ∧ s.accounts.tenant t = some tenant ∧
    isDefaultTenant tenant = true

/-- What the sequence of requests of `callers` that leads from `s₀` to `s` must not do. -/
structure NoEscalation (callers : List UserId) (s₀ s : RoleStore) : Prop where
  gained : ∀ id, ∀ r ∈ s.getUserRoles id, r ∈ s₀.getUserRoles id ∨ IsTenantRole r
  admins : ∀ id, RoleName.admin ∈ s.getUserRoles id → s.InDefaultOrganisation id
  others : ∀ id, (∀ c ∈ callers, ∀ t, s.accounts.tenantOf c = some t →
    s.accounts.tenantOf id ≠ some t) → s.getUserRoles id = s₀.getUserRoles id

theorem Confined.tenantOf_eq {t : Nat} (h : Confined t s s') {id : UserId} {t' : Nat}
    (hid : s.accounts.tenantOf id = some t') : s'.accounts.tenantOf id = some t' := by
  obtain ⟨u, hu, hut⟩ := Option.bind_eq_some_iff.mp hid
  obtain ⟨u', hu', hut'⟩ := h.users id u hu
  rw [Accounts.tenantOf, hu']
  exact hut'.trans hut

theorem Confined.inDefaultOrganisation {t : Nat} (h : Confined t s s')
    (hid : s.InDefaultOrganisation id) : s'.InDefaultOrganisation id := by
  obtain ⟨t', tenant, ht', htenant, hdefault⟩ := hid
  refine ⟨t', tenant, h.tenantOf_eq ht', ?_, hdefault⟩
  rw [Accounts.tenant, h.tenants]
  exact htenant

/-- One step of the law. -/
theorem NoEscalation.step {callers : List UserId} {s₀ : RoleStore} {c : UserId} {t : Nat}
    (h : NoEscalation callers s₀ s) (hc : c ∈ callers) (ht : s.accounts.tenantOf c = some t)
    (hstep : Confined t s s') : NoEscalation callers s₀ s' where
  gained v r hr := (hstep.gained v r hr).elim (h.gained v r) .inr
  admins v hv := by
    obtain hold | hnew := hstep.gained v _ hv
    · exact hstep.inDefaultOrganisation (h.admins v hold)
    · obtain hnew | hnew := hnew
      · cases hnew
      · cases hnew
  others v hv := by
    have hsame : s'.getUserRoles v = s.getUserRoles v := by
      refine (hstep.others v).resolve_right fun hvt => ?_
      exact hv c hc t (hstep.tenantOf_eq ht) hvt
    refine hsame.trans (h.others v fun d hd t' hdt hvt => ?_)
    exact hv d hd t' (hstep.tenantOf_eq hdt) (hstep.tenantOf_eq hvt)

/-- Who is no staff at the start never becomes staff. -/
theorem NoEscalation.notStaff {callers : List UserId} {s₀ : RoleStore}
    (h : NoEscalation callers s₀ s) (hid : s₀.NotStaff id) : s.NotStaff id := by
  constructor
  · intro hadmin
    obtain hold | hnew | hnew := h.gained id _ hadmin
    · exact hid.1 hold
    · cases hnew
    · cases hnew
  · intro hmoderator
    obtain hold | hnew | hnew := h.gained id _ hmoderator
    · exact hid.2 hold
    · cases hnew
    · cases hnew

/-- **Role grants do not escalate**: whatever callers who start as no platform staff get
accepted, as long as the assign route grants tenant roles only. -/
theorem roles_do_not_escalate (s₀ s : RoleStore) (calls : List Call)
    (hadmins : ∀ id, RoleName.admin ∈ s₀.getUserRoles id → s₀.InDefaultOrganisation id)
    (hcallers : ∀ c ∈ calls, s₀.NotStaff c.caller) (hrun : Run step s₀ calls s)
    (hgrants : Guarded step GrantsTenantRole s₀ calls) :
    NoEscalation (calls.map Call.caller) s₀ s := by
  refine Run.guardedInvariant (G := fun s c => c ∈ calls ∧ GrantsTenantRole s c)
    (P := NoEscalation (calls.map Call.caller) s₀) (fun m c m' hm hc hstep => ?_) hrun
    (hgrants.mono fun _ _ hc hG => ⟨hc, hG⟩) ⟨fun _ _ hr => .inl hr, hadmins, fun _ _ => rfl⟩
  have hhandle : m.handle c = .ok m' := toOption_ok hstep
  obtain ⟨t, ht, hconfined⟩ := handle_confined (hm.notStaff (hcallers c hc.1)) hc.2 hhandle
  exact hm.step (List.mem_map_of_mem hc.1) ht hconfined

/-! ### The assign route -/

/-- A tenant next to the Default Organisation, with a TENANT ADMIN and an invited user. -/
def sampleStore : RoleStore where
  accounts :=
    { users := [⟨1, "root@example.com", some 1, true, some 0, false, true, none⟩,
        ⟨2, "head@example.org", some 5, true, some 0, false, true, some .tenant⟩,
        ⟨3, "staff@example.org", some 5, true, some 0, false, true, some .tenant⟩]
      tenants := [⟨1, "default organisation", "root@example.com", .active⟩,
        ⟨5, "example", "head@example.org", .active⟩] }
  catalogue := [.admin, .user, .guest, .moderator, .tenantAdmin, .usageViewer]
  userRoles := [⟨1, .admin⟩, ⟨2, .tenantAdmin⟩, ⟨3, .user⟩]

theorem sampleStore_admins (id : UserId)
    (h : RoleName.admin ∈ sampleStore.getUserRoles id) :
    sampleStore.InDefaultOrganisation id := by
  rw [mem_getUserRoles] at h
  have hid : id = 1 := by simpa [sampleStore] using h
  subst hid
  exact ⟨1, ⟨1, "default organisation", "root@example.com", .active⟩, rfl, rfl, rfl⟩

/-- The two roles of a tenant are handed out and taken back. -/
def sampleCalls : List Call :=
  [⟨2, .assignRole 3 .tenantAdmin⟩, ⟨3, .createTenantUser 5 4 "new@example.org" .tenantAdmin⟩,
    ⟨3, .updateTenantUser 5 2 (some "chief@example.org") none⟩,
    ⟨3, .updateTenantUser 5 2 none (some .user)⟩, ⟨3, .removeRole 3 .user⟩]

theorem roles_do_not_escalate_sample :
    ∃ s, Run step sampleStore sampleCalls s ∧ NoEscalation [2, 3, 3, 3, 3] sampleStore s := by
  obtain ⟨s, hrun, -⟩ := exists_run_of_map step sampleStore sampleCalls (fun _ => ()) (x := ())
    (by decide +kernel)
  refine ⟨s, hrun, roles_do_not_escalate sampleStore s sampleCalls sampleStore_admins ?_ hrun ?_⟩
  · decide +kernel
  · refine ⟨.inl (.inr rfl), fun _ _ => ⟨trivial, fun _ _ => ⟨trivial, fun _ _ => ⟨trivial,
      fun _ _ => ⟨trivial, fun _ _ => trivial⟩⟩⟩⟩⟩

/-- A TENANT ADMIN makes a user of the own tenant an ADMIN: the caller is no platform staff,
all ADMINs were in the Default Organisation, and the law fails. -/
theorem tenant_admin_grants_admin :
    (∀ id, RoleName.admin ∈ sampleStore.getUserRoles id →
        sampleStore.InDefaultOrganisation id) ∧ sampleStore.NotStaff 2 ∧
      ∃ s, Run step sampleStore [⟨2, .assignRole 3 .admin⟩] s ∧
        RoleName.admin ∉ sampleStore.getUserRoles 3 ∧ RoleName.admin ∈ s.getUserRoles 3 ∧
        ¬ s.InDefaultOrganisation 3 ∧ ¬ NoEscalation [2] sampleStore s := by
  refine ⟨sampleStore_admins, by decide +kernel, ?_⟩
  obtain ⟨s, hrun, hs⟩ := exists_run_of_map step sampleStore [⟨2, .assignRole 3 .admin⟩]
    (fun s => (decide (RoleName.admin ∈ s.getUserRoles 3), s.accounts.tenantOf 3,
      s.accounts.tenants)) (x := (true, some 5, sampleStore.accounts.tenants)) (by decide +kernel)
  simp only [Prod.mk.injEq, decide_eq_true_eq] at hs
  obtain ⟨hadmin, htenant, htenants⟩ := hs
  have hnot : ¬ s.InDefaultOrganisation 3 := by
    rintro ⟨t, tenant, ht, hget, hdefault⟩
    obtain rfl := Option.some.inj (htenant.symm.trans ht)
    rw [Accounts.tenant, htenants] at hget
    obtain rfl := Option.some.inj hget
    exact absurd hdefault (by decide)
  exact ⟨s, hrun, by decide +kernel, hadmin, hnot, fun hlaw => hnot (hlaw.admins 3 hadmin)⟩

end RoleStore

end Ai4iCore.Auth
