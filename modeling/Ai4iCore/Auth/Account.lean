import Ai4iCore.ApiKey.Row
import Ai4iCore.Base.Table

/-!
# Accounts

The users and tenants of the authentication service (`models/user.py`,
`models/tenant.py`) with the queries on them (`user_repository.py`,
`tenant_repository.py`).

E-mail addresses are kept as the encrypted column compares them, stripped and in
lower case; the name of an organisation as `is_default_tenant` compares it,
stripped and case-folded.
-/

namespace Ai4iCore.Auth

open ApiKey (TenantStatus Time)

/-- A user's UUID. -/
abbrev UserId := Nat

/-- `CreationType`. -/
inductive CreationType
  | default
  | google
  | tenant
deriving Repr, DecidableEq

/-- A row of `users`. A NULL `is_delete` reads as `false`, a NULL `is_tenant_active` as
`true`. -/
structure User where
  id : UserId
  email : String
  tenantId : Option Nat
  isActive : Bool
  activatedAt : Option Time
  isDelete : Bool
  isTenantActive : Bool
  creationType : Option CreationType
deriving Repr, DecidableEq

namespace User

/-- `is_self_registered`. -/
def isSelfRegistered (u : User) : Bool :=
  u.creationType = some .default || u.creationType = some .google

/-- `is_activated`. -/
def isActivated (u : User) : Bool := u.activatedAt.isSome

/-- `mark_activated`. -/
def markActivated (u : User) (now : Time) : User :=
  { u with isActive := true, activatedAt := some (u.activatedAt.getD now) }

end User

/-- The columns of `tenants` that authentication reads. -/
structure Tenant where
  id : Nat
  organisation : String
  email : String
  status : TenantStatus
deriving Repr, DecidableEq

/-- `is_default_tenant`, for `settings.default_tenant_org`. -/
def isDefaultTenant (t : Tenant) : Bool := t.organisation = "default organisation"

/-- The two tables. -/
structure Accounts where
  users : List User
  tenants : List Tenant
deriving Repr, DecidableEq

namespace Accounts

/-- The row of a user, deleted or not. -/
def user (a : Accounts) (id : UserId) : Option User := Table.get User.id a.users id

/-- `UserRepository.get_by_id`. -/
def getById (a : Accounts) (id : UserId) : Option User := (a.user id).filter fun u => !u.isDelete

/-- `UserRepository.get_by_email`. -/
def getByEmail (a : Accounts) (email : String) : Option User :=
  a.users.find? fun u => u.email = email && !u.isDelete

/-- `email_exists`: deleted users count. -/
def emailExists (a : Accounts) (email : String) : Bool :=
  a.users.any fun u => u.email = email

/-- `TenantRepository.get_by_id`. -/
def tenant (a : Accounts) (id : Nat) : Option Tenant := Table.get Tenant.id a.tenants id

/-- The tenant a user belongs to. -/
def tenantOf (a : Accounts) (id : UserId) : Option Nat := (a.user id).bind User.tenantId

/-- An `UPDATE` of one user. -/
def modifyUser (a : Accounts) (id : UserId) (f : User → User) : Accounts :=
  { a with users := Table.modify User.id a.users id f }

/-- User ids are unique. -/
def WellFormed (a : Accounts) : Prop := (a.users.map User.id).Nodup

theorem user_of_getByEmail {a : Accounts} (h : a.WellFormed) {email : String} {u : User}
    (hu : a.getByEmail email = some u) : a.user u.id = some u ∧ u.isDelete = false := by
  refine ⟨Table.get_of_mem h (List.mem_of_find?_eq_some hu), ?_⟩
  have hfound := List.find?_some hu
  rw [Bool.and_eq_true] at hfound
  simpa using hfound.2

theorem getById_eq_some {a : Accounts} {id : UserId} {u : User} :
    a.getById id = some u ↔ a.user id = some u ∧ u.isDelete = false := by
  rw [getById, Option.filter_eq_some_iff]
  simp

theorem id_of_user {a : Accounts} {id : UserId} {u : User} (h : a.user id = some u) :
    u.id = id :=
  Table.key_of_get h

theorem user_modifyUser (a : Accounts) (id v : UserId) (f : User → User)
    (hf : ∀ u, (f u).id = u.id) :
    (a.modifyUser id f).user v = (a.user v).map fun u => if v = id then f u else u :=
  Table.get_modify hf

end Accounts

end Ai4iCore.Auth
