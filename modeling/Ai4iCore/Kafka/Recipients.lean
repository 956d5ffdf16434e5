import Ai4iCore.Base.DecimalText
import Ai4iCore.Base.Dict
import Ai4iCore.Base.Relational

/-!
# The recipients of one tenant and of many

`RecipientResolver.for_tenant` asks the database for the recipients of one tenant;
`for_tenants` asks once for many tenants and sorts the rows into the tenants and the platform
administrators. Both rest on one statement about `_unique` (`unique_perm`): of rows that come from
users, it keeps one recipient for every user whose address can be read.

So both name the same users (`for_tenants_agrees`): those of the tenant's own entry are active
users of the tenant, and the platform administrators come in a list of their own. Who is both is
in both lists (`both_lists`).
-/

namespace Ai4iCore.Kafka.Recipients

abbrev Text := List Char

/-! ## The tables -/

/-- `users`, with the text of the key. -/
structure User where
  id : Text
  email : Text
  fullName : Option Text
  isActive : Bool
  isDelete : Option Bool
  tenantId : Option Int
deriving DecidableEq, Repr

/-- `roles`. -/
structure Role where
  id : Int
  name : Text
deriving DecidableEq, Repr

/-- `user_role`. -/
structure UserRole where
  userId : Text
  roleId : Int
deriving DecidableEq, Repr

/-- `tenants`; `name` is the contact. -/
structure Tenant where
  id : Int
  organisation : Text
deriving DecidableEq, Repr

/-- The tables the recipients come from. -/
structure Auth where
  users : List User
  userRole : List UserRole
  roles : List Role
  tenants : List Tenant
  /-- `id` is the primary key of `users`. -/
  unique_ids : (users.map User.id).Nodup

/-- `RecipientRole.ADMIN`. -/
def adminRole : Text := "ADMIN".toList

/-- `RecipientRole.TENANT_ADMIN`. -/
def tenantAdminRole : Text := "TENANT ADMIN".toList

/-! ## Ids and their texts -/

/-- `id::text`, `str(id)`. -/
def idText (id : Int) : Text :=
  if id < 0 then '-' :: Nat.toDigits 10 id.natAbs else Nat.toDigits 10 id.natAbs

/-- `int(text)`, for plain digits with an optional sign. -/
def int (text : Text) : Option Int :=
  let (negative, digits) := Decimal.splitSign text
  (Decimal.parseNat digits).map fun n : Nat => if negative then -(n : Int) else n

theorem int_idText (id : Int) : int (idText id) = some id := by
  unfold int idText
  by_cases hneg : id < 0
  · rw [if_pos hneg]
    show (Decimal.parseNat (Nat.toDigits 10 id.natAbs)).map (fun n : Nat => -(n : Int)) = _
    rw [Decimal.parseNat_toDigits, Option.map_some]
    exact congrArg some (by omega)
  · rw [if_neg hneg]
    obtain ⟨c, rest, hdigits⟩ := List.exists_cons_of_ne_nil
      (Nat.toDigits_ne_nil : Nat.toDigits 10 id.natAbs ≠ [])
    have hall := Decimal.all_isDigit_toDigits id.natAbs
    rw [hdigits, List.all_cons, Bool.and_eq_true] at hall
    rw [hdigits, Decimal.splitSign_digit hall.1]
    show (Decimal.parseNat (c :: rest)).map (fun n : Nat => (n : Int)) = _
    rw [← hdigits, Decimal.parseNat_toDigits, Option.map_some]
    exact congrArg some (by omega)

theorem idText_injective : Function.Injective idText := fun a b h =>
  Option.some.inj ((int_idText a).symm.trans ((congrArg int h).trans (int_idText b)))

/-! ## The statements -/

/-- `FROM users u LEFT JOIN user_role ur … LEFT JOIN roles r …`: a user with the name of a role. -/
def joined (db : Auth) : List (User × Option Text) :=
  (Relational.leftJoin (fun p r => p.2.any fun ur => r.id = ur.roleId)
    (Relational.leftJoin (fun u ur => ur.userId = u.id) db.users db.userRole) db.roles).map
    fun p => (p.1.1, p.2.map Role.name)

/-- `u.is_active IS TRUE AND u.is_delete IS NOT TRUE`. -/
def User.visible (u : User) : Bool := u.isActive && u.isDelete ≠ some true

structure OneTenantParams where
  tenantId : Int
  includeAdmin : Bool
  includeTenantAdmin : Bool
  extraUserIds : List Text
deriving Repr

structure OneTenantRow where
  id : Text
  email : Text
  fullName : Option Text
  tenantName : Option Text
deriving DecidableEq, Repr

/-- `_ONE_TENANT_SQL`; a comparison with a null is not true. -/
def oneTenantSql (db : Auth) (p : OneTenantParams) : List OneTenantRow :=
  (((joined db).filter fun r =>
    r.1.visible &&
      (p.includeAdmin && r.2 = some adminRole ||
        p.includeTenantAdmin && r.2 = some tenantAdminRole && r.1.tenantId = some p.tenantId ||
        r.1.tenantId = some p.tenantId && r.1.id ∈ p.extraUserIds)).map fun r =>
    ⟨r.1.id, r.1.email, r.1.fullName,
      (db.tenants.find? fun t => t.id = p.tenantId).map Tenant.organisation⟩).dedup

structure ManyTenantsParams where
  tenantIds : List Text
  includeAdmin : Bool
  includeTenantAdmin : Bool
  extraUserIds : List Text
deriving Repr

structure ManyTenantsRow where
  tenantId : Option Text
  role : Option Text
  userId : Text
  email : Text
  fullName : Option Text
deriving DecidableEq, Repr

/-- `u.tenant_id::text = ANY(:tenant_ids)`. -/
def User.among (u : User) (tenantIds : List Text) : Bool :=
  u.tenantId.any fun t => idText t ∈ tenantIds

/-- `_MANY_TENANTS_SQL`. -/
def manyTenantsSql (db : Auth) (p : ManyTenantsParams) : List ManyTenantsRow :=
  ((joined db).filter fun r =>
    r.1.visible &&
      (p.includeAdmin && r.2 = some adminRole ||
        p.includeTenantAdmin && r.2 = some tenantAdminRole && r.1.among p.tenantIds ||
        r.1.among p.tenantIds && r.1.id ∈ p.extraUserIds)).map fun r =>
    ⟨r.1.tenantId.map idText, r.2, r.1.id, r.1.email, r.1.fullName⟩

/-- A session on the tables: the rows of a statement, in any order the database likes. -/
structure Session (db : Auth) where
  one : OneTenantParams → List OneTenantRow
  many : ManyTenantsParams → List ManyTenantsRow
  one_perm : ∀ p, (one p).Perm (oneTenantSql db p)
  many_perm : ∀ p, (many p).Perm (manyTenantsSql db p)

/-- The session that answers in the order of the tables. -/
def Session.inOrder (db : Auth) : Session db :=
  ⟨oneTenantSql db, manyTenantsSql db, fun _ => .refl _, fun _ => .refl _⟩

/-! ## The resolver -/

structure Recipient where
  email : Text
  name : Text
deriving DecidableEq, Repr

/-- A user id, the encrypted address and the full name. -/
abbrev Entry : Type := Text × Text × Option Text

section Resolver

/- The decryption of an address: it can raise, and it can give nothing. -/
variable (decrypt : Text → Except Unit (Option Text))

/-- `_recipient`. -/
def recipient (encrypted : Text) (fullName : Option Text) : Option Recipient :=
  match decrypt encrypted with
  | .error _ => none
  | .ok none => none
  | .ok (some email) => if email = [] then none else some ⟨email, fullName.getD []⟩

/-- One turn of the loop of `_unique`. -/
def note (seen : Dict Text Recipient) (row : Entry) : Dict Text Recipient :=
  if (seen.get? row.1).isSome then seen
  else
    match recipient decrypt row.2.1 row.2.2 with
    | none => seen
    | some r => seen.set row.1 r

/-- `_unique`. -/
def unique (rows : List Entry) : List Recipient :=
  ((rows.foldl (note decrypt) []).map Prod.snd).insertionSort fun a b => a.email ≤ b.email

/-- `for_tenant`; `none` where `int(tenant_id)` raises. -/
def forTenant (execute : OneTenantParams → List OneTenantRow) (tenantId : Text)
    (recipientRoles : Dict Text Bool) (extraUserIds : List Text) :
    Option (List Recipient × Option Text) :=
  (int tenantId).map fun tenantId =>
    let rows := execute
      ⟨tenantId, (recipientRoles.get? adminRole).getD false, true, extraUserIds⟩
    (unique decrypt (rows.map fun r => (r.id, r.email, r.fullName)),
      rows.head?.bind OneTenantRow.tenantName)

/-- What a row adds to the entry of its tenant. -/
def tenantEntries (includeTenantAdmin : Bool) (extras : Dict Text (List Text)) (tenant : Text)
    (row : ManyTenantsRow) : List Entry :=
  (if includeTenantAdmin && row.role = some tenantAdminRole then
      [(row.userId, row.email, row.fullName)] else []) ++
    if row.userId ∈ (extras.get? tenant).getD [] then [(row.userId, row.email, row.fullName)]
    else []

/-- One turn of the loop of `for_tenants`. -/
def sortRow (includeAdmin includeTenantAdmin : Bool) (extras : Dict Text (List Text))
    (acc : List Entry × Dict Text (List Entry)) (row : ManyTenantsRow) :
    List Entry × Dict Text (List Entry) :=
  (if includeAdmin && row.role = some adminRole then
      acc.1 ++ [(row.userId, row.email, row.fullName)] else acc.1,
    match row.tenantId with
    | none => acc.2
    | some tenant =>
      match acc.2.get? tenant with
      | none => acc.2
      | some entries =>
        acc.2.set tenant (entries ++ tenantEntries includeTenantAdmin extras tenant row))

/-- The parameters of `_MANY_TENANTS_SQL`. -/
def manyTenantsParams (tenantIds : List Text) (recipientRoles : Dict Text Bool)
    (extras : Dict Text (List Text)) : ManyTenantsParams :=
  ⟨tenantIds, (recipientRoles.get? adminRole).getD false, true,
    (extras.flatMap Prod.snd).dedup.insertionSort (· ≤ ·)⟩

/-- `for_tenants`: the recipients of every tenant, and the platform administrators. -/
def forTenants (execute : ManyTenantsParams → List ManyTenantsRow) (tenantIds : List Text)
    (recipientRoles : Dict Text Bool) (extraUserIds : Dict Text (List Text)) :
    Dict Text (List Recipient) × List Recipient :=
  if tenantIds = [] then ([], [])
  else
    let p := manyTenantsParams tenantIds recipientRoles extraUserIds
    let (admins, perTenant) := (execute p).foldl
      (sortRow p.includeAdmin p.includeTenantAdmin extraUserIds)
      ([], Dict.setAll [] (tenantIds.map fun t => (t, [])))
    (perTenant.map fun e => (e.1, unique decrypt e.2), unique decrypt admins)

end Resolver

/-! ## Who is meant -/

/-- The user holds the role. -/
def holds (db : Auth) (u : User) (role : Text) : Bool :=
  db.userRole.any fun ur => ur.userId = u.id &&
    db.roles.any fun r => r.id = ur.roleId && r.name = role

/-- An active user of the tenant, its administrator or one of its extra recipients. -/
def own (db : Auth) (t : Int) (extraUserIds : List Text) (u : User) : Bool :=
  u.visible && u.tenantId = some t && (holds db u tenantAdminRole || u.id ∈ extraUserIds)

/-- An active platform administrator, when these are asked for. -/
def platformAdmin (db : Auth) (includeAdmin : Bool) (u : User) : Bool :=
  u.visible && includeAdmin && holds db u adminRole

/-- The user as an entry. -/
def User.entry (u : User) : Entry := (u.id, u.email, u.fullName)

/-- One recipient for each user that is meant and whose address can be read. -/
def recipientsOf (decrypt : Text → Except Unit (Option Text)) (db : Auth) (p : User → Bool) :
    List Recipient :=
  (db.users.filter p).filterMap fun u => recipient decrypt u.email u.fullName

/-! ## One recipient for each user -/

section Unique

variable {decrypt : Text → Except Unit (Option Text)}

theorem get?_note (seen : Dict Text Recipient) (row : Entry) (id : Text) :
    (note decrypt seen row).get? id =
      (seen.get? id).or (if row.1 = id then recipient decrypt row.2.1 row.2.2 else none) := by
  unfold note
  split
  · rename_i hseen
    obtain ⟨r, hr⟩ := Option.isSome_iff_exists.mp hseen
    split
    · rename_i hid
      rw [← hid, hr, Option.some_or]
    · rw [Option.or_none]
  · rename_i hnew
    have hnone : seen.get? row.1 = none := Option.not_isSome_iff_eq_none.mp hnew
    split
    · rename_i hrecipient
      rw [hrecipient, ite_self, Option.or_none]
    · rename_i r hrecipient
      rw [Dict.get?_set, hrecipient]
      by_cases hid : row.1 = id
      · rw [if_pos hid.symm, if_pos hid, ← hid, hnone, Option.none_or]
      · rw [if_neg (Ne.symm hid), if_neg hid, Option.or_none]

theorem get?_foldl_note (rows : List Entry) (seen : Dict Text Recipient) (id : Text) :
    (rows.foldl (note decrypt) seen).get? id =
      (seen.get? id).or (rows.findSome? fun row =>
        if row.1 = id then recipient decrypt row.2.1 row.2.2 else none) := by
  induction rows generalizing seen with
  | nil => exact Option.or_none.symm
  | cons row rows ih =>
    rw [List.foldl_cons, ih, get?_note, List.findSome?_cons, Option.or_assoc]
    congr 1
    cases (if row.1 = id then recipient decrypt row.2.1 row.2.2 else none) with
    | none => exact Option.none_or
    | some r => exact Option.some_or

theorem nodup_note {seen : Dict Text Recipient} (hseen : (seen.map Prod.fst).Nodup) (row : Entry) :
    ((note decrypt seen row).map Prod.fst).Nodup := by
  unfold note
  split
  · exact hseen
  · split
    · exact hseen
    · exact Dict.nodup_set _ _ hseen

theorem nodup_foldl_note (rows : List Entry) {seen : Dict Text Recipient}
    (hseen : (seen.map Prod.fst).Nodup) :
    ((rows.foldl (note decrypt) seen).map Prod.fst).Nodup := by
  induction rows generalizing seen with
  | nil => exact hseen
  | cons row rows ih => exact ih (nodup_note hseen row)

/-- The recipient of a user, with its id. -/
def keyed (decrypt : Text → Except Unit (Option Text)) (u : User) : Option (Text × Recipient) :=
  (recipient decrypt u.email u.fullName).map fun r => (u.id, r)

theorem map_snd_filterMap_keyed (users : List User) :
    (users.filterMap (keyed decrypt)).map Prod.snd =
      users.filterMap fun u => recipient decrypt u.email u.fullName := by
  rw [List.map_filterMap]
  refine List.filterMap_congr fun u _ => ?_
  rw [keyed, Option.map_map]
  exact Option.map_id'

theorem map_fst_filterMap_keyed_sublist (users : List User) :
    ((users.filterMap (keyed decrypt)).map Prod.fst).Sublist (users.map User.id) := by
  induction users with
  | nil => exact .slnil
  | cons u users ih =>
    cases hr : recipient decrypt u.email u.fullName with
    | none =>
      have hkeyed : keyed decrypt u = none := by rw [keyed, hr]; rfl
      rw [List.filterMap_cons_none hkeyed]
      exact ih.cons u.id
    | some r =>
      have hkeyed : keyed decrypt u = some (u.id, r) := by rw [keyed, hr]; rfl
      rw [List.filterMap_cons_some hkeyed]
      exact ih.cons_cons u.id

variable {db : Auth} {rows : List Entry} {p : User → Bool}

theorem eq_of_id {u u' : User} (hu : u ∈ db.users) (hu' : u' ∈ db.users) (hid : u.id = u'.id) :
    u = u' :=
  List.inj_on_of_nodup_map db.unique_ids hu hu' hid

/-- Of rows that are those of the users meant, `_unique` keeps one recipient for each of them. -/
theorem unique_perm (hsound : ∀ row ∈ rows, ∃ u ∈ db.users, p u = true ∧ u.entry = row)
    (hcomplete : ∀ u ∈ db.users, p u = true → u.entry ∈ rows) :
    (unique decrypt rows).Perm (recipientsOf decrypt db p) := by
  have hseen : ((rows.foldl (note decrypt) []).map Prod.fst).Nodup :=
    nodup_foldl_note rows List.nodup_nil
  have husers : (((db.users.filter p).filterMap (keyed decrypt)).map Prod.fst).Nodup :=
    ((db.unique_ids.sublist (List.filter_sublist.map User.id))).sublist
      (map_fst_filterMap_keyed_sublist _)
  have hperm : (rows.foldl (note decrypt) []).Perm
      ((db.users.filter p).filterMap (keyed decrypt)) := by
    refine (List.perm_ext_iff_of_nodup hseen.of_map husers.of_map).mpr fun e => ⟨fun he => ?_,
      fun he => ?_⟩
    · have hget := Dict.get?_of_mem hseen he
      rw [get?_foldl_note] at hget
      obtain ⟨row, hrow, hvalue⟩ := List.exists_of_findSome?_eq_some hget
      obtain ⟨u, hu, hp, rfl⟩ := hsound row hrow
      split at hvalue
      · rename_i hid
        refine List.mem_filterMap.mpr ⟨u, List.mem_filter.mpr ⟨hu, hp⟩, ?_⟩
        exact Option.map_eq_some_iff.mpr ⟨e.2, hvalue, Prod.ext hid rfl⟩
      · cases hvalue
    · obtain ⟨u, hu, hkeyed⟩ := List.mem_filterMap.mp he
      obtain ⟨r, hr, rfl⟩ := Option.map_eq_some_iff.mp hkeyed
      obtain ⟨hu, hp⟩ := List.mem_filter.mp hu
      refine Dict.mem_of_get? ?_
      rw [get?_foldl_note]
      show (rows.findSome? fun row => _) = some r
      -- a row that answers for this id is the row of this user
      have hfound : (rows.findSome? fun row =>
          if row.1 = u.id then recipient decrypt row.2.1 row.2.2 else none).isSome = true := by
        refine List.findSome?_isSome_iff.mpr ⟨u.entry, hcomplete u hu hp, ?_⟩
        rw [if_pos (show u.entry.1 = u.id from rfl)]
        exact Option.isSome_iff_exists.mpr ⟨r, hr⟩
      obtain ⟨r', hr'⟩ := Option.isSome_iff_exists.mp hfound
      obtain ⟨row, hrow, hvalue⟩ := List.exists_of_findSome?_eq_some hr'
      obtain ⟨u', hu', -, rfl⟩ := hsound row hrow
      split at hvalue
      · rename_i hid
        obtain rfl := eq_of_id hu' hu hid
        rw [hr', ← hvalue]
        exact hr
      · cases hvalue
  unfold unique recipientsOf
  rw [← map_snd_filterMap_keyed]
  exact (List.perm_insertionSort _ _).trans (hperm.map Prod.snd)

end Unique

/-! ## The rows of the two statements -/

section Rows

variable {db : Auth} {u : User}

theorem mem_joined_some {role : Text} :
    (u, some role) ∈ joined db ↔ u ∈ db.users ∧ holds db u role = true := by
  unfold joined holds
  rw [List.mem_map, List.any_eq_true]
  constructor
  · rintro ⟨⟨⟨u', m⟩, o⟩, hmem, heq⟩
    obtain ⟨rfl, hrole⟩ := Prod.mk.inj heq
    obtain ⟨r, rfl, rfl⟩ := Option.map_eq_some_iff.mp hrole
    obtain ⟨hmem, hr, hon⟩ := Relational.mem_leftJoin_some.mp hmem
    obtain ⟨ur, hur, hid⟩ := (Option.any_eq_true _ _).mp hon
    obtain rfl : m = some ur := hur
    obtain ⟨hu, hur, huser⟩ := Relational.mem_leftJoin_some.mp hmem
    refine ⟨hu, ur, hur, ?_⟩
    rw [Bool.and_eq_true, List.any_eq_true]
    exact ⟨huser, r, hr, by rw [Bool.and_eq_true]; exact ⟨hid, decide_eq_true rfl⟩⟩
  · rintro ⟨hu, ur, hur, h⟩
    rw [Bool.and_eq_true, List.any_eq_true] at h
    obtain ⟨huser, r, hr, h⟩ := h
    rw [Bool.and_eq_true] at h
    refine ⟨((u, some ur), some r), ?_, Prod.ext rfl (congrArg some (of_decide_eq_true h.2))⟩
    exact Relational.mem_leftJoin_some.mpr
      ⟨Relational.mem_leftJoin_some.mpr ⟨hu, hur, huser⟩, hr, h.1⟩

theorem exists_mem_joined : (∃ role, (u, role) ∈ joined db) ↔ u ∈ db.users := by
  unfold joined
  constructor
  · rintro ⟨role, h⟩
    obtain ⟨⟨⟨u', m⟩, o⟩, hmem, heq⟩ := List.mem_map.mp h
    obtain ⟨rfl, -⟩ := Prod.mk.inj heq
    exact Relational.exists_mem_leftJoin.mp ⟨m, Relational.exists_mem_leftJoin.mp ⟨o, hmem⟩⟩
  · intro hu
    have hroles : ∃ m, (u, m) ∈ Relational.leftJoin
        (fun (u : User) (ur : UserRole) => decide (ur.userId = u.id)) db.users db.userRole :=
      Relational.exists_mem_leftJoin.mpr hu
    obtain ⟨m, hm⟩ := hroles
    have hnamed : ∃ o, ((u, m), o) ∈ Relational.leftJoin
        (fun (p : User × Option UserRole) (r : Role) =>
          p.2.any fun ur => decide (r.id = ur.roleId))
        (Relational.leftJoin (fun (u : User) (ur : UserRole) => decide (ur.userId = u.id))
          db.users db.userRole) db.roles :=
      Relational.exists_mem_leftJoin.mpr hm
    obtain ⟨o, ho⟩ := hnamed
    exact ⟨o.map Role.name, List.mem_map.mpr ⟨((u, m), o), ho, rfl⟩⟩

/-- A row of a user as an entry. -/
def OneTenantRow.entry (r : OneTenantRow) : Entry := (r.id, r.email, r.fullName)

def ManyTenantsRow.entry (r : ManyTenantsRow) : Entry := (r.userId, r.email, r.fullName)

/-- `_ONE_TENANT_SQL` finds the platform administrators asked for and the users of the tenant's
own entry. -/
theorem entry_mem_oneTenantSql {t : Int} {includeAdmin : Bool} {extra : List Text} {e : Entry} :
    (∃ r ∈ oneTenantSql db ⟨t, includeAdmin, true, extra⟩, r.entry = e) ↔
      ∃ u ∈ db.users, (own db t extra u || platformAdmin db includeAdmin u) = true ∧
        u.entry = e := by
  unfold oneTenantSql own platformAdmin
  simp only [List.mem_dedup, List.mem_map, List.mem_filter, Bool.and_eq_true, Bool.or_eq_true,
    decide_eq_true_eq, true_and]
  constructor
  · rintro ⟨-, ⟨⟨u, role⟩, ⟨hmem, hvisible, h⟩, rfl⟩, rfl⟩
    have hu : u ∈ db.users := exists_mem_joined.mp ⟨role, hmem⟩
    refine ⟨u, hu, ?_, rfl⟩
    obtain (⟨hinclude, rfl⟩ | ⟨rfl, htenant⟩) | ⟨htenant, hextra⟩ := h
    · exact .inr ⟨⟨hvisible, hinclude⟩, (mem_joined_some.mp hmem).2⟩
    · exact .inl ⟨⟨hvisible, htenant⟩, .inl (mem_joined_some.mp hmem).2⟩
    · exact .inl ⟨⟨hvisible, htenant⟩, .inr hextra⟩
  · rintro ⟨u, hu, h, rfl⟩
    obtain ⟨⟨hvisible, htenant⟩, hrole | hextra⟩ | ⟨⟨hvisible, hinclude⟩, hrole⟩ := h
    · exact ⟨_, ⟨(u, some tenantAdminRole), ⟨mem_joined_some.mpr ⟨hu, hrole⟩, hvisible,
        .inl (.inr ⟨rfl, htenant⟩)⟩, rfl⟩, rfl⟩
    · obtain ⟨role, hmem⟩ := exists_mem_joined.mpr hu
      exact ⟨_, ⟨(u, role), ⟨hmem, hvisible, .inr ⟨htenant, hextra⟩⟩, rfl⟩, rfl⟩
    · exact ⟨_, ⟨(u, some adminRole), ⟨mem_joined_some.mpr ⟨hu, hrole⟩, hvisible,
        .inl (.inl ⟨hinclude, rfl⟩)⟩, rfl⟩, rfl⟩

variable {p : ManyTenantsParams}

theorem mem_manyTenantsSql {r : ManyTenantsRow} :
    r ∈ manyTenantsSql db p ↔ ∃ u role, (u, role) ∈ joined db ∧ u.visible = true ∧
      ((p.includeAdmin = true ∧ role = some adminRole ∨
        (p.includeTenantAdmin = true ∧ role = some tenantAdminRole) ∧
          u.among p.tenantIds = true) ∨
        u.among p.tenantIds = true ∧ u.id ∈ p.extraUserIds) ∧
      ⟨u.tenantId.map idText, role, u.id, u.email, u.fullName⟩ = r := by
  unfold manyTenantsSql
  simp only [List.mem_map, List.mem_filter, Bool.and_eq_true, Bool.or_eq_true,
    decide_eq_true_eq, Prod.exists, and_assoc]

theorem among_of_mem {t : Int} {tenantIds : List Text} (htenant : u.tenantId = some t)
    (ht : idText t ∈ tenantIds) : u.among tenantIds = true := by
  rw [User.among, htenant]
  exact decide_eq_true ht

/-- The rows of the platform role are those of the platform administrators. -/
theorem entry_mem_admins (hinclude : p.includeAdmin = true) {e : Entry} :
    (∃ r ∈ manyTenantsSql db p, r.role = some adminRole ∧ r.entry = e) ↔
      ∃ u ∈ db.users, platformAdmin db true u = true ∧ u.entry = e := by
  unfold platformAdmin
  simp only [Bool.and_eq_true, and_true]
  constructor
  · rintro ⟨r, hr, hrole, rfl⟩
    obtain ⟨u, role, hmem, hvisible, -, rfl⟩ := mem_manyTenantsSql.mp hr
    obtain rfl : role = some adminRole := hrole
    obtain ⟨hu, hholds⟩ := mem_joined_some.mp hmem
    exact ⟨u, hu, ⟨hvisible, hholds⟩, rfl⟩
  · rintro ⟨u, hu, ⟨hvisible, hholds⟩, rfl⟩
    exact ⟨_, mem_manyTenantsSql.mpr ⟨u, some adminRole, mem_joined_some.mpr ⟨hu, hholds⟩,
      hvisible, .inl (.inl ⟨hinclude, rfl⟩), rfl⟩, rfl, rfl⟩

/-- What the rows of a requested tenant add to its entry are its own recipients. -/
theorem entry_mem_own {t : Int} {extras : Dict Text (List Text)}
    (hinclude : p.includeTenantAdmin = true) (ht : idText t ∈ p.tenantIds)
    (hextras : ∀ id ∈ (extras.get? (idText t)).getD [], id ∈ p.extraUserIds) {e : Entry} :
    (∃ r ∈ manyTenantsSql db p, r.tenantId = some (idText t) ∧
        e ∈ tenantEntries true extras (idText t) r) ↔
      ∃ u ∈ db.users, own db t ((extras.get? (idText t)).getD []) u = true ∧ u.entry = e := by
  unfold own tenantEntries
  simp only [Bool.and_eq_true, Bool.or_eq_true, decide_eq_true_eq, Bool.true_and, List.mem_append,
    List.mem_ite_nil_right, List.mem_singleton]
  constructor
  · rintro ⟨r, hr, htenant, h⟩
    obtain ⟨u, role, hmem, hvisible, -, rfl⟩ := mem_manyTenantsSql.mp hr
    have hu : u ∈ db.users := exists_mem_joined.mp ⟨role, hmem⟩
    obtain ⟨t', ht', hid⟩ := Option.map_eq_some_iff.mp htenant
    obtain rfl := idText_injective hid
    obtain ⟨hrole, rfl⟩ | ⟨hextra, rfl⟩ := h
    · obtain rfl : role = some tenantAdminRole := hrole
      exact ⟨u, hu, ⟨⟨hvisible, ht'⟩, .inl (mem_joined_some.mp hmem).2⟩, rfl⟩
    · exact ⟨u, hu, ⟨⟨hvisible, ht'⟩, .inr hextra⟩, rfl⟩
  · rintro ⟨u, hu, ⟨⟨hvisible, htenant⟩, h⟩, rfl⟩
    have hamong := among_of_mem htenant ht
    obtain hrole | hextra := h
    · exact ⟨_, mem_manyTenantsSql.mpr ⟨u, some tenantAdminRole, mem_joined_some.mpr ⟨hu, hrole⟩,
        hvisible, .inl (.inr ⟨⟨hinclude, rfl⟩, hamong⟩), rfl⟩,
        congrArg (Option.map idText) htenant, .inl ⟨rfl, rfl⟩⟩
    · obtain ⟨role, hmem⟩ := exists_mem_joined.mpr hu
      exact ⟨_, mem_manyTenantsSql.mpr ⟨u, role, hmem, hvisible,
        .inr ⟨hamong, hextras _ hextra⟩, rfl⟩, congrArg (Option.map idText) htenant,
        .inr ⟨hextra, rfl⟩⟩

end Rows

/-! ## The loop of `for_tenants` -/

section Loop

variable {includeAdmin includeTenantAdmin : Bool} {extras : Dict Text (List Text)}

theorem foldl_sortRow_fst (rows : List ManyTenantsRow) (acc : List Entry × Dict Text (List Entry)) :
    (rows.foldl (sortRow includeAdmin includeTenantAdmin extras) acc).1 =
      acc.1 ++ (rows.filter fun r => includeAdmin && r.role = some adminRole).map
        ManyTenantsRow.entry := by
  induction rows generalizing acc with
  | nil => exact (List.append_nil _).symm
  | cons row rows ih =>
    rw [List.foldl_cons, ih, sortRow]
    dsimp only
    cases hadmin : (includeAdmin && decide (row.role = some adminRole)) with
    | true =>
      rw [if_pos rfl, List.filter_cons_of_pos (by exact hadmin), List.map_cons, List.append_assoc]
      rfl
    | false =>
      rw [if_neg Bool.false_ne_true, List.filter_cons_of_neg (by rw [hadmin]; exact Bool.false_ne_true)]

theorem get?_sortRow (acc : List Entry × Dict Text (List Entry)) (row : ManyTenantsRow)
    (tenant : Text) :
    (sortRow includeAdmin includeTenantAdmin extras acc row).2.get? tenant =
      (acc.2.get? tenant).map (· ++
        if row.tenantId = some tenant then tenantEntries includeTenantAdmin extras tenant row
        else []) := by
  unfold sortRow
  dsimp only
  split
  · rename_i hnull
    rw [if_neg (by rw [hnull]; exact Option.some_ne_none _ ∘ Eq.symm)]
    simp only [List.append_nil, Option.map_id']
  · rename_i tenant' htenant
    by_cases heq : tenant' = tenant
    · subst heq
      rw [if_pos htenant]
      split
      · rename_i hnone
        rw [hnone]
        rfl
      · rename_i entries hentries
        rw [Dict.get?_set, if_pos rfl, hentries]
        rfl
    · rw [if_neg fun h => heq (Option.some.inj (htenant.symm.trans h))]
      simp only [List.append_nil, Option.map_id']
      split
      · rfl
      · rw [Dict.get?_set, if_neg (Ne.symm heq)]

theorem get?_foldl_sortRow (rows : List ManyTenantsRow)
    (acc : List Entry × Dict Text (List Entry)) (tenant : Text) :
    (rows.foldl (sortRow includeAdmin includeTenantAdmin extras) acc).2.get? tenant =
      (acc.2.get? tenant).map (· ++ rows.flatMap fun row =>
        if row.tenantId = some tenant then tenantEntries includeTenantAdmin extras tenant row
        else []) := by
  induction rows generalizing acc with
  | nil => simp only [List.foldl_nil, List.flatMap_nil, List.append_nil, Option.map_id']
  | cons row rows ih =>
    rw [List.foldl_cons, ih, get?_sortRow, Option.map_map, List.flatMap_cons]
    refine congrArg (fun f => (acc.2.get? tenant).map f) (funext fun entries => ?_)
    exact List.append_assoc _ _ _

end Loop

/-! ## Both name the same users -/

section Agreement

variable {db : Auth} (decrypt : Text → Except Unit (Option Text))

theorem for_tenant_perm (session : Session db) (t : Int) (roles : Dict Text Bool)
    (extra : List Text) :
    ∃ people name, forTenant decrypt session.one (idText t) roles extra = some (people, name) ∧
      people.Perm (recipientsOf decrypt db fun u => own db t extra u ||
        platformAdmin db ((roles.get? adminRole).getD false) u) := by
  unfold forTenant
  rw [int_idText, Option.map_some]
  refine ⟨_, _, rfl, unique_perm (fun row hrow => ?_) fun u hu hmeant => ?_⟩
  · obtain ⟨r, hr, rfl⟩ := List.mem_map.mp hrow
    exact entry_mem_oneTenantSql.mp ⟨r, (session.one_perm _).mem_iff.mp hr, rfl⟩
  · obtain ⟨r, hr, hentry⟩ := entry_mem_oneTenantSql.mpr ⟨u, hu, hmeant, rfl⟩
    exact List.mem_map.mpr ⟨r, (session.one_perm _).mem_iff.mpr hr, hentry⟩

variable (session : Session db) {tenantIds : List Text} (roles : Dict Text Bool)
  (extras : Dict Text (List Text))

theorem for_tenants_own {t : Int} (ht : idText t ∈ tenantIds) :
    ∃ people, (forTenants decrypt session.many tenantIds roles extras).1.get? (idText t) =
        some people ∧
      people.Perm (recipientsOf decrypt db (own db t ((extras.get? (idText t)).getD []))) := by
  have hne : tenantIds ≠ [] := List.ne_nil_of_mem ht
  have hstart : Dict.get? (Dict.setAll [] (tenantIds.map fun t => (t, ([] : List Entry))))
      (idText t) = some [] := by
    refine Dict.get?_setAll_of_mem (List.mem_map.mpr ⟨_, ht, rfl⟩) ?_
    intro e he _
    obtain ⟨t', -, rfl⟩ := List.mem_map.mp he
    rfl
  unfold forTenants
  rw [if_neg hne]
  dsimp only
  rw [Dict.get?_map_snd, get?_foldl_sortRow, hstart]
  have hextras : ∀ id ∈ (extras.get? (idText t)).getD [],
      id ∈ (extras.flatMap Prod.snd).dedup.insertionSort (· ≤ ·) := by
    intro id hid
    rw [List.mem_insertionSort, List.mem_dedup]
    cases hget : extras.get? (idText t) with
    | none =>
      rw [hget] at hid
      cases hid
    | some users =>
      rw [hget] at hid
      exact List.mem_flatMap.mpr ⟨_, Dict.mem_of_get? hget, hid⟩
  refine ⟨_, rfl, unique_perm (fun e he => ?_) fun u hu hown => ?_⟩
  · obtain ⟨r, hr, he⟩ := List.mem_flatMap.mp he
    rw [List.mem_ite_nil_right] at he
    exact (entry_mem_own (p := manyTenantsParams tenantIds roles extras) rfl ht hextras).mp
      ⟨r, (session.many_perm _).mem_iff.mp hr, he⟩
  · obtain ⟨r, hr, htenant, he⟩ :=
      (entry_mem_own (p := manyTenantsParams tenantIds roles extras) rfl ht hextras).mpr ⟨u, hu, hown, rfl⟩
    refine List.mem_append_right _ (List.mem_flatMap.mpr
      ⟨r, (session.many_perm _).mem_iff.mpr hr, ?_⟩)
    rw [if_pos htenant]
    exact he

theorem for_tenants_admins (hne : tenantIds ≠ []) :
    (forTenants decrypt session.many tenantIds roles extras).2.Perm
      (recipientsOf decrypt db (platformAdmin db ((roles.get? adminRole).getD false))) := by
  unfold forTenants
  rw [if_neg hne]
  dsimp only
  rw [foldl_sortRow_fst, List.nil_append]
  refine unique_perm (fun row hrow => ?_) fun u hu hadmin => ?_
  · obtain ⟨r, hr, rfl⟩ := List.mem_map.mp hrow
    obtain ⟨hr, hrole⟩ := List.mem_filter.mp hr
    rw [Bool.and_eq_true] at hrole
    have hinclude : (roles.get? adminRole).getD false = true := hrole.1
    rw [hinclude]
    exact (entry_mem_admins hrole.1).mp
      ⟨r, (session.many_perm _).mem_iff.mp hr, of_decide_eq_true hrole.2, rfl⟩
  · have hinclude : (roles.get? adminRole).getD false = true := by
      rw [platformAdmin, Bool.and_eq_true, Bool.and_eq_true] at hadmin
      exact hadmin.1.2
    rw [hinclude] at hadmin
    obtain ⟨r, hr, hrole, hentry⟩ :=
      (entry_mem_admins (p := manyTenantsParams tenantIds roles extras) hinclude).mpr ⟨u, hu, hadmin, rfl⟩
    refine List.mem_map.mpr ⟨r, List.mem_filter.mpr ⟨(session.many_perm _).mem_iff.mpr hr, ?_⟩,
      hentry⟩
    have hasked : (manyTenantsParams tenantIds roles extras).includeAdmin = true := hinclude
    rw [hasked]
    exact decide_eq_true hrole

end Agreement

/-- **Both resolutions name the same users.** For every tenant that is asked for, `for_tenant` gives
one recipient for each user of the tenant's own entry in `for_tenants` and for each platform
administrator it returns, and `for_tenants` gives one for each of either in its own list; whoever is
in the entry is an active user of the tenant. (An address that cannot be read is nobody's.) -/
theorem for_tenants_agrees {db : Auth} (session : Session db)
    (decrypt : Text → Except Unit (Option Text)) (tenantIds : List Text) (t : Int)
    (ht : idText t ∈ tenantIds) (roles : Dict Text Bool) (extras : Dict Text (List Text)) :
    ∃ (entry admin : User → Bool) (people entryPeople : List Recipient) (name : Option Text),
      forTenant decrypt session.one (idText t) roles ((extras.get? (idText t)).getD []) =
        some (people, name) ∧
      (forTenants decrypt session.many tenantIds roles extras).1.get? (idText t) =
        some entryPeople ∧
      people.Perm (recipientsOf decrypt db fun u => entry u || admin u) ∧
      entryPeople.Perm (recipientsOf decrypt db entry) ∧
      (forTenants decrypt session.many tenantIds roles extras).2.Perm
        (recipientsOf decrypt db admin) ∧
      (∀ u, entry u = true ↔ u.isActive = true ∧ u.isDelete ≠ some true ∧ u.tenantId = some t ∧
        (holds db u tenantAdminRole = true ∨ u.id ∈ (extras.get? (idText t)).getD [])) ∧
      ∀ u, admin u = true ↔ u.isActive = true ∧ u.isDelete ≠ some true ∧
        roles.get? adminRole = some true ∧ holds db u adminRole = true := by
  obtain ⟨people, name, hone, hpeople⟩ := for_tenant_perm decrypt session t roles
    ((extras.get? (idText t)).getD [])
  obtain ⟨entryPeople, hmany, hentry⟩ :=
    for_tenants_own decrypt session roles extras ht
  refine ⟨own db t ((extras.get? (idText t)).getD []),
    platformAdmin db ((roles.get? adminRole).getD false), people, entryPeople, name, hone, hmany,
    hpeople, hentry, for_tenants_admins decrypt session roles extras (List.ne_nil_of_mem ht),
    fun u => ?_, fun u => ?_⟩
  · simp [own, User.visible, and_assoc]
  · cases hrole : roles.get? adminRole with
    | none => simp [platformAdmin]
    | some asked => simp [platformAdmin, User.visible, and_assoc]

/-- An administrator of the platform and of tenant 7, and an extra recipient of tenant 8. -/
def twoUsers : List User :=
  [⟨"u1".toList, "enc1".toList, some "One".toList, true, none, some 7⟩,
    ⟨"u2".toList, "enc2".toList, none, true, some false, some 8⟩]

theorem nodup_twoUsers : (twoUsers.map User.id).Nodup := by decide +kernel

/-- The tables of the two. -/
def twoTenants : Auth where
  users := twoUsers
  userRole := [⟨"u1".toList, 1⟩, ⟨"u1".toList, 2⟩]
  roles := [⟨1, adminRole⟩, ⟨2, tenantAdminRole⟩]
  tenants := [⟨7, "Acme".toList⟩]
  unique_ids := nodup_twoUsers

/-- Addresses that are not encrypted. -/
def plain (address : Text) : Except Unit (Option Text) := .ok (some address)

theorem for_tenants_agrees_for_eight :
    ∃ (entry admin : User → Bool) (people entryPeople : List Recipient) (name : Option Text),
      forTenant plain (Session.inOrder twoTenants).one (idText 8) [(adminRole, true)]
        ((Dict.get? [("8".toList, ["u2".toList])] (idText 8)).getD []) = some (people, name) ∧
      (forTenants plain (Session.inOrder twoTenants).many ["7".toList, "8".toList]
        [(adminRole, true)] [("8".toList, ["u2".toList])]).1.get? (idText 8) = some entryPeople ∧
      people.Perm (recipientsOf plain twoTenants fun u => entry u || admin u) := by
  obtain ⟨entry, admin, people, entryPeople, name, hone, hmany, hpeople, -⟩ :=
    for_tenants_agrees (Session.inOrder twoTenants) plain ["7".toList, "8".toList] 8
      (by decide +kernel) [(adminRole, true)] [("8".toList, ["u2".toList])]
  exact ⟨entry, admin, people, entryPeople, name, hone, hmany, hpeople⟩

/-- The administrator of the platform and of the tenant is one recipient of `for_tenant`, and is in
both lists of `for_tenants`. -/
theorem both_lists :
    (forTenant plain (Session.inOrder twoTenants).one "7".toList [(adminRole, true)] []).map
        Prod.fst = some [⟨"enc1".toList, "One".toList⟩] ∧
      forTenants plain (Session.inOrder twoTenants).many ["7".toList] [(adminRole, true)] [] =
        ([("7".toList, [⟨"enc1".toList, "One".toList⟩])], [⟨"enc1".toList, "One".toList⟩]) := by
  constructor
  · decide +kernel
  · decide +kernel

end Ai4iCore.Kafka.Recipients
