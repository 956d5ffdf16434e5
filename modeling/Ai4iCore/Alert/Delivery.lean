import Ai4iCore.Alert.Definitions
import Ai4iCore.Alert.Routes
import Mathlib.Data.List.DropRight

/-!
# Delivery to the recipients of a receiver

What a receiver is created for: the TENANT ADMINs of a tenant, the users of a role, or a list of
addresses. The renderer knows the first two kinds only; and the route of a tenant's receiver asks
for the tenant's id, where the metrics carry its name (`reaches_iff`).
-/

namespace Ai4iCore.Alert

open Checked
open AlertRouting
open Ai4iCore.Task (Text strip lower isSpace)

/-! ## A receiver as it was created -/

/-- What leaves a receiver and its rule alone. -/
def Action.Spares (receiver rule : Nat) : Action → Prop
  | .createReceiver _ _ => True
  | .updateReceiver _ id _ => id ≠ receiver
  | .deleteReceiver id => id ≠ receiver
  | .createRule _ => True
  | .updateRule id _ => id ≠ rule
  | .deleteRule id => id ≠ rule

/-- A state after a receiver was created, which nobody edited since. -/
def CreatedAndLeft (data : ReceiverCreate) (s : State) : Prop :=
  ∃ (before created : State) (dir : Directory) (actions : List Action),
    Reachable before ∧ createReceiver before dir data = .ok created ∧
    StepSystem.Run step created actions s ∧
    ∀ a ∈ actions, a.Spares before.nextReceiver before.nextRule

/-- What a creation adds. -/
theorem createReceiver_spec {s s' : State} {dir : Directory} {data : ReceiverCreate}
    (hs : WellFormed s) (h : createReceiver s dir data = .ok s') :
    (data.category ∈ validCategories ∧ data.severity ∈ validSeverities) ∧ ∃ recipients name,
      resolveRecipients dir data = .ok recipients ∧
      s'.receivers = s.receivers ++ [newReceiver s data recipients.1 recipients.2] ∧
      s'.rules = s.rules ++
        [autoRoutingRule s (newReceiver s data recipients.1 recipients.2) data name] := by
  obtain ⟨-, h⟩ := require_bind h
  obtain ⟨hvalid, h⟩ := require_bind h
  obtain ⟨recipients, hrecipients, h⟩ := bind_ok h
  obtain ⟨-, h⟩ := require_bind h
  obtain ⟨hcategory, hseverity⟩ := Bool.and_eq_true_iff.mp hvalid
  refine ⟨⟨of_decide_eq_true hcategory, of_decide_eq_true hseverity⟩, recipients, ?_⟩
  rcases autoCreateRoutingRule_spec h with ⟨-, rule, hrule, hid⟩ | ⟨name, rfl⟩
  · exact absurd hid (Nat.ne_of_lt (hs.refs rule hrule))
  · exact ⟨name, hrecipients, rfl, rfl⟩

/-- What spares them keeps a receiver and its rule. -/
theorem perform_keeps {s s' : State} {a : Action} (h : perform s a = .ok s') {r : Receiver}
    {rule : RoutingRule} (hspares : a.Spares r.id rule.id) (hid : rule.receiverId = r.id)
    (hkept : r ∈ s.receivers ∧ rule ∈ s.rules) : r ∈ s'.receivers ∧ rule ∈ s'.rules := by
  obtain ⟨hr, hrule⟩ := hkept
  cases a with
  | createReceiver dir data =>
    obtain ⟨-, h⟩ := require_bind h
    obtain ⟨-, h⟩ := require_bind h
    obtain ⟨recipients, -, h⟩ := bind_ok h
    obtain ⟨-, h⟩ := require_bind h
    rcases autoCreateRoutingRule_spec h with ⟨rfl, -⟩ | ⟨name, rfl⟩
    · exact ⟨List.mem_append_left _ hr, hrule⟩
    · exact ⟨List.mem_append_left _ hr, List.mem_append_left _ hrule⟩
  | updateReceiver dir id data =>
    obtain ⟨-, h⟩ := require_bind h
    obtain ⟨row, -, h⟩ := orRaise_bind h
    obtain ⟨row', -, h⟩ := bind_ok h
    obtain ⟨-, h⟩ := require_bind h
    obtain rfl := Except.ok.inj h
    exact ⟨List.mem_map.mpr ⟨r, hr, if_neg hspares.symm⟩, hrule⟩
  | deleteReceiver id =>
    obtain ⟨-, h⟩ := require_bind h
    obtain rfl := Except.ok.inj h
    exact ⟨List.mem_filter.mpr ⟨hr, decide_eq_true hspares.symm⟩,
      List.mem_filter.mpr ⟨hrule, decide_eq_true (hid ▸ hspares.symm)⟩⟩
  | createRule data =>
    obtain ⟨-, h⟩ := require_bind h
    obtain ⟨-, h⟩ := require_bind h
    obtain rfl := Except.ok.inj h
    exact ⟨hr, List.mem_append_left _ hrule⟩
  | updateRule id data =>
    obtain ⟨row, -, h⟩ := orRaise_bind h
    obtain ⟨-, h⟩ := require_bind h
    obtain ⟨-, h⟩ := require_bind h
    obtain rfl := Except.ok.inj h
    exact ⟨hr, List.mem_map.mpr ⟨rule, hrule, if_neg hspares.symm⟩⟩
  | deleteRule id =>
    obtain ⟨-, h⟩ := require_bind h
    obtain rfl := Except.ok.inj h
    exact ⟨hr, List.mem_filter.mpr ⟨hrule, decide_eq_true hspares.symm⟩⟩

/-- A whole run that spares them does. -/
theorem run_keeps {s s' : State} {actions : List Action} (h : StepSystem.Run step s actions s')
    {r : Receiver} {rule : RoutingRule} (hspares : ∀ a ∈ actions, a.Spares r.id rule.id)
    (hid : rule.receiverId = r.id) (hkept : r ∈ s.receivers ∧ rule ∈ s.rules) :
    r ∈ s'.receivers ∧ rule ∈ s'.rules := by
  induction actions generalizing s with
  | nil => exact StepSystem.run_nil_iff.mp h ▸ hkept
  | cons a actions ih =>
    obtain ⟨m, hstep, hrest⟩ := StepSystem.run_cons_iff.mp h
    exact ih hrest (fun a ha => hspares a (List.mem_cons_of_mem _ ha))
      (perform_keeps (toOption_ok hstep) (hspares a List.mem_cons_self) hid hkept)

/-- The row and the rule are there as the creation wrote them. -/
theorem CreatedAndLeft.rows {data : ReceiverCreate} {s : State} (h : CreatedAndLeft data s) :
    Reachable s ∧ (data.category ∈ validCategories ∧ data.severity ∈ validSeverities) ∧
      ∃ (before : State) (dir : Directory) (recipients : Option Text × List Text) (name : Text),
        resolveRecipients dir data = .ok recipients ∧
        newReceiver before data recipients.1 recipients.2 ∈ s.receivers ∧
        autoRoutingRule before (newReceiver before data recipients.1 recipients.2) data name ∈
          s.rules := by
  obtain ⟨before, created, dir, actions, hbefore, hcreate, hrun, hspares⟩ := h
  obtain ⟨hvalid, recipients, name, hrecipients, hreceivers, hrules⟩ :=
    createReceiver_spec hbefore.wellFormed hcreate
  refine ⟨?_, hvalid, before, dir, recipients, name, hrecipients, ?_⟩
  · obtain ⟨as, has⟩ := hbefore
    refine ⟨as ++ .createReceiver dir data :: actions, StepSystem.run_append_iff.mpr
      ⟨before, has, StepSystem.run_cons_iff.mpr ⟨created, ?_, hrun⟩⟩⟩
    show (createReceiver before dir data).toOption = _
    rw [hcreate]
    rfl
  · refine run_keeps hrun hspares rfl ⟨?_, ?_⟩
    · rw [hreceivers]
      exact List.mem_append_right _ List.mem_cons_self
    · rw [hrules]
      exact List.mem_append_right _ List.mem_cons_self

/-! ## What should be delivered -/

/-- A sync whose queries of the auth database succeed; names of organisations differ in the
comparison of the database, as its index demands. -/
structure Sync.Reads (sync : Sync) : Prop where
  configured : sync.authConfigured = true
  roles : ∀ role, sync.roleFails role = false
  tenants : ∀ name, sync.tenantFails name = false
  organisations : (sync.auth.tenants.map fun t => sync.lowerTrim t.organisation).Nodup

/-- The addresses a receiver is created for: the tenant's, those given, or the role's. -/
def wanted (data : ReceiverCreate) (sync : Sync) (tenant : Tenant) : List Text :=
  match stripped data.tenant, data.rbacRole, data.emailTo with
  | some _, _, _ => addresses tenant.adminEmails
  | none, none, some emailTo => addresses emailTo
  | none, role, _ => addresses (sync.auth.roleEmails (role.getD "ADMIN".toList))

/-- An alert definition with the receiver's severity, category and alert names. -/
structure ReceiverCreate.Matches {F : Type} (data : ReceiverCreate) (d : AlertDefinition F) :
    Prop where
  severity : d.severity = data.severity
  category : d.category = data.category
  name : ∀ names ∈ cleanNames data.alertNames, d.name ∈ names

/-- Every alert of an application rule, of this type and on the metrics of a tenant with this id,
reaches every address that a receiver was created for. -/
def Reaches (F : Type) (replace : List UInt8 → Text) (data : ReceiverCreate)
    (alertType : Option Text) (cache : Nat → Option Text) (id : Nat) : Prop :=
  ∀ s, CreatedAndLeft data s → ∀ sync : Sync, sync.Reads →
    ∀ tenant ∈ sync.auth.tenants, tenant.id = id →
      (∀ name ∈ stripped data.tenant, sync.lowerTrim tenant.organisation = sync.lowerTrim name) →
      ∀ (pathLabel : String) (d : AlertDefinition F), d.IsApplication pathLabel →
        data.Matches d → d.alertType = alertType →
        ∀ series : Labels String Text,
          series "tenant" = tenantLabel replace (some (setTenantHeaders cache id).tenantName) →
          ∀ email ∈ wanted data sync tenant,
            email ∈ (sync.doSync s).delivered ((promRule d).raise series)

/-! ## Names and addresses of the row -/

theorem hasDoubleDash_append (a b : Text) : hasDoubleDash (a ++ '-' :: '-' :: b) = true := by
  induction a with
  | nil => rfl
  | cons c a ih =>
    rw [List.cons_append]
    unfold hasDoubleDash
    split
    · rfl
    · rename_i heq
      obtain ⟨-, rfl⟩ := List.cons.inj heq
      exact ih
    · rename_i heq
      cases heq

theorem lower_of_valid : (∀ v ∈ validSeverities, lower v = v ∧ v ≠ []) ∧
    ∀ v ∈ validCategories, lower v = v ∧ v ≠ [] := by
  decide

theorem strip_strip (t : Text) : strip (strip t) = strip t := by
  have hhead : (strip t).dropWhile isSpace = strip t := by
    have hsplit : strip t ++ ((t.dropWhile isSpace).reverse.takeWhile isSpace).reverse =
        t.dropWhile isSpace := by
      unfold strip
      rw [← List.reverse_append, List.takeWhile_append_dropWhile, List.reverse_reverse]
    cases hstrip : strip t with
    | nil => rfl
    | cons c u =>
      rw [hstrip, List.cons_append] at hsplit
      have hidem : (t.dropWhile isSpace).dropWhile isSpace = t.dropWhile isSpace :=
        List.dropWhile_idempotent _ _
      rw [← hsplit] at hidem
      cases hc : isSpace c with
      | false => exact List.dropWhile_cons_of_neg (by rw [hc]; simp)
      | true =>
        rw [List.dropWhile_cons_of_pos hc] at hidem
        have hlength := congrArg List.length hidem
        have hle := (@List.dropWhile_sublist _ (u ++ ((t.dropWhile isSpace).reverse.takeWhile
          isSpace).reverse) isSpace).length_le
        rw [List.length_cons] at hlength
        omega
  have hlast : (strip t).reverse.dropWhile isSpace = (strip t).reverse := by
    unfold strip
    rw [List.reverse_reverse, List.dropWhile_idempotent]
  show ((List.dropWhile isSpace (strip t)).reverse.dropWhile isSpace).reverse = strip t
  rw [hhead, hlast, List.reverse_reverse]

theorem stripped_stripped (v : Option Text) : stripped (stripped v) = stripped v := by
  cases h : stripped v with
  | none => rfl
  | some t =>
    obtain ⟨hmap, hne⟩ := Option.filter_eq_some_iff.mp h
    obtain ⟨u, -, rfl⟩ := Option.map_eq_some_iff.mp hmap
    show (some (strip (strip u))).filter _ = _
    rw [strip_strip]
    exact Option.filter_eq_some_iff.mpr ⟨rfl, hne⟩

/-- The rule of a new receiver routes to the receiver. -/
theorem receiverNameAm_created {before : State} {data : ReceiverCreate}
    {role : Option Text} {emails : List Text} {name : Text}
    (hcategory : data.category ∈ validCategories) (hseverity : data.severity ∈ validSeverities) :
    receiverNameAm (newReceiver before data role emails)
      (autoRoutingRule before (newReceiver before data role emails) data name) =
        some (buildReceiverName data) := by
  cases hdd : hasDoubleDash (buildReceiverName data) with
  | true => exact if_pos hdd
  | false =>
    have hparts : suffixParts data = [] := by
      by_contra hne
      have hname : buildReceiverName data = severityCategory data.severity data.category ++
          '-' :: '-' :: "--".toList.intercalate (suffixParts data) := by
        unfold buildReceiverName suffix
        rw [if_neg hne]
        rfl
      rw [hname, hasDoubleDash_append] at hdd
      cases hdd
    have hname : buildReceiverName data = severityCategory data.severity data.category := by
      unfold buildReceiverName suffix
      rw [if_pos hparts, List.append_nil]
    rw [hname] at hdd ⊢
    have hdd' : hasDoubleDash (newReceiver before data role emails).receiverName = false := by
      show hasDoubleDash (buildReceiverName data) = false
      rw [hname, hdd]
    refine receiverNameAm_of_sevCat hdd' ⟨?_, (lower_of_valid.1 _ hseverity).2⟩
      ⟨?_, (lower_of_valid.2 _ hcategory).2⟩
    · exact congrArg some (lower_of_valid.1 _ hseverity).1
    · exact congrArg some (lower_of_valid.2 _ hcategory).1

/-- The tenant of a name is found, where names differ. -/
theorem Sync.Reads.resolveTenant {sync : Sync} (h : sync.Reads) {tenant : Tenant} {name : Text}
    (htenant : tenant ∈ sync.auth.tenants)
    (hname : sync.lowerTrim tenant.organisation = sync.lowerTrim name) :
    sync.resolveTenant name = some (tenant.idText, tenant.adminEmails) := by
  unfold Sync.resolveTenant
  rw [h.configured, h.tenants]
  have hfound : Table.get (fun t => sync.lowerTrim t.organisation) sync.auth.tenants
      (sync.lowerTrim name) = some tenant := by
    rw [← hname]
    exact Table.get_of_mem h.organisations htenant
  show (Table.get (fun t => sync.lowerTrim t.organisation) sync.auth.tenants
    (sync.lowerTrim name)).map _ = _
  rw [hfound]
  rfl

/-- The users of a role are found, where there are any. -/
theorem Sync.Reads.mem_fetchEmailsByRole {sync : Sync} (h : sync.Reads) {role email : Text}
    (hemail : email ∈ addresses (sync.auth.roleEmails role)) :
    email ∈ addresses (sync.fetchEmailsByRole role) := by
  have hfetch : sync.fetchEmailsByRole role = sync.auth.roleEmails role := by
    unfold Sync.fetchEmailsByRole
    rw [h.configured, h.roles]
    cases hroles : sync.auth.roleEmails role with
    | nil =>
      rw [hroles] at hemail
      cases hemail
    | cons e es => rfl
  rw [hfetch]
  exact hemail

/-! ## What is delivered -/

/-- The alert has the type that the receiver asks for; the metrics of a receiver's tenant carry
its id; and a receiver without a tenant has no addresses of its own. -/
structure Honoured (data : ReceiverCreate) (alertType : Option Text) (cache : Nat → Option Text)
    (id : Nat) : Prop where
  type : ∀ t ∈ data.alertType, t ≠ [] → alertType = some t
  tenant : stripped data.tenant ≠ none → NamedById cache id
  explicit : stripped data.tenant = none → data.emailTo = none

section Created

variable {before : State} {data : ReceiverCreate} {dir : Directory}
  {recipients : Option Text × List Text} {sync : Sync} {tenant : Tenant}

theorem resolveRecipients_role_eq (h : resolveRecipients dir data = .ok recipients)
    (htenant : stripped data.tenant = none) (hexplicit : data.emailTo = none) :
    recipients.1 = some (data.rbacRole.getD "ADMIN".toList) := by
  unfold resolveRecipients at h
  rw [htenant, hexplicit] at h
  cases hrole : data.rbacRole with
  | none =>
    rw [hrole] at h
    obtain ⟨emails, -, h⟩ := orRaise_bind h
    obtain ⟨-, h⟩ := require_bind h
    obtain rfl := Except.ok.inj h
    rfl
  | some role =>
    rw [hrole] at h
    obtain ⟨emails, -, h⟩ := orRaise_bind h
    obtain ⟨-, h⟩ := require_bind h
    obtain rfl := Except.ok.inj h
    rfl

theorem wanted_role (htenant : stripped data.tenant = none) (hexplicit : data.emailTo = none) :
    wanted data sync tenant =
      addresses (sync.auth.roleEmails (data.rbacRole.getD "ADMIN".toList)) := by
  unfold wanted
  rw [htenant, hexplicit]
  cases data.rbacRole with
  | none => rfl
  | some role => rfl

theorem wanted_tenant {name : Text} (htenant : stripped data.tenant = some name) :
    wanted data sync tenant = addresses tenant.adminEmails := by
  unfold wanted
  rw [htenant]

/-- A tenant's receiver, and one for a role, has the addresses it was created for. -/
theorem recipient_of_wanted (hreads : sync.Reads) (htenant : tenant ∈ sync.auth.tenants)
    (hname : ∀ name ∈ stripped data.tenant,
      sync.lowerTrim tenant.organisation = sync.lowerTrim name)
    (hrecipients : resolveRecipients dir data = .ok recipients)
    (hroles : ∀ role ∈ recipients.1, role ∈ validRbacRoles)
    (hexplicit : stripped data.tenant = none → data.emailTo = none) {email : Text}
    (hemail : email ∈ wanted data sync tenant) :
    email ∈ sync.sources.recipients (newReceiver before data recipients.1 recipients.2) := by
  have hrow : stripped (newReceiver before data recipients.1 recipients.2).tenant =
      stripped data.tenant := stripped_stripped data.tenant
  unfold Sources.recipients
  rw [hrow]
  cases htenantname : stripped data.tenant with
  | some name =>
    rw [wanted_tenant htenantname] at hemail
    have hresolved : sync.sources.tenantResolution name = some (tenant.idText, tenant.adminEmails) :=
      hreads.resolveTenant htenant (hname name htenantname)
    show email ∈ addresses ((Option.map Prod.snd (sync.sources.tenantResolution name)).getD [])
    rw [hresolved]
    exact hemail
  | none =>
    have hrole := resolveRecipients_role_eq hrecipients htenantname (hexplicit htenantname)
    rw [wanted_role htenantname (hexplicit htenantname)] at hemail
    show email ∈ addresses (sync.fetchEmailsByRole ((stripped recipients.1).getD "ADMIN".toList))
    rw [hrole, stripped_role (hroles _ hrole)]
    exact hreads.mem_fetchEmailsByRole hemail

/-- Of an alert that a receiver was created for, its rule asks nothing else. -/
theorem names_created {F : Type} {d : AlertDefinition F} {receiver : Receiver} {name : Text}
    (hmatches : data.Matches d) (hne : (autoRoutingRule before receiver data name).names ≠ []) :
    d.name ∈ (autoRoutingRule before receiver data name).names := by
  have hnames : (autoRoutingRule before receiver data name).names =
      ((cleanNames data.alertNames).getD []).filter nonBlank := rfl
  rw [hnames] at hne ⊢
  cases hclean : cleanNames data.alertNames with
  | none =>
    rw [hclean] at hne
    exact absurd rfl hne
  | some names =>
    have hmem := hmatches.name names hclean
    refine List.mem_filter.mpr ⟨hmem, ?_⟩
    obtain ⟨hmap, -⟩ := Option.filter_eq_some_iff.mp hclean
    obtain ⟨given, -, rfl⟩ := Option.map_eq_some_iff.mp hmap
    exact (List.mem_filter.mp hmem).2

end Created

/-- The conditions of a created rule on an alert that its receiver was created for. -/
theorem matches_created {F : Type} {replace : List UInt8 → Text} {data : ReceiverCreate}
    {cache : Nat → Option Text} {sync : Sync} {tenant : Tenant} {before : State}
    {role : Option Text} {emails : List Text} {name receiverName : Text} {pathLabel : String}
    {d : AlertDefinition F} {series : Labels String Text}
    (hhonoured : Honoured data d.alertType cache tenant.id)
    (hpercent : ∀ name ∈ cache tenant.id, '%' ∉ name) (hreads : sync.Reads)
    (htenant : tenant ∈ sync.auth.tenants)
    (hname : ∀ name ∈ stripped data.tenant,
      sync.lowerTrim tenant.organisation = sync.lowerTrim name)
    (happlication : d.IsApplication pathLabel) (hmatches : data.Matches d)
    (hcategory : data.category ∈ validCategories) (hseverity : data.severity ∈ validSeverities)
    (hseries : series "tenant" =
      tenantLabel replace (some (setTenantHeaders cache tenant.id).tenantName)) :
    matchesAll (ruleRoute sync.sources (newReceiver before data role emails)
      (autoRoutingRule before (newReceiver before data role emails) data name)
      receiverName).matchers ((promRule d).raise series) = true := by
  refine matchesAll_ruleRoute.mpr ⟨fun c hc => ?_, fun names hnames => ?_⟩
  · rcases List.mem_append.mp hc with hc | hc
    · rcases List.mem_append.mp hc with hc | hc
      · rcases List.mem_append.mp hc with hc | hc
        · rcases List.mem_cons.mp hc with rfl | hc
          · rw [severity_of_raise, hmatches.severity]
            exact (lower_of_valid.1 _ hseverity).1.symm
          · rw [List.mem_singleton.mp hc, category_of_raise, hmatches.category]
            exact (lower_of_valid.2 _ hcategory).1.symm
        · obtain ⟨t, ht, rfl⟩ := Option.map_eq_some_iff.mp (Option.mem_toList.mp hc)
          obtain ⟨hasked, hne⟩ := Option.filter_eq_some_iff.mp ht
          have hne := of_decide_eq_true hne
          exact alertType_of_raise (hhonoured.type t hasked hne) hne series
      · split at hc
        · rename_i only hnames
          rw [List.mem_singleton.mp hc, name_of_raise]
          have hmem := names_created hmatches (hnames ▸ List.cons_ne_nil _ _)
          rw [hnames] at hmem
          exact List.mem_singleton.mp hmem
        · cases hc
    · obtain ⟨resolved, hresolved, rfl⟩ := Option.map_eq_some_iff.mp (Option.mem_toList.mp hc)
      obtain ⟨tenantName, htenantName, hresolved⟩ := Option.bind_eq_some_iff.mp hresolved
      have htenantName : stripped data.tenant = some tenantName := by
        rw [← htenantName]
        exact (stripped_stripped data.tenant).symm
      have hfound := hreads.resolveTenant htenant (hname tenantName htenantName)
      obtain rfl := Option.some.inj (hfound.symm.trans hresolved)
      show (promRule d).raise series "tenant" = tenant.idText
      rw [tenant_of_raise happlication, hseries]
      refine (tenantLabel_eq_idText_iff hpercent).mpr (hhonoured.tenant ?_)
      rw [htenantName]
      exact Option.some_ne_none _
  · rw [name_of_raise]
    unfold matchReAlertname at hnames
    split at hnames
    · cases hnames
    · cases hnames
    · rename_i hnil _
      obtain rfl := Option.some.inj hnames
      exact names_created hmatches hnil

theorem dash_mem_buildReceiverName (data : ReceiverCreate) : '-' ∈ buildReceiverName data :=
  List.mem_append_left _ (dash_mem_severityCategory _ _)

/-- What a receiver was created for, it delivers. -/
theorem reaches_of_honoured {F : Type} {replace : List UInt8 → Text} {data : ReceiverCreate}
    {alertType : Option Text} {cache : Nat → Option Text} {id : Nat}
    (hpercent : ∀ name ∈ cache id, '%' ∉ name) (hhonoured : Honoured data alertType cache id) :
    Reaches F replace data alertType cache id := by
  rintro s hs sync hreads tenant htenant rfl hname pathLabel d happlication hmatches rfl series
    hseries email hemail
  obtain ⟨hreach, ⟨hcategory, hseverity⟩, before, dir, recipients, name, hrecipients, hr, hrule⟩ :=
    hs.rows
  have hwf := hreach.wellFormed
  have hrecipient : email ∈ sync.sources.recipients
      (newReceiver before data recipients.1 recipients.2) :=
    recipient_of_wanted hreads htenant hname hrecipients (hwf.roles _ hr) hhonoured.explicit hemail
  obtain ⟨c, hc, hcname, hcemail⟩ := exists_mem_rowReceivers
    (Sync.mem_fetchReceivers.mpr ⟨hr, rfl⟩) (dash_mem_buildReceiverName data) hrecipient
  have hmem := mem_receiversConfig.mpr (.inr (.inr hc))
  have hroute := Sync.ruleRoute_mem_routes hwf hr rfl hrule rfl rfl hmem
    ((receiverNameAm_created hcategory hseverity).trans (congrArg some hcname.symm))
  refine Config.delivered_of_match hroute ?_ (Config.mem_addressesOf.mpr ⟨c, hmem, rfl, hcemail⟩)
  exact matches_created hhonoured hpercent hreads htenant hname happlication hmatches hcategory
    hseverity hseries

/-! ## What is not -/

/-- What the schema and the service accept for alerts of applications, with an address where a
list is given. -/
structure ReceiverCreate.Acceptable (data : ReceiverCreate) : Prop where
  recipients : validRecipients data.emailTo data.rbacRole = true
  category : data.category = "application".toList
  severity : data.severity ∈ validSeverities
  explicit : ∀ emailTo ∈ data.emailTo, addresses emailTo ≠ []

def ownerEmail : Text := "owner@example.org".toList

/-- An auth database that finds one address for whatever it is asked. -/
def oneAddress : Directory := ⟨fun _ => [ownerEmail], fun _ => some [ownerEmail]⟩

theorem exists_resolveRecipients (data : ReceiverCreate) :
    ∃ recipients, resolveRecipients oneAddress data = .ok recipients := by
  unfold resolveRecipients
  split
  · exact ⟨_, rfl⟩
  · split
    · exact ⟨_, rfl⟩
    · exact ⟨_, rfl⟩

/-- The first receiver of all. -/
theorem exists_first {data : ReceiverCreate} (h : data.Acceptable) :
    ∃ (s : State) (recipients : Option Text × List Text) (name : Text), CreatedAndLeft data s ∧
      resolveRecipients oneAddress data = .ok recipients ∧
      s.receivers = [newReceiver .initial data recipients.1 recipients.2] ∧
      s.rules =
        [autoRoutingRule .initial (newReceiver .initial data recipients.1 recipients.2) data
          name] := by
  obtain ⟨recipients, hrecipients⟩ := exists_resolveRecipients data
  have hcategory : data.category ∈ validCategories := by
    rw [h.category]
    decide
  have hcreate : ∃ s, createReceiver .initial oneAddress data = .ok s := by
    cases hcreate : createReceiver .initial oneAddress data with
    | ok s => exact ⟨s, rfl⟩
    | error e =>
      unfold createReceiver at hcreate
      rw [h.recipients, hrecipients, decide_eq_true hcategory, decide_eq_true h.severity] at hcreate
      cases hcreate
  obtain ⟨s, hs⟩ := hcreate
  obtain ⟨-, recipients', name, hrecipients', hreceivers, hrules⟩ :=
    createReceiver_spec .initial hs
  exact ⟨s, recipients', name,
    ⟨.initial, s, oneAddress, [], ⟨[], StepSystem.Run.nil _⟩, hs, StepSystem.Run.nil _,
      fun _ ha => absurd ha List.not_mem_nil⟩, hrecipients', hreceivers, hrules⟩

/-- A sync that finds one tenant, every role with the given addresses, and no default ones. -/
def soleTenant (tenant : Tenant) (emails : List Text) : Sync where
  auth :=
    { tenants := [tenant]
      ids_nodup := List.nodup_singleton _
      organisations_nodup := List.nodup_singleton _
      roleEmails := fun _ => emails }
  authConfigured := true
  roleFails := fun _ => false
  tenantFails := fun _ => false
  lowerTrim := fun name => lower (strip name)
  collation := fun a b => a ≤ b
  defaultReceiverEmails := []
  historyWebhookUrl := some "http://platform-core-service:8095".toList
  formatEmailTemplates := fun _ => ⟨[], []⟩

theorem soleTenant_reads (tenant : Tenant) (emails : List Text) :
    (soleTenant tenant emails).Reads where
  configured := rfl
  roles := fun _ => rfl
  tenants := fun _ => rfl
  organisations := List.nodup_singleton _

/-- An application rule of this type for a receiver. -/
def latencyDefinition (F : Type) [Inhabited F] (data : ReceiverCreate)
    (alertType : Option Text) : AlertDefinition F where
  name := ((cleanNames data.alertNames).getD []).headD "HighLatency".toList
  promqlExpr := .compare ">".toList (latencyQuantile "exported_endpoint" "0.5".toList)
    (.value default)
  category := data.category
  severity := data.severity
  urgency := "medium".toList
  alertType := alertType
  scope := none

section Latency

variable {F : Type} [Inhabited F] {data : ReceiverCreate} {alertType : Option Text}

theorem latencyDefinition_isApplication (h : data.Acceptable) :
    (latencyDefinition F data alertType).IsApplication "exported_endpoint" where
  category := h.category
  built := ⟨⟨"application".toList, some "latency".toList, ⟨[], [], [], []⟩, default, "s".toList, []⟩,
    by
      show lower "application".toList = "application".toList
      decide, rfl⟩

theorem latencyDefinition_matches : data.Matches (latencyDefinition F data alertType) where
  severity := rfl
  category := rfl
  name := by
    intro names hnames
    show ((cleanNames data.alertNames).getD []).headD _ ∈ names
    obtain ⟨-, hne⟩ := Option.filter_eq_some_iff.mp hnames
    rw [hnames]
    cases names with
    | nil => exact absurd rfl (of_decide_eq_true hne)
    | cons n ns => exact List.mem_cons_self

/-- An alert without a type has no label of it. -/
theorem latencyDefinition_alertType (series : Labels String Text) {t : Text} (hne : t ≠ [])
    (h : (promRule (latencyDefinition F data alertType)).raise series "alert_type" = t) :
    alertType = some t := by
  unfold PromRule.raise at h
  rw [if_neg (by decide), promRule_labels_get? _ (by decide) (by decide) (by decide) (by decide),
    if_pos rfl] at h
  cases htype : (latencyDefinition F data alertType).alertType.filter (fun t => decide (t ≠ [])) with
  | none =>
    rw [htype] at h
    exact absurd h.symm hne
  | some t' =>
    rw [htype] at h
    obtain rfl : t' = t := h
    exact (Option.filter_eq_some_iff.mp htype).1

end Latency

theorem severity_ne_reserved {severity : Text} (h : severity ∈ validSeverities) (rest : Text) :
    severity ++ rest ≠ defaultReceiverName ∧ severity ++ rest ≠ historyReceiverName := by
  have hheads : ∀ v ∈ validSeverities, v ≠ [] ∧ v.head? ≠ defaultReceiverName.head? ∧
      v.head? ≠ historyReceiverName.head? := by decide
  obtain ⟨hne, hd, ha⟩ := hheads severity h
  constructor
  · intro heq
    exact hd (by rw [← heq, List.head?_append_of_ne_nil _ hne])
  · intro heq
    exact ha (by rw [← heq, List.head?_append_of_ne_nil _ hne])

/-- Where a history webhook takes every alert, a sole receiver delivers what its route takes. -/
theorem recipient_of_delivered {s : State} {data : ReceiverCreate}
    {recipients : Option Text × List Text} {name : Text} {tenant : Tenant} {emails : List Text}
    (hdata : data.Acceptable)
    (hreceivers : s.receivers = [newReceiver .initial data recipients.1 recipients.2])
    (hrules : s.rules =
      [autoRoutingRule .initial (newReceiver .initial data recipients.1 recipients.2) data name])
    {alert : Alert} {email : Text}
    (h : email ∈ ((soleTenant tenant emails).doSync s).delivered alert) :
    email ∈ (soleTenant tenant emails).sources.recipients
        (newReceiver .initial data recipients.1 recipients.2) ∧
      ∃ receiverName, matchesAll (ruleRoute (soleTenant tenant emails).sources
        (newReceiver .initial data recipients.1 recipients.2)
        (autoRoutingRule .initial (newReceiver .initial data recipients.1 recipients.2) data name)
        receiverName).matchers alert = true := by
  have hcategory : data.category ∈ validCategories := by
    rw [hdata.category]
    decide
  have hhistory : (⟨[], none, historyReceiverName, none, none⟩ : RouteConfig) ∈
      ((soleTenant tenant emails).doSync s).routes :=
    List.mem_filter.mpr ⟨List.mem_append_left _ List.mem_cons_self,
      decide_eq_true (List.mem_map.mpr ⟨_, List.mem_cons_self, rfl⟩)⟩
  obtain ⟨route, hroute, hmatch, hemail⟩ := Config.exists_route_of_delivered hhistory rfl h
  obtain ⟨c, hc, hcname, hemail⟩ := Config.mem_addressesOf.mp hemail
  have hreserved := severity_ne_reserved hdata.severity
    ('-' :: data.category ++ suffix (suffixParts data))
  have hbuilt : buildReceiverName data =
      data.severity ++ ('-' :: data.category ++ suffix (suffixParts data)) :=
    List.append_assoc _ _ _
  rw [← hbuilt] at hreserved
  -- besides the default receiver, only the row has addresses
  have hrow : c.name ≠ defaultReceiverName → c.name = buildReceiverName data ∧
      email ∈ (soleTenant tenant emails).sources.recipients
        (newReceiver .initial data recipients.1 recipients.2) := by
    intro hdefault
    rcases mem_receiversConfig.mp hc with hc | rfl | hc
    · rw [(mem_historyReceiver hc).2] at hemail
      cases hemail
    · exact absurd rfl hdefault
    · obtain ⟨r, hr, hname, hemail⟩ := exists_row_of_recipient hc hemail
      have hr := (Sync.mem_fetchReceivers.mp hr).1
      rw [hreceivers] at hr
      obtain rfl := List.mem_singleton.mp hr
      exact ⟨hname.symm, hemail⟩
  rcases rule_of_mem_rootRoutes hroute with hreceiver | ⟨rule, hrule, hrouteOf⟩
  · rw [hcname, hreceiver] at hrow
    exact absurd (hrow (by decide)).1.symm hreserved.2
  · obtain ⟨own, receiverName, hown, hnameAm, -, rfl⟩ := routeOf_eq_some.mp hrouteOf
    have hown := (Sync.mem_fetchReceivers.mp (Table.mem_of_get hown)).1
    have hrule := (Sync.mem_fetchRules.mp hrule).1
    rw [hreceivers] at hown
    rw [hrules] at hrule
    obtain rfl := List.mem_singleton.mp hown
    obtain rfl := List.mem_singleton.mp hrule
    have hname : receiverName = buildReceiverName data :=
      Option.some.inj (hnameAm.symm.trans (receiverNameAm_created hcategory hdata.severity))
    refine ⟨(hrow ?_).2, receiverName, hmatch⟩
    rw [hcname]
    exact hname ▸ hreserved.1

/-- What reaches the addresses it was created for meets the condition. -/
theorem honoured_of_reaches {F : Type} [Inhabited F] {replace : List UInt8 → Text}
    {data : ReceiverCreate} {alertType : Option Text} {cache : Nat → Option Text} {id : Nat}
    (hdata : data.Acceptable) (hpercent : ∀ name ∈ cache id, '%' ∉ name)
    (h : Reaches F replace data alertType cache id) : Honoured data alertType cache id := by
  obtain ⟨s, recipients, name, hs, hrecipients, hreceivers, hrules⟩ := exists_first hdata
  let tenant : Tenant := ⟨id, (stripped data.tenant).getD "Sample".toList, [ownerEmail]⟩
  let series : Labels String Text := fun _ =>
    tenantLabel replace (some (setTenantHeaders cache id).tenantName)
  have hdelivered : ∀ emails, ∀ email ∈ wanted data (soleTenant tenant emails) tenant,
      email ∈ ((soleTenant tenant emails).doSync s).delivered
        ((promRule (latencyDefinition F data alertType)).raise series) := by
    intro emails
    refine h s hs _ (soleTenant_reads tenant emails) tenant List.mem_cons_self rfl ?_ _ _
      (latencyDefinition_isApplication hdata) latencyDefinition_matches rfl series rfl
    intro tenantName hname
    show lower (strip ((stripped data.tenant).getD _)) = lower (strip tenantName)
    rw [hname]
    rfl
  have hrow : stripped (newReceiver .initial data recipients.1 recipients.2).tenant =
      stripped data.tenant := stripped_stripped data.tenant
  have hexplicit : stripped data.tenant = none → data.emailTo = none := by
    intro htenant
    by_contra hne
    obtain ⟨emailTo, hemailTo⟩ := Option.ne_none_iff_exists'.mp hne
    have hrole : data.rbacRole = none := by
      have hrecipients := hdata.recipients
      rw [hemailTo] at hrecipients
      cases hrole : data.rbacRole with
      | none => rfl
      | some role =>
        rw [hrole] at hrecipients
        simp [validRecipients] at hrecipients
    obtain ⟨email, hemail⟩ := List.exists_mem_of_ne_nil _ (hdata.explicit emailTo hemailTo)
    have hwanted : email ∈ wanted data (soleTenant tenant []) tenant := by
      unfold wanted
      rw [htenant, hrole, hemailTo]
      exact hemail
    obtain ⟨hrecipient, -⟩ :=
      recipient_of_delivered hdata hreceivers hrules (hdelivered [] email hwanted)
    unfold Sources.recipients at hrecipient
    rw [hrow, htenant] at hrecipient
    rcases (soleTenant tenant []).fetchEmailsByRole_cases
      ((stripped recipients.1).getD "ADMIN".toList) with heq | heq | heq
    all_goals
      have hnil : email ∈ addresses ((soleTenant tenant []).fetchEmailsByRole
        ((stripped recipients.1).getD "ADMIN".toList)) := hrecipient
      rw [heq] at hnil
      cases hnil
  have hwanted : ownerEmail ∈ wanted data (soleTenant tenant [ownerEmail]) tenant := by
    cases htenant : stripped data.tenant with
    | some tenantName =>
      rw [wanted_tenant htenant]
      show ownerEmail ∈ addresses [ownerEmail]
      decide
    | none =>
      rw [wanted_role htenant (hexplicit htenant)]
      show ownerEmail ∈ addresses [ownerEmail]
      decide
  obtain ⟨-, receiverName, hmatch⟩ :=
    recipient_of_delivered hdata hreceivers hrules (hdelivered _ ownerEmail hwanted)
  refine ⟨fun t ht hne => ?_, fun hne => ?_, hexplicit⟩
  · refine latencyDefinition_alertType series hne
      ((matchesAll_ruleRoute.mp hmatch).1 ("alert_type", t) ?_)
    refine List.mem_append_left _ (List.mem_append_left _ (List.mem_append_right _ ?_))
    have hfilter : data.alertType.filter (fun t => decide (t ≠ [])) = some t :=
      Option.filter_eq_some_iff.mpr ⟨ht, decide_eq_true hne⟩
    show ("alert_type", t) ∈ ((data.alertType.filter (fun t => decide (t ≠ []))).map _).toList
    rw [hfilter]
    exact List.mem_cons_self
  · obtain ⟨tenantName, htenantName⟩ := Option.ne_none_iff_exists'.mp hne
    have horganisation : lower (strip tenant.organisation) = lower (strip tenantName) := by
      show lower (strip ((stripped data.tenant).getD _)) = lower (strip tenantName)
      rw [htenantName]
      rfl
    have hresolved : (soleTenant tenant [ownerEmail]).resolveTenant tenantName =
        some (tenant.idText, tenant.adminEmails) :=
      (soleTenant_reads tenant [ownerEmail]).resolveTenant List.mem_cons_self horganisation
    have hlabel := tenant_of_match (hrow.trans htenantName) hresolved hmatch
    rw [tenant_of_raise (latencyDefinition_isApplication hdata)] at hlabel
    exact (tenantLabel_eq_idText_iff hpercent).mp hlabel

/-- Alerts reach the addresses that a receiver was created for when they have the type it asks
for, and the receiver is for a role, or for a tenant that the process of auth-service knows by its
id. -/
theorem reaches_iff {F : Type} [Inhabited F] {replace : List UInt8 → Text} {data : ReceiverCreate}
    {alertType : Option Text} {cache : Nat → Option Text} {id : Nat} (hdata : data.Acceptable)
    (hpercent : ∀ name ∈ cache id, '%' ∉ name) :
    Reaches F replace data alertType cache id ↔ Honoured data alertType cache id :=
  ⟨honoured_of_reaches hdata hpercent, reaches_of_honoured hpercent⟩

/-! A receiver of a tenant whose name auth-service knows, and a receiver with an address. -/

def criticalReceiver (tenant : Option Text) (emailTo : Option (List Text))
    (rbacRole : Option Text) : ReceiverCreate where
  category := "application".toList
  severity := "critical".toList
  alertType := none
  alertNames := none
  tenant := tenant
  ruleName := none
  emailTo := emailTo
  rbacRole := rbacRole
  emailSubjectTemplate := none
  emailBodyTemplate := none

theorem criticalReceiver_acceptable {tenant rbacRole : Option Text} {emailTo : Option (List Text)}
    (hrecipients : validRecipients emailTo rbacRole = true)
    (hexplicit : ∀ emails ∈ emailTo, addresses emails ≠ []) :
    (criticalReceiver tenant emailTo rbacRole).Acceptable :=
  ⟨hrecipients, rfl, by
    show "critical".toList ∈ validSeverities
    decide, hexplicit⟩

def acme : Tenant := ⟨7, "Acme".toList, ["lead@acme.example".toList]⟩

/-- The names in memory: that of the tenant. -/
def acmeCache : Nat → Option Text := fun id => if id = 7 then some "Acme".toList else none

/-- The state after the first receiver. -/
def firstState (data : ReceiverCreate) : State :=
  ((createReceiver .initial oneAddress data).toOption).getD .initial

theorem firstState_createdAndLeft {data : ReceiverCreate}
    (h : (createReceiver .initial oneAddress data).toOption.isSome = true) :
    CreatedAndLeft data (firstState data) := by
  obtain ⟨s, hs⟩ := Option.isSome_iff_exists.mp h
  have hstate : firstState data = s := by
    unfold firstState
    rw [hs]
    rfl
  rw [hstate]
  exact ⟨.initial, s, oneAddress, [], ⟨[], StepSystem.Run.nil _⟩, toOption_ok hs,
    StepSystem.Run.nil _, fun _ ha => absurd ha List.not_mem_nil⟩

/-- An alert on the metrics of the tenant's requests. -/
def acmeAlert (data : ReceiverCreate) : Alert :=
  (promRule (latencyDefinition Nat data none)).raise fun _ =>
    tenantLabel (fun _ => []) (some (setTenantHeaders acmeCache 7).tenantName)

/-- Neither the tenant's lead nor the address that was given gets the alert. -/
theorem recipients_not_reached :
    (CreatedAndLeft (criticalReceiver (some "Acme".toList) none none)
        (firstState (criticalReceiver (some "Acme".toList) none none)) ∧
      "lead@acme.example".toList ∈ wanted (criticalReceiver (some "Acme".toList) none none)
        (soleTenant acme ["admin@core.example".toList]) acme ∧
      "lead@acme.example".toList ∉ ((soleTenant acme ["admin@core.example".toList]).doSync
          (firstState (criticalReceiver (some "Acme".toList) none none))).delivered
        (acmeAlert (criticalReceiver (some "Acme".toList) none none))) ∧
    CreatedAndLeft (criticalReceiver none (some ["oncall@example.com".toList]) none)
        (firstState (criticalReceiver none (some ["oncall@example.com".toList]) none)) ∧
      "oncall@example.com".toList ∈
        wanted (criticalReceiver none (some ["oncall@example.com".toList]) none)
          (soleTenant acme ["admin@core.example".toList]) acme ∧
      "oncall@example.com".toList ∉ ((soleTenant acme ["admin@core.example".toList]).doSync
          (firstState (criticalReceiver none (some ["oncall@example.com".toList]) none))).delivered
        (acmeAlert (criticalReceiver none (some ["oncall@example.com".toList]) none)) := by
  refine ⟨⟨firstState_createdAndLeft (by decide +kernel), by decide +kernel, by decide +kernel⟩,
    firstState_createdAndLeft (by decide +kernel), by decide +kernel, by decide +kernel⟩

/-- A role's receiver, and a tenant's one while auth-service has no name of the tenant. -/
theorem reaches_role :
    Reaches Nat (fun _ => []) (criticalReceiver none none (some "MODERATOR".toList))
        (some "Latency".toList) acmeCache 7 ∧
      Reaches Nat (fun _ => []) (criticalReceiver (some "Acme".toList) none none) none
        (fun _ => none) 7 := by
  have hnone : ∀ emails ∈ (none : Option (List Text)), addresses emails ≠ [] :=
    fun emails h => absurd h (Option.not_mem_none emails)
  have hacme : ∀ name ∈ acmeCache 7, '%' ∉ name := by
    intro name h
    obtain rfl : "Acme".toList = name := Option.some.inj h
    decide
  refine ⟨(reaches_iff (criticalReceiver_acceptable (by decide) hnone) hacme).mpr ⟨?_, ?_, ?_⟩,
    (reaches_iff (criticalReceiver_acceptable (by decide) hnone)
      (fun name h => absurd h (Option.not_mem_none name))).mpr ⟨?_, ?_, ?_⟩⟩
  · exact fun t h => absurd h (Option.not_mem_none t)
  · exact fun h => absurd rfl h
  · exact fun _ => rfl
  · exact fun t h => absurd h (Option.not_mem_none t)
  · exact fun _ name h => absurd h (Option.not_mem_none name)
  · exact fun _ => rfl

end Ai4iCore.Alert
