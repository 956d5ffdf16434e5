import Ai4iCore.Base.Run
import Ai4iCore.Base.Table
import Ai4iCore.Task.Service
import Mathlib

/-!
# Notification receivers and routing rules

`NotificationReceiverService` and `RoutingRuleService`: the rows of `notification_receivers` and
`routing_rules`, and what the operations on them accept and write. A receiver is created together
with its routing rule; afterwards both are edited on their own. An update writes what it is given:
the name of a receiver is made from its tenant and its alert names when it is created, and never
again.

Names and ids stay unique (`Reachable.wellFormed`).
-/

namespace Ai4iCore.Alert

open Checked
open Ai4iCore.Task (Text strip lower)

/-! ## Rows -/

/-- `NotificationReceiver`. -/
structure Receiver where
  id : Nat
  receiverName : Text
  ruleName : Option Text
  category : Text
  severity : Text
  emailTo : List Text
  rbacRole : Option Text
  alertNames : Option (List Text)
  tenant : Option Text
  emailSubjectTemplate : Option Text
  emailBodyTemplate : Option Text
  enabled : Bool
  deriving DecidableEq, Repr

/-- `RoutingRule`. -/
structure RoutingRule where
  id : Nat
  ruleName : Text
  receiverId : Nat
  matchSeverity : Option Text
  matchCategory : Option Text
  matchAlertType : Option Text
  matchAlertNames : Option (List Text)
  matchTenantId : Option Text
  groupBy : Option (List Text)
  groupWait : Text
  groupInterval : Text
  repeatInterval : Text
  priority : Int
  enabled : Bool
  deriving DecidableEq, Repr

/-- The two tables, with their id sequences. -/
structure State where
  receivers : List Receiver
  rules : List RoutingRule
  nextReceiver : Nat
  nextRule : Nat

/-- The tables after the migrations. -/
def State.initial : State := ⟨[], [], 1, 1⟩

/-- How an operation is refused. -/
inductive Refusal
  | validationError
  | entityNotFound
  | duplicateEntity
  /-- a constraint of the database -/
  | integrityError
  deriving DecidableEq, Repr

/-- What the auth database answers about recipients; `none` where it is not configured. -/
structure Directory where
  tenantAdminEmails : Text → List Text
  roleEmails : Text → Option (List Text)

/-- `n and str(n).strip()`. -/
def nonBlank (n : Text) : Bool := strip n ≠ []

/-- A field that is set to more than white space, without the white space around it. -/
def stripped (v : Option Text) : Option Text := (v.map strip).filter (· ≠ [])

def validSeverities : List Text := ["critical".toList, "warning".toList, "info".toList]

def validCategories : List Text := ["application".toList, "infrastructure".toList]

def validRbacRoles : List Text :=
  ["ADMIN".toList, "MODERATOR".toList, "USER".toList, "GUEST".toList]

/-- What the schemas check of the recipients: a known role, a list that is not empty, and not
both. -/
def validRecipients (emailTo : Option (List Text)) (rbacRole : Option Text) : Bool :=
  rbacRole.all (· ∈ validRbacRoles) && emailTo.all (· ≠ []) &&
    !(emailTo.isSome && rbacRole.isSome)

/-! ## Receivers -/

/-- `NotificationReceiverCreate`. -/
structure ReceiverCreate where
  category : Text
  severity : Text
  alertType : Option Text
  alertNames : Option (List Text)
  tenant : Option Text
  ruleName : Option Text
  emailTo : Option (List Text)
  rbacRole : Option Text
  emailSubjectTemplate : Option Text
  emailBodyTemplate : Option Text

/-- `f"{severity}-{category}"`. -/
def severityCategory (severity category : Text) : Text := severity ++ '-' :: category

/-- `[n for n in (alert_names or []) if n and str(n).strip()] or None`. -/
def cleanNames (names : Option (List Text)) : Option (List Text) :=
  (names.map (List.filter nonBlank)).filter (· ≠ [])

/-- The suffix parts of `_build_receiver_name`. -/
def suffixParts (data : ReceiverCreate) : List Text :=
  ((cleanNames data.alertNames).map fun names => "alerts-".toList ++
      ['|'].intercalate (names.insertionSort (· ≤ ·))).toList ++
    ((stripped data.tenant).map ("tenant-".toList ++ ·)).toList

/-- `"--" + "--".join(suffix_parts) if suffix_parts else ""`. -/
def suffix (parts : List Text) : Text :=
  if parts = [] then [] else "--".toList ++ "--".toList.intercalate parts

/-- `_build_receiver_name`. -/
def buildReceiverName (data : ReceiverCreate) : Text :=
  severityCategory data.severity data.category ++ suffix (suffixParts data)

/-- The role and the addresses of a new receiver. -/
def resolveRecipients (dir : Directory) (data : ReceiverCreate) :
    Except Refusal (Option Text × List Text) :=
  match stripped data.tenant with
  | some tenant => do
    require (dir.tenantAdminEmails tenant ≠ []) .entityNotFound
    return (data.rbacRole, dir.tenantAdminEmails tenant)
  | none =>
    match data.rbacRole, data.emailTo with
    | none, some emailTo => .ok (none, emailTo)
    | role, _ => do
      let emails ← orRaise (dir.roleEmails (role.getD "ADMIN".toList)) .validationError
      require (emails ≠ []) .entityNotFound
      return (some (role.getD "ADMIN".toList), emails)

/-- The name that `_auto_create_routing_rule` derives, unless it is taken. -/
def derivedName (receiver : Receiver) (data : ReceiverCreate) : Text :=
  match receiver.ruleName, data.alertType.filter (· ≠ []) with
  | some name, _ => name
  | none, none => receiver.receiverName
  | none, some alertType =>
    if ('-' :: alertType).isSuffixOf receiver.receiverName then receiver.receiverName
    else severityCategory data.severity data.category ++ '-' :: alertType ++
      suffix (suffixParts data)

/-- The rule that comes with a new receiver. -/
def autoRoutingRule (s : State) (receiver : Receiver) (data : ReceiverCreate) (name : Text) :
    RoutingRule where
  id := s.nextRule
  ruleName := name
  receiverId := receiver.id
  matchSeverity := some (lower data.severity)
  matchCategory := some (lower data.category)
  matchAlertType := data.alertType
  matchAlertNames := cleanNames data.alertNames
  matchTenantId := none
  groupBy := some ["alertname".toList, "category".toList, "severity".toList]
  groupWait := "10s".toList
  groupInterval := "10s".toList
  repeatInterval := "12h".toList
  priority := 100
  enabled := true

/-- `_auto_create_routing_rule`. -/
def autoCreateRoutingRule (s : State) (receiver : Receiver) (data : ReceiverCreate) :
    Except Refusal State := do
  if s.rules.any fun r => r.receiverId = receiver.id then return s
  let derived := derivedName receiver data
  let name := if s.rules.any fun r => r.ruleName = derived then
      derived ++ '-' :: (toString receiver.id).toList else derived
  require (s.rules.all fun r => r.ruleName ≠ name) .integrityError
  return { s with
    rules := s.rules ++ [autoRoutingRule s receiver data name], nextRule := s.nextRule + 1 }

/-- The row of a new receiver. -/
def newReceiver (s : State) (data : ReceiverCreate) (rbacRole : Option Text)
    (emailTo : List Text) : Receiver where
  id := s.nextReceiver
  receiverName := buildReceiverName data
  ruleName := stripped data.ruleName
  category := lower data.category
  severity := lower data.severity
  emailTo := emailTo
  rbacRole := rbacRole
  alertNames := cleanNames data.alertNames
  tenant := stripped data.tenant
  emailSubjectTemplate := data.emailSubjectTemplate
  emailBodyTemplate := data.emailBodyTemplate
  enabled := true

/-- `NotificationReceiverService.create`. -/
def createReceiver (s : State) (dir : Directory) (data : ReceiverCreate) :
    Except Refusal State := do
  require (validRecipients data.emailTo data.rbacRole) .validationError
  require (data.category ∈ validCategories && data.severity ∈ validSeverities) .validationError
  let recipients ← resolveRecipients dir data
  require (s.receivers.all fun r => r.receiverName ≠ buildReceiverName data) .duplicateEntity
  let receiver := newReceiver s data recipients.1 recipients.2
  autoCreateRoutingRule
    { s with receivers := s.receivers ++ [receiver], nextReceiver := s.nextReceiver + 1 }
    receiver data

/-- `NotificationReceiverUpdate`. -/
structure ReceiverUpdate where
  receiverName : Option Text := none
  ruleName : Option Text := none
  category : Option Text := none
  severity : Option Text := none
  alertNames : Option (List Text) := none
  tenant : Option Text := none
  emailTo : Option (List Text) := none
  rbacRole : Option Text := none
  emailSubjectTemplate : Option Text := none
  emailBodyTemplate : Option Text := none
  enabled : Option Bool := none

/-- The checks of the schema. -/
def ReceiverUpdate.valid (data : ReceiverUpdate) : Bool :=
  validRecipients data.emailTo data.rbacRole &&
    data.category.all (fun v => lower v ∈ validCategories) &&
    data.severity.all (fun v => lower v ∈ validSeverities)

/-- The fields that are written as they are given. -/
def Receiver.apply (r : Receiver) (data : ReceiverUpdate) : Receiver :=
  { r with
    receiverName := data.receiverName.getD r.receiverName
    ruleName := data.ruleName.or r.ruleName
    category := data.category.getD r.category
    severity := data.severity.getD r.severity
    alertNames := data.alertNames.or r.alertNames
    tenant := data.tenant.or r.tenant
    emailSubjectTemplate := data.emailSubjectTemplate.or r.emailSubjectTemplate
    emailBodyTemplate := data.emailBodyTemplate.or r.emailBodyTemplate
    enabled := data.enabled.getD r.enabled }

/-- The recipients that an update leaves. -/
def updateRecipients (dir : Directory) (r : Receiver) (data : ReceiverUpdate) :
    Except Refusal Receiver :=
  match data.rbacRole, data.emailTo with
  | some role, _ => do
    let emails ← orRaise (dir.roleEmails role) .validationError
    return { r with rbacRole := some role, emailTo := emails }
  | none, some emailTo => .ok { r with rbacRole := none, emailTo := emailTo }
  | none, none => .ok r

theorem updateRecipients_role {dir : Directory} {r r' : Receiver} {data : ReceiverUpdate}
    (h : updateRecipients dir r data = .ok r') : r'.rbacRole = none ∨
      r'.rbacRole = data.rbacRole ∨ r'.rbacRole = r.rbacRole := by
  unfold updateRecipients at h
  split at h
  · rename_i role hrole
    obtain ⟨emails, -, h⟩ := orRaise_bind h
    obtain rfl := Except.ok.inj h
    exact .inr (.inl hrole.symm)
  · obtain rfl := Except.ok.inj h
    exact .inl rfl
  · obtain rfl := Except.ok.inj h
    exact .inr (.inr rfl)

theorem updateRecipients_id {dir : Directory} {r r' : Receiver} {data : ReceiverUpdate}
    (h : updateRecipients dir r data = .ok r') : r'.id = r.id := by
  unfold updateRecipients at h
  split at h
  · obtain ⟨emails, -, h⟩ := orRaise_bind h
    obtain rfl := Except.ok.inj h
    rfl
  · obtain rfl := Except.ok.inj h
    rfl
  · obtain rfl := Except.ok.inj h
    rfl

/-- `NotificationReceiverService.update`. -/
def updateReceiver (s : State) (dir : Directory) (id : Nat) (data : ReceiverUpdate) :
    Except Refusal State := do
  require data.valid .validationError
  let row ← orRaise (Table.get Receiver.id s.receivers id) .entityNotFound
  let row' ← updateRecipients dir (row.apply data) data
  require (s.receivers.all fun r => r.id = id || r.receiverName ≠ row'.receiverName)
    .integrityError
  return { s with receivers := Table.modify Receiver.id s.receivers id fun _ => row' }

/-- `NotificationReceiverService.delete`; the rules of the receiver go with it. -/
def deleteReceiver (s : State) (id : Nat) : Except Refusal State := do
  require (Table.get Receiver.id s.receivers id).isSome .entityNotFound
  return { s with
    receivers := s.receivers.filter fun r => r.id ≠ id
    rules := s.rules.filter fun r => r.receiverId ≠ id }

/-! ## Routing rules -/

/-- `RoutingRuleCreate`. -/
structure RuleCreate where
  ruleName : Text
  receiverId : Nat
  matchSeverity : Option Text
  matchCategory : Option Text
  matchAlertType : Option Text
  matchAlertNames : Option (List Text)
  matchTenantId : Option Text
  groupBy : Option (List Text)
  groupWait : Text
  groupInterval : Text
  repeatInterval : Text
  priority : Int

/-- `RoutingRuleService.create`. -/
def createRule (s : State) (data : RuleCreate) : Except Refusal State := do
  require (s.rules.all fun r => r.ruleName ≠ data.ruleName) .duplicateEntity
  require (s.receivers.any fun r => r.id = data.receiverId) .integrityError
  let rule : RoutingRule :=
    { id := s.nextRule, ruleName := data.ruleName, receiverId := data.receiverId
      matchSeverity := data.matchSeverity, matchCategory := data.matchCategory
      matchAlertType := data.matchAlertType, matchAlertNames := data.matchAlertNames
      matchTenantId := data.matchTenantId, groupBy := data.groupBy
      groupWait := data.groupWait, groupInterval := data.groupInterval
      repeatInterval := data.repeatInterval, priority := data.priority, enabled := true }
  return { s with rules := s.rules ++ [rule], nextRule := s.nextRule + 1 }

/-- `RoutingRuleUpdate`. -/
structure RuleUpdate where
  ruleName : Option Text := none
  receiverId : Option Nat := none
  matchSeverity : Option Text := none
  matchCategory : Option Text := none
  matchAlertType : Option Text := none
  matchAlertNames : Option (List Text) := none
  matchTenantId : Option Text := none
  groupBy : Option (List Text) := none
  groupWait : Option Text := none
  groupInterval : Option Text := none
  repeatInterval : Option Text := none
  priority : Option Int := none
  enabled : Option Bool := none

def RoutingRule.apply (r : RoutingRule) (data : RuleUpdate) : RoutingRule :=
  { r with
    ruleName := data.ruleName.getD r.ruleName
    receiverId := data.receiverId.getD r.receiverId
    matchSeverity := data.matchSeverity.or r.matchSeverity
    matchCategory := data.matchCategory.or r.matchCategory
    matchAlertType := data.matchAlertType.or r.matchAlertType
    matchAlertNames := data.matchAlertNames.or r.matchAlertNames
    matchTenantId := data.matchTenantId.or r.matchTenantId
    groupBy := data.groupBy.or r.groupBy
    groupWait := data.groupWait.getD r.groupWait
    groupInterval := data.groupInterval.getD r.groupInterval
    repeatInterval := data.repeatInterval.getD r.repeatInterval
    priority := data.priority.getD r.priority
    enabled := data.enabled.getD r.enabled }

/-- `RoutingRuleService.update`. -/
def updateRule (s : State) (id : Nat) (data : RuleUpdate) : Except Refusal State := do
  let row ← orRaise (Table.get RoutingRule.id s.rules id) .entityNotFound
  let row' := row.apply data
  require (s.rules.all fun r => r.id = id || r.ruleName ≠ row'.ruleName) .duplicateEntity
  require (s.receivers.any fun r => r.id = row'.receiverId) .integrityError
  return { s with rules := Table.modify RoutingRule.id s.rules id fun _ => row' }

/-- `RoutingRuleService.delete`. -/
def deleteRule (s : State) (id : Nat) : Except Refusal State := do
  require (Table.get RoutingRule.id s.rules id).isSome .entityNotFound
  return { s with rules := s.rules.filter fun r => r.id ≠ id }

/-! ## Runs -/

/-- An operation, with what the auth database answers while it runs. -/
inductive Action
  | createReceiver (dir : Directory) (data : ReceiverCreate)
  | updateReceiver (dir : Directory) (id : Nat) (data : ReceiverUpdate)
  | deleteReceiver (id : Nat)
  | createRule (data : RuleCreate)
  | updateRule (id : Nat) (data : RuleUpdate)
  | deleteRule (id : Nat)

def perform (s : State) : Action → Except Refusal State
  | .createReceiver dir data => createReceiver s dir data
  | .updateReceiver dir id data => updateReceiver s dir id data
  | .deleteReceiver id => deleteReceiver s id
  | .createRule data => createRule s data
  | .updateRule id data => updateRule s id data
  | .deleteRule id => deleteRule s id

/-- One accepted operation; a refused one leaves nothing. -/
def step (s : State) (a : Action) : Option State := (perform s a).toOption

/-- A state that the operations lead to. -/
def Reachable (s : State) : Prop := ∃ actions, StepSystem.Run step .initial actions s

/-! ## Names and ids -/

/-- Receivers have ids of the sequence and known roles, no two have the same id or the same name,
and the rules are of receivers of the sequence. -/
structure WellFormed (s : State) : Prop where
  fresh : ∀ r ∈ s.receivers, r.id < s.nextReceiver
  refs : ∀ rule ∈ s.rules, rule.receiverId < s.nextReceiver
  roles : ∀ r ∈ s.receivers, ∀ role ∈ r.rbacRole, role ∈ validRbacRoles
  distinct : s.receivers.Pairwise fun r r' => r.id ≠ r'.id ∧ r.receiverName ≠ r'.receiverName

theorem WellFormed.initial : WellFormed .initial :=
  ⟨fun _ h => absurd h List.not_mem_nil, fun _ h => absurd h List.not_mem_nil,
    fun _ h => absurd h List.not_mem_nil, List.Pairwise.nil⟩

theorem WellFormed.apart {s : State} (h : WellFormed s) {r r' : Receiver}
    (hr : r ∈ s.receivers) (hr' : r' ∈ s.receivers) (hne : r ≠ r') :
    r.id ≠ r'.id ∧ r.receiverName ≠ r'.receiverName := by
  have hsymm : Std.Symm fun r r' : Receiver =>
      r.id ≠ r'.id ∧ r.receiverName ≠ r'.receiverName :=
    ⟨fun _ _ hd => ⟨hd.1.symm, hd.2.symm⟩⟩
  exact h.distinct.forall hr hr' hne

theorem WellFormed.eq_of_id {s : State} (h : WellFormed s) {r r' : Receiver}
    (hr : r ∈ s.receivers) (hr' : r' ∈ s.receivers) (hid : r.id = r'.id) : r = r' := by
  by_contra hne
  exact (h.apart hr hr' hne).1 hid

theorem WellFormed.eq_of_name {s : State} (h : WellFormed s) {r r' : Receiver}
    (hr : r ∈ s.receivers) (hr' : r' ∈ s.receivers) (hname : r.receiverName = r'.receiverName) :
    r = r' := by
  by_contra hne
  exact (h.apart hr hr' hne).2 hname

/-- What only edits the rules. -/
theorem WellFormed.of_receivers {s s' : State} (h : WellFormed s)
    (hreceivers : s'.receivers = s.receivers) (hnext : s'.nextReceiver = s.nextReceiver)
    (hrefs : ∀ rule ∈ s'.rules, rule.receiverId < s.nextReceiver) : WellFormed s' := by
  refine ⟨?_, ?_, ?_, ?_⟩
  · rw [hreceivers, hnext]
    exact h.fresh
  · rw [hnext]
    exact hrefs
  · rw [hreceivers]
    exact h.roles
  · rw [hreceivers]
    exact h.distinct

/-- A receiver of the table has an id of the sequence. -/
theorem WellFormed.lt_of_any {s : State} (h : WellFormed s) {id : Nat}
    (hid : (s.receivers.any fun r => decide (r.id = id)) = true) : id < s.nextReceiver := by
  obtain ⟨r, hr, heq⟩ := List.any_eq_true.mp hid
  exact of_decide_eq_true heq ▸ h.fresh r hr

/-- The rule of a new receiver is appended, unless the receiver has one. -/
theorem autoCreateRoutingRule_spec {s s' : State} {receiver : Receiver} {data : ReceiverCreate}
    (h : autoCreateRoutingRule s receiver data = .ok s') :
    (s' = s ∧ ∃ rule ∈ s.rules, rule.receiverId = receiver.id) ∨
      ∃ name, s' = { s with
        rules := s.rules ++ [autoRoutingRule s receiver data name], nextRule := s.nextRule + 1 } := by
  unfold autoCreateRoutingRule at h
  split at h
  · rename_i hany
    obtain ⟨rule, hrule, hid⟩ := List.any_eq_true.mp hany
    exact .inl ⟨(Except.ok.inj h).symm, rule, hrule, of_decide_eq_true hid⟩
  · obtain ⟨-, h⟩ := require_bind h
    exact .inr ⟨_, (Except.ok.inj h).symm⟩

theorem autoCreateRoutingRule_frame {s s' : State} {receiver : Receiver} {data : ReceiverCreate}
    (h : autoCreateRoutingRule s receiver data = .ok s') :
    s'.receivers = s.receivers ∧ s'.nextReceiver = s.nextReceiver ∧
      ∀ rule ∈ s'.rules, rule ∈ s.rules ∨ rule.receiverId = receiver.id := by
  rcases autoCreateRoutingRule_spec h with ⟨rfl, -⟩ | ⟨name, rfl⟩
  · exact ⟨rfl, rfl, fun _ hrule => .inl hrule⟩
  · refine ⟨rfl, rfl, fun rule hrule => ?_⟩
    rcases List.mem_append.mp hrule with hrule | hrule
    · exact .inl hrule
    · rw [List.mem_singleton.mp hrule]
      exact .inr rfl

/-- A role that passes the schema is a known one. -/
theorem role_of_validRecipients {emailTo : Option (List Text)} {rbacRole : Option Text}
    (h : validRecipients emailTo rbacRole = true) : ∀ role ∈ rbacRole, role ∈ validRbacRoles := by
  rintro role rfl
  simp only [validRecipients, Bool.and_eq_true] at h
  exact of_decide_eq_true h.1.1

theorem resolveRecipients_role {dir : Directory} {data : ReceiverCreate}
    {recipients : Option Text × List Text} (h : resolveRecipients dir data = .ok recipients)
    (hdata : ∀ role ∈ data.rbacRole, role ∈ validRbacRoles) :
    ∀ role ∈ recipients.1, role ∈ validRbacRoles := by
  unfold resolveRecipients at h
  split at h
  · obtain ⟨-, h⟩ := require_bind h
    obtain rfl := Except.ok.inj h
    exact hdata
  · split at h
    · obtain rfl := Except.ok.inj h
      exact fun role hrole => absurd hrole (Option.not_mem_none role)
    · obtain ⟨emails, -, h⟩ := orRaise_bind h
      obtain ⟨-, h⟩ := require_bind h
      obtain rfl := Except.ok.inj h
      intro role hmem
      obtain rfl := Option.some.inj hmem
      cases hrole : data.rbacRole with
      | none => decide
      | some role => exact hdata role hrole

theorem createReceiver_wellFormed {s s' : State} {dir : Directory} {data : ReceiverCreate}
    (h : createReceiver s dir data = .ok s') (hs : WellFormed s) : WellFormed s' := by
  obtain ⟨hvalid, h⟩ := require_bind h
  obtain ⟨-, h⟩ := require_bind h
  obtain ⟨recipients, hrecipients, h⟩ := bind_ok h
  obtain ⟨hname, h⟩ := require_bind h
  obtain ⟨hreceivers, hnext, hrules⟩ := autoCreateRoutingRule_frame h
  refine ⟨?_, ?_, ?_, ?_⟩
  · rw [hreceivers, hnext]
    intro r hr
    rcases List.mem_append.mp hr with hr | hr
    · exact Nat.lt_succ_of_lt (hs.fresh r hr)
    · rw [List.mem_singleton.mp hr]
      exact Nat.lt_succ_self _
  · rw [hnext]
    intro rule hrule
    rcases hrules rule hrule with hold | hnew
    · exact Nat.lt_succ_of_lt (hs.refs rule hold)
    · rw [hnew]
      exact Nat.lt_succ_self _
  · rw [hreceivers]
    intro r hr
    rcases List.mem_append.mp hr with hr | hr
    · exact hs.roles r hr
    · rw [List.mem_singleton.mp hr]
      exact resolveRecipients_role hrecipients (role_of_validRecipients hvalid)
  · rw [hreceivers]
    refine List.pairwise_append.mpr ⟨hs.distinct, List.pairwise_singleton _ _, ?_⟩
    intro r hr r' hr'
    rw [List.mem_singleton.mp hr']
    refine ⟨Nat.ne_of_lt (hs.fresh r hr), ?_⟩
    exact of_decide_eq_true (List.all_eq_true.mp hname r hr)

theorem updateReceiver_wellFormed {s s' : State} {dir : Directory} {id : Nat}
    {data : ReceiverUpdate} (h : updateReceiver s dir id data = .ok s') (hs : WellFormed s) :
    WellFormed s' := by
  obtain ⟨hvalid, h⟩ := require_bind h
  obtain ⟨row, hrow, h⟩ := orRaise_bind h
  obtain ⟨row', hrow', h⟩ := bind_ok h
  obtain ⟨hname, h⟩ := require_bind h
  obtain rfl := Except.ok.inj h
  have hrowid : row.id = id := Table.key_of_get hrow
  have hid : row'.id = id := (updateRecipients_id hrow').trans hrowid
  refine ⟨?_, hs.refs, ?_, ?_⟩
  · intro r hr
    obtain ⟨r₀, hr₀, rfl⟩ := List.mem_map.mp hr
    split
    · rw [updateRecipients_id hrow']
      exact hs.fresh row (Table.mem_of_get hrow)
    · exact hs.fresh r₀ hr₀
  · intro r hr
    obtain ⟨r₀, hr₀, rfl⟩ := List.mem_map.mp hr
    split
    · rcases updateRecipients_role hrow' with hrole | hrole | hrole
      · rw [hrole]
        exact fun role hmem => absurd hmem (Option.not_mem_none role)
      · rw [hrole]
        refine @role_of_validRecipients data.emailTo _ ?_
        simp only [ReceiverUpdate.valid, Bool.and_eq_true] at hvalid
        exact hvalid.1.1
      · rw [hrole]
        exact hs.roles row (Table.mem_of_get hrow)
    · exact hs.roles r₀ hr₀
  · refine List.pairwise_map.mpr (hs.distinct.imp_of_mem ?_)
    intro r r' hr hr' hne
    have hother : ∀ x ∈ s.receivers, x.id ≠ id → x.receiverName ≠ row'.receiverName := by
      intro x hx hxid
      rcases Bool.or_eq_true_iff.mp (List.all_eq_true.mp hname x hx) with hsame | hdiffers
      · exact absurd (of_decide_eq_true hsame) hxid
      · exact of_decide_eq_true hdiffers
    split
    · rename_i hr₀
      rw [if_neg (fun hr'₀ => hne.1 (hr₀.trans hr'₀.symm))]
      have hr'₀ : r'.id ≠ id := fun hr'₀ => hne.1 (hr₀.trans hr'₀.symm)
      exact ⟨fun h => hr'₀ (h.symm.trans hid), fun h => hother r' hr' hr'₀ h.symm⟩
    · rename_i hr₀
      split
      · exact ⟨fun h => hr₀ (h.trans hid), hother r hr hr₀⟩
      · exact hne

theorem deleteReceiver_wellFormed {s s' : State} {id : Nat}
    (h : deleteReceiver s id = .ok s') (hs : WellFormed s) : WellFormed s' := by
  obtain ⟨-, h⟩ := require_bind h
  obtain rfl := Except.ok.inj h
  exact ⟨fun r hr => hs.fresh r (List.mem_filter.mp hr).1,
    fun rule hrule => hs.refs rule (List.mem_filter.mp hrule).1,
    fun r hr => hs.roles r (List.mem_filter.mp hr).1,
    hs.distinct.sublist List.filter_sublist⟩

theorem perform_wellFormed {s s' : State} {a : Action} (h : perform s a = .ok s')
    (hs : WellFormed s) : WellFormed s' := by
  cases a with
  | createReceiver dir data => exact createReceiver_wellFormed h hs
  | updateReceiver dir id data => exact updateReceiver_wellFormed h hs
  | deleteReceiver id => exact deleteReceiver_wellFormed h hs
  | createRule data =>
    obtain ⟨-, h⟩ := require_bind h
    obtain ⟨hid, h⟩ := require_bind h
    obtain rfl := Except.ok.inj h
    refine hs.of_receivers rfl rfl fun rule hrule => ?_
    rcases List.mem_append.mp hrule with hrule | hrule
    · exact hs.refs rule hrule
    · rw [List.mem_singleton.mp hrule]
      exact hs.lt_of_any hid
  | updateRule id data =>
    obtain ⟨row, -, h⟩ := orRaise_bind h
    obtain ⟨-, h⟩ := require_bind h
    obtain ⟨hid, h⟩ := require_bind h
    obtain rfl := Except.ok.inj h
    refine hs.of_receivers rfl rfl fun rule hrule => ?_
    obtain ⟨rule₀, hrule₀, rfl⟩ := List.mem_map.mp hrule
    split
    · exact hs.lt_of_any hid
    · exact hs.refs rule₀ hrule₀
  | deleteRule id =>
    obtain ⟨-, h⟩ := require_bind h
    obtain rfl := Except.ok.inj h
    exact hs.of_receivers rfl rfl fun rule hrule => hs.refs rule (List.mem_filter.mp hrule).1

theorem Reachable.wellFormed {s : State} (h : Reachable s) : WellFormed s := by
  obtain ⟨actions, hrun⟩ := h
  exact hrun.invariant (fun _ a _ hs hstep => perform_wellFormed (toOption_ok hstep) hs) .initial

end Ai4iCore.Alert
