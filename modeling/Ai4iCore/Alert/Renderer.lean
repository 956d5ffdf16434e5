import Ai4iCore.Alert.Receivers
import Ai4iCore.Alert.TenantLabel
import Ai4iCore.Base.AlertRouting

/-!
# The Alertmanager configuration

`_do_sync` (sync_service.py) reads the enabled rows, resolves tenants and roles in the auth
database, and `generate_alertmanager_yaml` (config_renderer.py) renders receivers, routes and the
inhibition rule from them. Every route is a child of the root and continues.

What Alertmanager makes of the configuration is `AlertRouting`; `match: {label: null}` reads as
the empty value, and an alternative of escaped names as these names.
-/

namespace Ai4iCore.Alert

open AlertRouting
open Ai4iCore.Task (Text strip)

/-! ## The configuration -/

/-- An entry of `email_configs`; none sends resolved alerts. -/
structure EmailConfig where
  recipient : Text
  html : Text
  subject : Text
  deriving DecidableEq, Repr

structure ReceiverConfig where
  name : Text
  emailConfigs : List EmailConfig
  webhookUrl : Option Text
  deriving DecidableEq, Repr

/-- The intervals of a route. -/
structure Timing where
  groupWait : Text
  groupInterval : Text
  repeatInterval : Text
  deriving DecidableEq, Repr

/-- A child of the root. -/
structure RouteConfig where
  conditions : Dict String Text
  alertNames : Option (List Text)
  receiver : Text
  timing : Option Timing
  groupBy : Option (List Text)
  deriving DecidableEq, Repr

structure Config where
  receivers : List ReceiverConfig
  receiver : Text
  groupBy : List Text
  timing : Timing
  routes : List RouteConfig
  inhibitRules : List (InhibitRule String Text)

/-! ## What Alertmanager makes of it -/

/-- The labels of an alert. -/
abbrev Alert := Labels String Text

def RouteConfig.matchers (r : RouteConfig) : List (Matcher String Text) :=
  r.conditions.map (fun c => .eq c.1 c.2) ++ r.alertNames.toList.map (.oneOf "alertname")

def Config.tree (c : Config) : Route String Text Text :=
  .node [] c.receiver false (c.routes.map fun r => .leaf r.matchers r.receiver)

/-- The addresses of the receivers of this name. -/
def Config.addressesOf (c : Config) (name : Text) : List Text :=
  ((c.receivers.filter fun r => r.name = name).flatMap ReceiverConfig.emailConfigs).map
    EmailConfig.recipient

/-- The addresses to which an alert is delivered. -/
def Config.delivered (c : Config) (alert : Alert) : List Text :=
  (c.tree.receivers alert).flatMap c.addressesOf

/-- An alert that fires suppresses another one. -/
def Config.suppresses (c : Config) (source target : Alert) : Bool :=
  muted c.inhibitRules [source] target

/-! ## Rendering -/

structure EmailTemplates where
  subject : Text
  body : Text

/-- The arguments of `generate_alertmanager_yaml` besides the rows. -/
structure Sources where
  defaultAdminEmails : List Text
  /-- id and addresses of a tenant -/
  tenantResolution : Text → Option (Text × List Text)
  roleEmails : Text → List Text
  historyWebhookUrl : Option Text
  /-- `format_email_templates` -/
  formatEmailTemplates : Option Text → EmailTemplates

def defaultReceiverName : Text := "default-admin".toList

def historyReceiverName : Text := "alert-history-webhook".toList

/-- `str(e).strip()` for those that are more than white space. -/
def addresses (emails : List Text) : List Text := (emails.filter nonBlank).map strip

/-- The addresses of a receiver: its tenant's, or its role's. -/
def Sources.recipients (src : Sources) (r : Receiver) : List Text :=
  match stripped r.tenant with
  | some tenant => addresses (((src.tenantResolution tenant).map Prod.snd).getD [])
  | none => addresses (src.roleEmails ((stripped r.rbacRole).getD "ADMIN".toList))

def Sources.emailConfigs (src : Sources) (r : Receiver) : List EmailConfig :=
  let templates := src.formatEmailTemplates (stripped r.tenant)
  (src.recipients r).map fun e =>
    { recipient := e
      html := (stripped r.emailBodyTemplate).getD templates.body
      subject := (stripped r.emailSubjectTemplate).getD templates.subject }

/-- `"--" in name`. -/
def hasDoubleDash : Text → Bool
  | '-' :: '-' :: _ => true
  | _ :: rest => hasDoubleDash rest
  | [] => false

/-- `name.split("-", 1)`, when that has two parts. -/
def splitName? (name : Text) : Option (Text × Text) :=
  match name.dropWhile (· ≠ '-') with
  | [] => none
  | _ :: category => some (name.takeWhile (· ≠ '-'), category)

/-- What a row adds to `receivers_by_sev_cat`. -/
def sevCatEntry (src : Sources) (r : Receiver) : Option ((Text × Text) × List EmailConfig) :=
  if src.emailConfigs r = [] ∨ hasDoubleDash r.receiverName then none
  else (splitName? r.receiverName).map fun key => (key, src.emailConfigs r)

/-- What a row adds to `receivers_by_unique_name`. -/
def uniqueNameEntry (src : Sources) (r : Receiver) : Option (Text × List EmailConfig) :=
  if src.emailConfigs r ≠ [] ∧ hasDoubleDash r.receiverName then
    some (r.receiverName, src.emailConfigs r)
  else none

/-- `receivers_by_sev_cat`. -/
def receiversBySevCat (src : Sources) (receivers : List Receiver) :
    Dict (Text × Text) (List EmailConfig) :=
  Dict.extendAll (receivers.filterMap (sevCatEntry src))

/-- `receivers_by_unique_name`. -/
def receiversByUniqueName (src : Sources) (receivers : List Receiver) :
    Dict Text (List EmailConfig) :=
  Dict.extendAll (receivers.filterMap (uniqueNameEntry src))

/-- The receiver of the audit log. -/
def historyReceiver (src : Sources) : List ReceiverConfig :=
  src.historyWebhookUrl.toList.map fun url => ⟨historyReceiverName, [], some url⟩

/-- The catch-all receiver. -/
def defaultReceiver (src : Sources) : ReceiverConfig :=
  let templates := src.formatEmailTemplates none
  { name := defaultReceiverName
    emailConfigs := (addresses src.defaultAdminEmails).map fun e =>
      ⟨e, templates.body, templates.subject⟩
    webhookUrl := none }

/-- The receivers that come from rows. -/
def rowReceivers (src : Sources) (receivers : List Receiver) : List ReceiverConfig :=
  (receiversBySevCat src receivers).map (fun e => ⟨severityCategory e.1.1 e.1.2, e.2, none⟩) ++
    (receiversByUniqueName src receivers).map fun e => ⟨e.1, e.2, none⟩

/-- `receivers_config`. -/
def receiversConfig (src : Sources) (receivers : List Receiver) : List ReceiverConfig :=
  historyReceiver src ++ defaultReceiver src :: rowReceivers src receivers

/-- The names in `match_alert_names` that are more than white space. -/
def RoutingRule.names (rule : RoutingRule) : List Text :=
  (rule.matchAlertNames.getD []).filter nonBlank

/-- `_route_sort_key`. -/
def routeSortKey (receivers : List Receiver) (rule : RoutingRule) : Int × Nat :=
  let hasTenant := (Table.get Receiver.id receivers rule.receiverId).any fun r =>
    (stripped r.tenant).isSome
  let hasAlertNames := rule.matchAlertNames.any (· ≠ [])
  (rule.priority, if hasTenant || hasAlertNames then 0 else 1)

/-- The order of tuples. -/
def keyLe (a b : Int × Nat) : Bool := a.1 < b.1 || (a.1 = b.1 && a.2 ≤ b.2)

/-- `receiver_name_am`: the name in the configuration to which a rule routes. -/
def receiverNameAm (receiver : Receiver) (rule : RoutingRule) : Option Text :=
  if hasDoubleDash receiver.receiverName then some receiver.receiverName
  else
    match rule.matchSeverity.filter (· ≠ []), rule.matchCategory.filter (· ≠ []) with
    | some severity, some category => some (severityCategory severity category)
    | _, _ => none

/-- `match_conditions["tenant"]`. -/
def tenantCondition (src : Sources) (receiver : Receiver) : Dict String Text :=
  (((stripped receiver.tenant).bind src.tenantResolution).map fun resolved =>
    ("tenant", resolved.1)).toList

/-- `match_conditions`, with the condition on the alert name when there is one name only. -/
def matchConditions (src : Sources) (receiver : Receiver) (rule : RoutingRule) :
    Dict String Text :=
  [("severity", rule.matchSeverity.getD []), ("category", rule.matchCategory.getD [])] ++
    ((rule.matchAlertType.filter (· ≠ [])).map fun t => ("alert_type", t)).toList ++
    (match rule.names with
      | [name] => [("alertname", name)]
      | _ => []) ++
    tenantCondition src receiver

/-- `match_re`, when there are more names than one. -/
def matchReAlertname (rule : RoutingRule) : Option (List Text) :=
  match rule.names with
  | [] | [_] => none
  | names => some names

/-- The route of a rule to a receiver of the configuration. -/
def ruleRoute (src : Sources) (receiver : Receiver) (rule : RoutingRule) (name : Text) :
    RouteConfig where
  conditions := matchConditions src receiver rule
  alertNames := matchReAlertname rule
  receiver := name
  timing := some ⟨rule.groupWait, rule.groupInterval, rule.repeatInterval⟩
  groupBy := rule.groupBy.filter (· ≠ [])

/-- The route of a rule, unless it is passed over. -/
def routeOf (src : Sources) (receivers : List Receiver) (valid : List Text)
    (rule : RoutingRule) : Option RouteConfig := do
  let receiver ← Table.get Receiver.id receivers rule.receiverId
  let name ← receiverNameAm receiver rule
  if name ∈ valid then some (ruleRoute src receiver rule name) else none

/-- The route to the audit log takes every alert. -/
def historyRoute (src : Sources) : List RouteConfig :=
  src.historyWebhookUrl.toList.map fun _ => ⟨[], none, historyReceiverName, none, none⟩

/-- `root_routes`. -/
def rootRoutes (src : Sources) (receivers : List Receiver) (rules : List RoutingRule) :
    List RouteConfig :=
  let valid := (receiversConfig src receivers).map ReceiverConfig.name
  let sorted := rules.insertionSort fun a b =>
    keyLe (routeSortKey receivers a) (routeSortKey receivers b)
  (historyRoute src ++ sorted.filterMap (routeOf src receivers valid)).filter fun r =>
    r.receiver ∈ valid

/-- `inhibit_rules`. -/
def inhibitRules : List (InhibitRule String Text) :=
  [{ source := [.eq "severity" "critical".toList]
     target := [.eq "severity" "warning".toList]
     equal := ["alertname", "category"] }]

/-- `generate_alertmanager_yaml`. -/
def generateAlertmanagerYaml (src : Sources) (receivers : List Receiver)
    (rules : List RoutingRule) : Config where
  receivers := receiversConfig src receivers
  receiver := defaultReceiverName
  groupBy := ["alertname".toList, "category".toList, "severity".toList, "tenant".toList]
  timing := ⟨"10s".toList, "10s".toList, "12h".toList⟩
  routes := rootRoutes src receivers rules
  inhibitRules := inhibitRules

/-! ## Rows and receivers of the configuration -/

theorem severityCategory_of_splitName? {name : Text} {key : Text × Text}
    (h : splitName? name = some key) : severityCategory key.1 key.2 = name := by
  unfold splitName? at h
  split at h
  · cases h
  · rename_i c category heq
    obtain rfl := Option.some.inj h
    have hne : name.dropWhile (fun x => decide (x ≠ '-')) ≠ [] := by rw [heq]; simp
    have hc : c = '-' := by
      have hhead := List.head_dropWhile_not (fun x => decide (x ≠ '-')) hne
      simp only [heq, List.head_cons] at hhead
      simpa using hhead
    subst hc
    show name.takeWhile _ ++ '-' :: category = name
    rw [← heq, List.takeWhile_append_dropWhile]

theorem exists_splitName? {name : Text} (h : '-' ∈ name) : ∃ key, splitName? name = some key := by
  unfold splitName?
  split
  · rename_i heq
    have hall := List.dropWhile_eq_nil_iff.mp heq '-' h
    simp at hall
  · exact ⟨_, rfl⟩

theorem dash_mem_severityCategory (severity category : Text) :
    '-' ∈ severityCategory severity category :=
  List.mem_append_right _ List.mem_cons_self

theorem emailConfigs_recipient (src : Sources) (r : Receiver) :
    (src.emailConfigs r).map EmailConfig.recipient = src.recipients r := by
  unfold Sources.emailConfigs
  rw [List.map_map]
  exact List.map_id _

theorem sevCatEntry_some {src : Sources} {r : Receiver} {key : Text × Text}
    {configs : List EmailConfig} (h : sevCatEntry src r = some (key, configs)) :
    hasDoubleDash r.receiverName = false ∧ splitName? r.receiverName = some key ∧
      configs = src.emailConfigs r := by
  unfold sevCatEntry at h
  split at h
  · cases h
  · rename_i hcond
    obtain ⟨key', hkey, h⟩ := Option.map_eq_some_iff.mp h
    obtain ⟨rfl, rfl⟩ := Prod.mk.inj h
    exact ⟨Bool.eq_false_iff.mpr fun hdd => hcond (.inr hdd), hkey, rfl⟩

theorem uniqueNameEntry_some {src : Sources} {r : Receiver} {name : Text}
    {configs : List EmailConfig} (h : uniqueNameEntry src r = some (name, configs)) :
    hasDoubleDash r.receiverName = true ∧ r.receiverName = name ∧
      configs = src.emailConfigs r := by
  unfold uniqueNameEntry at h
  split at h
  · rename_i hcond
    obtain ⟨rfl, rfl⟩ := Prod.mk.inj (Option.some.inj h)
    exact ⟨hcond.2, rfl, rfl⟩
  · cases h

theorem key_of_mem_receiversBySevCat {src : Sources} {receivers : List Receiver}
    {key : Text × Text} (h : key ∈ (receiversBySevCat src receivers).map Prod.fst) :
    ∃ r ∈ receivers, hasDoubleDash r.receiverName = false ∧
      splitName? r.receiverName = some key := by
  obtain ⟨e, he, rfl⟩ := List.mem_map.mp (Dict.mem_map_fst_extendAll.mp h)
  obtain ⟨r, hr, hentry⟩ := List.mem_filterMap.mp he
  obtain ⟨hdd, hkey, -⟩ := sevCatEntry_some hentry
  exact ⟨r, hr, hdd, hkey⟩

theorem key_of_mem_receiversByUniqueName {src : Sources} {receivers : List Receiver}
    {name : Text} (h : name ∈ (receiversByUniqueName src receivers).map Prod.fst) :
    ∃ r ∈ receivers, hasDoubleDash r.receiverName = true ∧ r.receiverName = name := by
  obtain ⟨e, he, rfl⟩ := List.mem_map.mp (Dict.mem_map_fst_extendAll.mp h)
  obtain ⟨r, hr, hentry⟩ := List.mem_filterMap.mp he
  obtain ⟨hdd, hname, -⟩ := uniqueNameEntry_some hentry
  exact ⟨r, hr, hdd, hname⟩

/-- Each name is that of a row. -/
theorem exists_row_of_mem {src : Sources} {receivers : List Receiver} {c : ReceiverConfig}
    (h : c ∈ rowReceivers src receivers) : ∃ r ∈ receivers, r.receiverName = c.name := by
  rcases List.mem_append.mp h with h | h
  · obtain ⟨e, he, rfl⟩ := List.mem_map.mp h
    obtain ⟨r, hr, -, hkey⟩ := key_of_mem_receiversBySevCat (List.mem_map_of_mem he)
    exact ⟨r, hr, (severityCategory_of_splitName? hkey).symm⟩
  · obtain ⟨e, he, rfl⟩ := List.mem_map.mp h
    obtain ⟨r, hr, -, hname⟩ := key_of_mem_receiversByUniqueName (List.mem_map_of_mem he)
    exact ⟨r, hr, hname⟩

/-- Each address is one of a row of this name. -/
theorem exists_row_of_recipient {src : Sources} {receivers : List Receiver} {c : ReceiverConfig}
    {email : Text} (h : c ∈ rowReceivers src receivers)
    (hemail : email ∈ c.emailConfigs.map EmailConfig.recipient) :
    ∃ r ∈ receivers, r.receiverName = c.name ∧ email ∈ src.recipients r := by
  obtain ⟨config, hconfig, rfl⟩ := List.mem_map.mp hemail
  rcases List.mem_append.mp h with h | h
  · obtain ⟨e, he, rfl⟩ := List.mem_map.mp h
    obtain ⟨configs, hpair, hmem⟩ := Dict.exists_of_mem_extendAll he hconfig
    obtain ⟨r, hr, hentry⟩ := List.mem_filterMap.mp hpair
    obtain ⟨-, hkey, rfl⟩ := sevCatEntry_some hentry
    refine ⟨r, hr, (severityCategory_of_splitName? hkey).symm, ?_⟩
    rw [← emailConfigs_recipient]
    exact List.mem_map_of_mem hmem
  · obtain ⟨e, he, rfl⟩ := List.mem_map.mp h
    obtain ⟨configs, hpair, hmem⟩ := Dict.exists_of_mem_extendAll he hconfig
    obtain ⟨r, hr, hentry⟩ := List.mem_filterMap.mp hpair
    obtain ⟨-, hname, rfl⟩ := uniqueNameEntry_some hentry
    refine ⟨r, hr, hname, ?_⟩
    rw [← emailConfigs_recipient]
    exact List.mem_map_of_mem hmem

/-- The addresses of a row are under its name, if that has a dash. -/
theorem exists_mem_rowReceivers {src : Sources} {receivers : List Receiver} {r : Receiver}
    {email : Text} (hr : r ∈ receivers) (hdash : '-' ∈ r.receiverName)
    (hemail : email ∈ src.recipients r) :
    ∃ c ∈ rowReceivers src receivers, c.name = r.receiverName ∧
      email ∈ c.emailConfigs.map EmailConfig.recipient := by
  rw [← emailConfigs_recipient] at hemail
  obtain ⟨config, hconfig, rfl⟩ := List.mem_map.mp hemail
  have hne : src.emailConfigs r ≠ [] := List.ne_nil_of_mem hconfig
  cases hdd : hasDoubleDash r.receiverName with
  | true =>
    have hentry : uniqueNameEntry src r = some (r.receiverName, src.emailConfigs r) :=
      if_pos ⟨hne, hdd⟩
    obtain ⟨configs, hmem, hsub⟩ :=
      Dict.exists_mem_extendAll (List.mem_filterMap.mpr ⟨r, hr, hentry⟩)
    exact ⟨⟨r.receiverName, configs, none⟩,
      List.mem_append_right _ (List.mem_map_of_mem hmem), rfl, List.mem_map_of_mem (hsub hconfig)⟩
  | false =>
    obtain ⟨key, hkey⟩ := exists_splitName? hdash
    have hentry : sevCatEntry src r = some (key, src.emailConfigs r) := by
      rw [sevCatEntry, if_neg (by simp [hne, hdd]), hkey]
      rfl
    obtain ⟨configs, hmem, hsub⟩ :=
      Dict.exists_mem_extendAll (List.mem_filterMap.mpr ⟨r, hr, hentry⟩)
    exact ⟨⟨severityCategory key.1 key.2, configs, none⟩,
      List.mem_append_left _ (List.mem_map_of_mem hmem), severityCategory_of_splitName? hkey,
      List.mem_map_of_mem (hsub hconfig)⟩

/-- No two receivers that come from rows have one name. -/
theorem nodup_rowReceivers (src : Sources) (receivers : List Receiver) :
    ((rowReceivers src receivers).map ReceiverConfig.name).Nodup := by
  have hsev : ((receiversBySevCat src receivers).map Prod.fst).Nodup := Dict.nodup_extendAll _
  have huniq : ((receiversByUniqueName src receivers).map Prod.fst).Nodup :=
    Dict.nodup_extendAll _
  have hsplit : ∀ e ∈ receiversBySevCat src receivers, ∃ name,
      hasDoubleDash name = false ∧ splitName? name = some e.1 := by
    intro e he
    obtain ⟨r, -, hdd, hkey⟩ := key_of_mem_receiversBySevCat (List.mem_map_of_mem he)
    exact ⟨r.receiverName, hdd, hkey⟩
  unfold rowReceivers
  rw [List.map_append, List.map_map, List.map_map]
  refine List.nodup_append.mpr ⟨?_, huniq, ?_⟩
  · have hmap : (receiversBySevCat src receivers).map
        (ReceiverConfig.name ∘ fun e => ⟨severityCategory e.1.1 e.1.2, e.2, none⟩) =
        ((receiversBySevCat src receivers).map Prod.fst).map
          fun key => severityCategory key.1 key.2 := by
      rw [List.map_map]
      rfl
    rw [hmap]
    refine List.Nodup.map_on ?_ hsev
    intro key hkey key' hkey' heq
    obtain ⟨e, he, rfl⟩ := List.mem_map.mp hkey
    obtain ⟨e', he', rfl⟩ := List.mem_map.mp hkey'
    obtain ⟨name, -, hname⟩ := hsplit e he
    obtain ⟨name', -, hname'⟩ := hsplit e' he'
    rw [severityCategory_of_splitName? hname, severityCategory_of_splitName? hname'] at heq
    subst heq
    exact Option.some.inj (hname.symm.trans hname')
  · intro a ha b hb hab
    obtain ⟨e, he, rfl⟩ := List.mem_map.mp ha
    obtain ⟨name, hdd, hname⟩ := hsplit e he
    have hkey : b ∈ (receiversByUniqueName src receivers).map Prod.fst := hb
    obtain ⟨r, -, hdd', hname'⟩ := key_of_mem_receiversByUniqueName hkey
    have hsame : name = r.receiverName :=
      (severityCategory_of_splitName? hname).symm.trans (hab.trans hname'.symm)
    rw [hsame, hdd'] at hdd
    cases hdd

/-! ## The sync -/

/-- A tenant in the auth database, with the addresses of its active TENANT ADMINs. -/
structure Tenant where
  id : Nat
  organisation : Text
  adminEmails : List Text
  deriving DecidableEq, Repr

/-- `str(row[0])`. -/
def Tenant.idText (t : Tenant) : Text := Alert.idText t.id

/-- The auth database: tenants by their primary key, with distinct names, and the addresses of
the active users of each role. -/
structure AuthDb where
  tenants : List Tenant
  ids_nodup : (tenants.map Tenant.id).Nodup
  organisations_nodup : (tenants.map Tenant.organisation).Nodup
  roleEmails : Text → List Text

/-- One sync: the auth database as it finds it, which of its queries fail, and the settings. -/
structure Sync where
  auth : AuthDb
  authConfigured : Bool
  roleFails : Text → Bool
  tenantFails : Text → Bool
  /-- `LOWER(TRIM(...))` in the database -/
  lowerTrim : Text → Text
  /-- the order of names in the database -/
  collation : Text → Text → Bool
  defaultReceiverEmails : List Text
  historyWebhookUrl : Option Text
  formatEmailTemplates : Option Text → EmailTemplates

namespace Sync

/-- `_fetch_emails_by_role`. -/
def fetchEmailsByRole (sync : Sync) (role : Text) : List Text :=
  let fallback := if role = "ADMIN".toList then sync.defaultReceiverEmails else []
  if !sync.authConfigured || sync.roleFails role then fallback
  else
    match sync.auth.roleEmails role with
    | [] => fallback
    | emails => emails

/-- `_resolve_tenant`. -/
def resolveTenant (sync : Sync) (name : Text) : Option (Text × List Text) :=
  if !sync.authConfigured || sync.tenantFails name then none
  else
    (sync.auth.tenants.find? fun t =>
      sync.lowerTrim t.organisation = sync.lowerTrim name).map fun t => (t.idText, t.adminEmails)

def sources (sync : Sync) : Sources where
  defaultAdminEmails := sync.fetchEmailsByRole "ADMIN".toList
  tenantResolution := sync.resolveTenant
  roleEmails := sync.fetchEmailsByRole
  historyWebhookUrl := sync.historyWebhookUrl
  formatEmailTemplates := sync.formatEmailTemplates

/-- `NotificationReceiverRepository.list_enabled`. -/
def fetchReceivers (sync : Sync) (s : State) : List Receiver :=
  (s.receivers.filter Receiver.enabled).insertionSort fun a b =>
    sync.collation a.receiverName b.receiverName

/-- `RoutingRuleRepository.list_enabled`. -/
def fetchRules (sync : Sync) (s : State) : List RoutingRule :=
  (s.rules.filter RoutingRule.enabled).insertionSort fun a b =>
    a.priority < b.priority || (a.priority = b.priority && sync.collation a.ruleName b.ruleName)

/-- `_do_sync`, as far as Alertmanager reads it. -/
def doSync (sync : Sync) (s : State) : Config :=
  generateAlertmanagerYaml sync.sources (sync.fetchReceivers s) (sync.fetchRules s)

end Sync

end Ai4iCore.Alert
