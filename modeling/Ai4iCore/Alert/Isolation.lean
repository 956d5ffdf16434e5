import Ai4iCore.Alert.Routes

/-!
# Isolation of tenants in alert routing

An address that stands in the auth database for one tenant only should get no alert of another
tenant. The route of a receiver of a tenant asks for the tenant's id, but the receiver to which a
route without `--` in its name hands an alert is looked up by the severity and the category of
the rule, and all receivers of that name share it. Names, tenants and rules are edited one by
one, so the two can come apart (`Crossed`), and a receiver can take a name of the renderer's own
(`Reserved`). Otherwise tenants are isolated (`isolates`).

The inhibition rule does not look at the tenant (`suppresses_iff`).
-/

namespace Ai4iCore.Alert

open AlertRouting
open Ai4iCore.Task (Text strip lower)

/-! ## The property -/

/-- What the metrics of a tenant's requests are labelled with: its name, or its id. -/
def Tenant.labels (t : Tenant) : List Text := [t.idText, t.organisation]

/-- No organisation is named as another tenant's id. -/
def AuthDb.Separate (auth : AuthDb) : Prop :=
  ∀ A ∈ auth.tenants, ∀ B ∈ auth.tenants, A ≠ B → A.organisation ≠ B.idText

/-- An address of this tenant's, of no other tenant's, of no role that a receiver can name, and
not among the default addresses. -/
structure Sync.ListedOnlyFor (sync : Sync) (B : Tenant) (email : Text) : Prop where
  listed : email ∈ addresses B.adminEmails
  others : ∀ A ∈ sync.auth.tenants, A ≠ B → email ∉ addresses A.adminEmails
  roles : ∀ role ∈ validRbacRoles, email ∉ addresses (sync.auth.roleEmails role)
  default : email ∉ addresses sync.defaultReceiverEmails

/-- What a configuration should give the tenants. -/
structure Sync.Isolates (sync : Sync) (c : Config) : Prop where
  names : (c.receivers.map ReceiverConfig.name).Nodup
  root : c.receiver ∈ c.receivers.map ReceiverConfig.name
  routes : ∀ route ∈ c.routes, route.receiver ∈ c.receivers.map ReceiverConfig.name
  delivery : ∀ A ∈ sync.auth.tenants, ∀ B ∈ sync.auth.tenants, A ≠ B →
    ∀ alert : Alert, alert "tenant" ∈ A.labels →
      ∀ email, sync.ListedOnlyFor B email → email ∉ c.delivered alert

/-- A rule whose severity and category make up the name of a receiver of a tenant, where its own
receiver is of another tenant, or of none. -/
def Crossed (s : State) : Prop :=
  ∃ rule ∈ s.rules, ∃ own ∈ s.receivers, ∃ other ∈ s.receivers, ∃ severity category tenant,
    (rule.enabled ∧ own.enabled ∧ other.enabled) ∧
    own.id = rule.receiverId ∧ hasDoubleDash own.receiverName = false ∧
    (rule.matchSeverity = some severity ∧ severity ≠ []) ∧
    (rule.matchCategory = some category ∧ category ≠ []) ∧
    other.receiverName = severityCategory severity category ∧
    stripped other.tenant = some tenant ∧ stripped own.tenant ≠ some tenant

/-- A receiver with one of the renderer's own names. -/
def Reserved (s : State) : Prop :=
  ∃ r ∈ s.receivers, r.enabled ∧
    (r.receiverName = defaultReceiverName ∨ r.receiverName = historyReceiverName)

/-! ## Addresses of one tenant -/

namespace Sync

theorem ListedOnlyFor.not_mem_role {sync : Sync} {B : Tenant} {email role : Text}
    (h : sync.ListedOnlyFor B email) (hrole : role ∈ validRbacRoles) :
    email ∉ addresses (sync.fetchEmailsByRole role) := by
  rcases sync.fetchEmailsByRole_cases role with heq | heq | heq
  · rw [heq]
    exact h.roles role hrole
  · rw [heq]
    exact h.default
  · rw [heq]
    exact List.not_mem_nil

/-- An address of one tenant's only comes from a row of this tenant's. -/
theorem ListedOnlyFor.tenant_of_recipient {sync : Sync} {s : State} {B : Tenant} {email : Text}
    {r : Receiver} (h : sync.ListedOnlyFor B email) (hs : WellFormed s) (hr : r ∈ s.receivers)
    (hemail : email ∈ sync.sources.recipients r) :
    ∃ tenant emails, stripped r.tenant = some tenant ∧
      sync.resolveTenant tenant = some (B.idText, emails) := by
  unfold Sources.recipients at hemail
  split at hemail
  · rename_i tenant htenant
    cases hresolved : sync.sources.tenantResolution tenant with
    | none =>
      rw [hresolved] at hemail
      exact absurd hemail List.not_mem_nil
    | some resolved =>
      rw [hresolved] at hemail
      obtain ⟨A, hA, hid, hemails⟩ := tenant_of_resolveTenant hresolved
      have hAB : A = B := by
        by_contra hne
        refine h.others A hA hne ?_
        rw [hemails]
        exact hemail
      exact ⟨tenant, resolved.2, htenant, by rw [← hAB, hid]; exact hresolved⟩
  · exact absurd hemail (h.not_mem_role (effectiveRole_mem (hs.roles r hr)))

end Sync

/-! ## When tenants are isolated -/

/-- Without the renderer's own names among the rows, every name is there once. -/
theorem nodup_receiversConfig {src : Sources} {receivers : List Receiver}
    (h : ∀ r ∈ receivers,
      r.receiverName ≠ defaultReceiverName ∧ r.receiverName ≠ historyReceiverName) :
    ((receiversConfig src receivers).map ReceiverConfig.name).Nodup := by
  have hrows : ∀ c ∈ rowReceivers src receivers,
      c.name ≠ defaultReceiverName ∧ c.name ≠ historyReceiverName := by
    intro c hc
    obtain ⟨r, hr, hname⟩ := exists_row_of_mem hc
    exact hname ▸ h r hr
  have hhistory : ((historyReceiver src).map ReceiverConfig.name).Nodup := by
    unfold historyReceiver
    cases src.historyWebhookUrl with
    | none => exact List.nodup_nil
    | some url => exact List.nodup_singleton _
  unfold receiversConfig
  rw [List.map_append, List.map_cons]
  refine List.nodup_append.mpr ⟨hhistory, List.nodup_cons.mpr ⟨?_, nodup_rowReceivers _ _⟩, ?_⟩
  · intro hmem
    obtain ⟨c, hc, hname⟩ := List.mem_map.mp hmem
    exact (hrows c hc).1 hname
  · intro a ha b hb hab
    obtain ⟨c, hc, rfl⟩ := List.mem_map.mp ha
    rw [(mem_historyReceiver hc).1] at hab
    rcases List.mem_cons.mp hb with hb | hb
    · have hne : historyReceiverName ≠ defaultReceiverName := by decide
      exact absurd (hab.trans hb) hne
    · obtain ⟨c', hc', hname⟩ := List.mem_map.mp hb
      exact (hrows c' hc').2 (hname.trans hab.symm)

/-- Every route goes to a receiver of the configuration. -/
theorem routes_defined (sync : Sync) (s : State) : ∀ route ∈ (sync.doSync s).routes,
    route.receiver ∈ (sync.doSync s).receivers.map ReceiverConfig.name :=
  fun _ h => of_decide_eq_true (List.mem_filter.mp h).2

/-- No label of a tenant is one of another tenant. -/
theorem AuthDb.Separate.labels_disjoint {auth : AuthDb} (h : auth.Separate) {A B : Tenant}
    (hA : A ∈ auth.tenants) (hB : B ∈ auth.tenants) (hne : A ≠ B) :
    ∀ label ∈ A.labels, label ∉ B.labels := by
  intro label hlabelA hlabelB
  rcases List.mem_cons.mp hlabelA with rfl | hlabelA
  · rcases List.mem_cons.mp hlabelB with hid | hname
    · exact hne (List.inj_on_of_nodup_map auth.ids_nodup hA hB (idText_injective hid))
    · exact h B hB A hA hne.symm (List.mem_singleton.mp hname).symm
  · rw [List.mem_singleton.mp hlabelA] at hlabelB
    rcases List.mem_cons.mp hlabelB with hid | hname
    · exact h A hA B hB hne hid
    · exact hne (List.inj_on_of_nodup_map auth.organisations_nodup hA hB
        (List.mem_singleton.mp hname))

/-- An alert that reaches an address of one tenant's only has this tenant's id. -/
theorem tenant_of_delivered {s : State} (hs : WellFormed s) (hcrossed : ¬Crossed s)
    (hreserved : ¬Reserved s) {sync : Sync} {B : Tenant} {alert : Alert} {email : Text}
    (honly : sync.ListedOnlyFor B email) (h : email ∈ (sync.doSync s).delivered alert) :
    alert "tenant" = B.idText := by
  obtain ⟨name, hname, hmem⟩ := Config.exists_of_delivered h
  obtain ⟨c, hc, hcname, hemail⟩ := Config.mem_addressesOf.mp hmem
  rcases mem_receiversConfig.mp hc with hc | rfl | hc
  · rw [(mem_historyReceiver hc).2] at hemail
    cases hemail
  · have hdefault : email ∈ addresses (sync.fetchEmailsByRole "ADMIN".toList) := by
      have hmap : (defaultReceiver sync.sources).emailConfigs.map EmailConfig.recipient =
          addresses (sync.fetchEmailsByRole "ADMIN".toList) := by
        show (List.map _ _).map _ = _
        rw [List.map_map]
        exact List.map_id _
      rwa [hmap] at hemail
    exact absurd hdefault (honly.not_mem_role (by decide))
  · obtain ⟨other, hother, hothername, hrecipient⟩ := exists_row_of_recipient hc hemail
    rw [hcname] at hothername
    obtain ⟨hother, hotherenabled⟩ := Sync.mem_fetchReceivers.mp hother
    obtain ⟨tenant, emails, htenant, hresolved⟩ := honly.tenant_of_recipient hs hother hrecipient
    rcases hname with rfl | ⟨route, hroute, hmatch, rfl⟩
    · exact absurd ⟨other, hother, hotherenabled, .inl hothername⟩ hreserved
    rcases rule_of_mem_rootRoutes hroute with hhistory | ⟨rule, hrule, hrouteOf⟩
    · exact absurd ⟨other, hother, hotherenabled, .inr (hothername.trans hhistory)⟩ hreserved
    obtain ⟨own, name, hown, hnameAm, -, rfl⟩ := routeOf_eq_some.mp hrouteOf
    obtain ⟨hrule, hruleenabled⟩ := Sync.mem_fetchRules.mp hrule
    obtain ⟨hownmem, hownenabled⟩ := Sync.mem_fetchReceivers.mp (Table.mem_of_get hown)
    -- the rule's own receiver is of the tenant of the row, or the rule crosses over
    have hsame : stripped own.tenant = some tenant := by
      by_contra hdiffers
      rcases receiverNameAm_some hnameAm with ⟨-, hself⟩ | ⟨severity, category, hdd, hsev, hcat, heq⟩
      · rw [hs.eq_of_name hownmem hother (hself.symm.trans hothername.symm)] at hdiffers
        exact hdiffers htenant
      · exact hcrossed ⟨rule, hrule, own, hownmem, other, hother, severity, category, tenant,
          ⟨hruleenabled, hownenabled, hotherenabled⟩, Table.key_of_get hown, hdd, hsev, hcat,
          hothername.trans heq, htenant, hdiffers⟩
    exact tenant_of_match hsame hresolved hmatch

/-- Without a crossing rule and a reserved name, every sync isolates the tenants. -/
theorem isolates {s : State} (hs : WellFormed s) (hcrossed : ¬Crossed s) (hreserved : ¬Reserved s)
    {sync : Sync} (hsep : sync.auth.Separate) : sync.Isolates (sync.doSync s) where
  names := by
    refine nodup_receiversConfig fun r hr => ?_
    obtain ⟨hr, henabled⟩ := Sync.mem_fetchReceivers.mp hr
    exact ⟨fun h => hreserved ⟨r, hr, henabled, .inl h⟩,
      fun h => hreserved ⟨r, hr, henabled, .inr h⟩⟩
  root := default_mem_receiversConfig _ _
  routes := routes_defined sync s
  delivery := by
    intro A hA B hB hne alert hlabel email honly h
    rw [tenant_of_delivered hs hcrossed hreserved honly h] at hlabel
    exact hsep.labels_disjoint hA hB hne _ hlabel List.mem_cons_self

/-! ## When they are not -/

def probeEmail : Text := "owner@example.org".toList

/-- Two tenants that share no label. -/
structure Apart (A B : Tenant) : Prop where
  ids : A.id ≠ B.id
  organisations : A.organisation ≠ B.organisation
  name : A.organisation ≠ B.idText
  name' : B.organisation ≠ A.idText

theorem exists_fresh_id (texts : List Text) : ∃ id : Nat, idText id ∉ texts := by
  obtain ⟨_, ⟨id, rfl⟩, hfresh⟩ :=
    (Set.infinite_range_of_injective idText_injective).exists_notMem_finset texts.toFinset
  exact ⟨id, fun h => hfresh (List.mem_toFinset.mpr h)⟩

/-- Two different names can be those of tenants. -/
theorem exists_apart {name name' : Text} (hne : name ≠ name') (emails : List Text) :
    ∃ A B : Tenant, Apart A B ∧ (A.organisation = name ∧ A.adminEmails = emails) ∧
      (B.organisation = name' ∧ B.adminEmails = []) := by
  obtain ⟨id, hid⟩ := exists_fresh_id [name']
  obtain ⟨id', hid'⟩ := exists_fresh_id [name, idText id]
  refine ⟨⟨id, name, emails⟩, ⟨id', name', []⟩, ⟨?_, hne, ?_, ?_⟩, ⟨rfl, rfl⟩, rfl, rfl⟩
  · rintro rfl
    exact hid' (List.mem_cons_of_mem _ List.mem_cons_self)
  · intro (h : name = idText id')
    exact hid' (List.mem_cons.mpr (.inl h.symm))
  · intro (h : name' = idText id)
    exact hid (List.mem_cons.mpr (.inl h.symm))

/-- A sync that finds these two tenants, every role with the given addresses, and can look up the
name of the first tenant only. -/
def probe (A B : Tenant) (h : Apart A B) (emails : List Text) : Sync where
  auth :=
    { tenants := [A, B]
      ids_nodup := List.nodup_cons.mpr
        ⟨fun hmem => h.ids (List.mem_singleton.mp hmem), List.nodup_singleton _⟩
      organisations_nodup := List.nodup_cons.mpr
        ⟨fun hmem => h.organisations (List.mem_singleton.mp hmem), List.nodup_singleton _⟩
      roleEmails := fun _ => emails }
  authConfigured := true
  roleFails := fun _ => false
  tenantFails := fun name => name ≠ A.organisation
  lowerTrim := fun name => lower (strip name)
  collation := fun a b => a ≤ b
  defaultReceiverEmails := []
  historyWebhookUrl := some "http://platform-core-service:8095".toList
  formatEmailTemplates := fun _ => ⟨[], []⟩

section Probe

variable {A B : Tenant} (h : Apart A B) (emails : List Text)

theorem probe_separate : (probe A B h emails).auth.Separate := by
  intro C hC D hD hne
  rcases List.mem_cons.mp hC with rfl | hC
  · rcases List.mem_cons.mp hD with rfl | hD
    · exact absurd rfl hne
    · rw [List.mem_singleton.mp hD]
      exact h.name
  · rw [List.mem_singleton.mp hC] at hne ⊢
    rcases List.mem_cons.mp hD with rfl | hD
    · exact h.name'
    · exact absurd (List.mem_singleton.mp hD).symm hne

theorem probe_resolveTenant (name : Text) : (probe A B h emails).resolveTenant name =
    if name = A.organisation then some (A.idText, A.adminEmails) else none := by
  unfold Sync.resolveTenant
  by_cases heq : name = A.organisation
  · subst heq
    simp [probe]
  · simp [probe, heq]

theorem probe_fetchEmailsByRole (role : Text) :
    (probe A B h emails).fetchEmailsByRole role = emails := by
  unfold Sync.fetchEmailsByRole
  cases emails with
  | nil => simp [probe]
  | cons e es => simp [probe]

/-- The address of a receiver of the tenant that the probe finds. -/
theorem probe_recipient {r : Receiver} (htenant : stripped r.tenant = some A.organisation)
    (hA : A.adminEmails = [probeEmail]) :
    probeEmail ∈ (probe A B h emails).sources.recipients r := by
  have hresolved : (probe A B h emails).sources.tenantResolution A.organisation =
      some (A.idText, [probeEmail]) := by
    show (probe A B h emails).resolveTenant A.organisation = _
    rw [probe_resolveTenant, if_pos rfl, hA]
  unfold Sources.recipients
  rw [htenant]
  show probeEmail ∈ addresses ((Option.map Prod.snd (Sources.tenantResolution _ _)).getD [])
  rw [hresolved]
  show probeEmail ∈ addresses [probeEmail]
  decide

theorem probe_listedOnlyFor (hA : A.adminEmails = [probeEmail]) (hB : B.adminEmails = []) :
    (probe A B h []).ListedOnlyFor A probeEmail where
  listed := by
    rw [hA]
    decide
  others := by
    intro C hC hne
    rcases List.mem_cons.mp hC with rfl | hC
    · exact absurd rfl hne
    · rw [List.mem_singleton.mp hC, hB]
      exact List.not_mem_nil
  roles := fun _ _ => List.not_mem_nil
  default := List.not_mem_nil

end Probe

/-- An alert with the labels a rule asks for, under a tenant. -/
def probeAlert (rule : RoutingRule) (tenant : Text) : Alert
  | "severity" => rule.matchSeverity.getD []
  | "category" => rule.matchCategory.getD []
  | "alert_type" => rule.matchAlertType.getD []
  | "alertname" => rule.names.headD []
  | "tenant" => tenant
  | _ => []

theorem probeAlert_conditions {src : Sources} {receiver : Receiver} {rule : RoutingRule}
    {tenant : Text} (h : (stripped receiver.tenant).bind src.tenantResolution = none) :
    ∀ c ∈ matchConditions src receiver rule, probeAlert rule tenant c.1 = c.2 := by
  intro c hc
  have htenant : tenantCondition src receiver = [] := by simp [tenantCondition, h]
  unfold matchConditions at hc
  rw [htenant, List.append_nil] at hc
  rcases List.mem_append.mp hc with hc | hc
  · rcases List.mem_append.mp hc with hc | hc
    · rcases List.mem_cons.mp hc with rfl | hc
      · rfl
      · rw [List.mem_singleton.mp hc]
        rfl
    · obtain ⟨t, ht, rfl⟩ := Option.map_eq_some_iff.mp (Option.mem_toList.mp hc)
      obtain ⟨htype, -⟩ := Option.filter_eq_some_iff.mp ht
      show rule.matchAlertType.getD [] = t
      rw [htype]
      rfl
  · split at hc
    · rename_i name hnames
      rw [List.mem_singleton.mp hc]
      show rule.names.headD [] = name
      rw [hnames]
      rfl
    · cases hc

theorem probeAlert_name {rule : RoutingRule} {tenant : Text} :
    ∀ names ∈ matchReAlertname rule, probeAlert rule tenant "alertname" ∈ names := by
  intro names h
  show rule.names.headD [] ∈ names
  unfold matchReAlertname at h
  split at h
  · cases h
  · cases h
  · rename_i hnil _
    obtain rfl := Option.some.inj h
    cases hnames : rule.names with
    | nil => exact absurd hnames hnil
    | cons n ns => exact List.mem_cons_self

/-- The route of a receiver without a tenant that resolves takes it under every tenant. -/
theorem probeAlert_matches {src : Sources} {receiver : Receiver} {rule : RoutingRule}
    {name tenant : Text} (h : (stripped receiver.tenant).bind src.tenantResolution = none) :
    matchesAll (ruleRoute src receiver rule name).matchers (probeAlert rule tenant) = true :=
  matchesAll_ruleRoute.mpr ⟨probeAlert_conditions h, probeAlert_name⟩

/-- A crossing rule hands alerts of other tenants to the tenant's receiver. -/
theorem Crossed.not_isolates {s : State} (hs : WellFormed s) (h : Crossed s) :
    ∃ sync : Sync, sync.auth.Separate ∧ ¬sync.Isolates (sync.doSync s) := by
  obtain ⟨rule, hrule, own, hown, other, hother, severity, category, tenant, henabled, hid, hdd,
    hsev, hcat, hname, htenant, hdiffers⟩ := h
  obtain ⟨B, A, hapart, ⟨rfl, hB⟩, -, hA⟩ :=
    exists_apart (List.cons_ne_self '-' tenant).symm [probeEmail]
  refine ⟨probe B A hapart [], probe_separate hapart [], fun hisolates => ?_⟩
  have hother' : other ∈ (probe B A hapart []).fetchReceivers s :=
    Sync.mem_fetchReceivers.mpr ⟨hother, henabled.2.2⟩
  have hdash : '-' ∈ other.receiverName := by
    rw [hname]
    exact dash_mem_severityCategory _ _
  obtain ⟨c, hc, hcname, hemail⟩ :=
    exists_mem_rowReceivers hother' hdash (probe_recipient hapart [] htenant hB)
  have hmem := mem_receiversConfig.mpr (.inr (.inr hc))
  have hnameAm : receiverNameAm own rule = some c.name := by
    rw [hcname, hname]
    exact receiverNameAm_of_sevCat hdd hsev hcat
  have hroute := Sync.ruleRoute_mem_routes hs hown henabled.2.1 hrule henabled.1 hid.symm hmem hnameAm
  have hunresolved : (stripped own.tenant).bind (probe B A hapart []).sources.tenantResolution =
      none := by
    cases howntenant : stripped own.tenant with
    | none => rfl
    | some t =>
      show (probe B A hapart []).resolveTenant t = none
      rw [probe_resolveTenant, if_neg]
      rintro rfl
      exact hdiffers howntenant
  refine hisolates.delivery A (List.mem_cons_of_mem _ List.mem_cons_self) B List.mem_cons_self ?_
    (probeAlert rule A.idText) List.mem_cons_self probeEmail (probe_listedOnlyFor hapart hB hA) ?_
  · rintro rfl
    exact hapart.ids rfl
  · exact Config.delivered_of_match hroute (probeAlert_matches hunresolved)
      (Config.mem_addressesOf.mpr ⟨c, hmem, rfl, hemail⟩)

/-- A row with one of the renderer's own names makes that name occur twice. -/
theorem Reserved.not_isolates {s : State} (h : Reserved s) :
    ∃ sync : Sync, sync.auth.Separate ∧ ¬sync.Isolates (sync.doSync s) := by
  obtain ⟨r, hr, henabled, hname⟩ := h
  obtain ⟨A, B, hapart, ⟨hname', hA⟩, -⟩ :=
    exists_apart (List.cons_ne_self '-' ((stripped r.tenant).getD [])).symm [probeEmail]
  let sync := probe A B hapart [probeEmail]
  refine ⟨sync, probe_separate _ _, fun hisolates => ?_⟩
  have hemail : probeEmail ∈ sync.sources.recipients r := by
    cases htenant : stripped r.tenant with
    | some tenant =>
      rw [htenant] at hname'
      refine probe_recipient hapart _ ?_ hA
      rw [htenant, hname']
      rfl
    | none =>
      unfold Sources.recipients
      rw [htenant]
      show probeEmail ∈ addresses (sync.fetchEmailsByRole ((stripped r.rbacRole).getD "ADMIN".toList))
      rw [probe_fetchEmailsByRole]
      decide
  have hdash : '-' ∈ r.receiverName := by
    rcases hname with hname | hname
    · rw [hname]
      decide
    · rw [hname]
      decide
  obtain ⟨c, hc, hcname, -⟩ :=
    exists_mem_rowReceivers (Sync.mem_fetchReceivers.mpr ⟨hr, henabled⟩) hdash hemail
  have hnodup := hisolates.names
  unfold Sync.doSync generateAlertmanagerYaml receiversConfig at hnodup
  rw [List.map_append, List.map_cons] at hnodup
  obtain ⟨-, hrows, hapart⟩ := List.nodup_append.mp hnodup
  have hmem := List.mem_map_of_mem (f := ReceiverConfig.name) hc
  rcases hname with hname | hname
  · refine (List.nodup_cons.mp hrows).1 ?_
    show defaultReceiverName ∈ _
    rw [← hname, ← hcname]
    exact hmem
  · refine hapart historyReceiverName List.mem_cons_self c.name
      (List.mem_cons_of_mem _ hmem) ?_
    rw [hcname, hname]

/-! ## Suppression -/

/-- A critical alert and a warning of the same name and category. -/
def Overlap (source target : Alert) : Prop :=
  source "severity" = "critical".toList ∧ target "severity" = "warning".toList ∧
    source "alertname" = target "alertname" ∧ source "category" = target "category"

/-- The inhibition rule looks at severity, name and category only. -/
theorem suppresses_iff (sync : Sync) (s : State) (source target : Alert) :
    (sync.doSync s).suppresses source target = true ↔ Overlap source target := by
  have hne : "warning".toList ≠ "critical".toList := by decide
  show (muted inhibitRules [source] target) = true ↔ _
  simp only [muted, inhibitRules, InhibitRule.mutes, matchesAll, List.any_cons, List.any_nil,
    List.all_cons, List.all_nil, Bool.and_true, Bool.or_false, Bool.and_eq_true,
    Bool.not_eq_true', Bool.and_eq_false_iff, Matcher.holds_eq, decide_eq_true_eq, Overlap]
  constructor
  · rintro ⟨⟨⟨htarget, hsource⟩, hname, hcategory⟩, -⟩
    exact ⟨hsource, htarget, hname, hcategory⟩
  · rintro ⟨hsource, htarget, hname, hcategory⟩
    refine ⟨⟨⟨htarget, hsource⟩, hname, hcategory⟩, .inl ?_⟩
    rw [Bool.eq_false_iff]
    exact fun h => hne (htarget.symm.trans (Matcher.holds_eq.mp h))

/-! ## The condition -/

/-- In every sync the tenants are isolated, and the first alert does not suppress the second one
where they are of different tenants. -/
def Isolated (s : State) (source target : Alert) : Prop :=
  ∀ sync : Sync, sync.auth.Separate → sync.Isolates (sync.doSync s) ∧
    ∀ A ∈ sync.auth.tenants, ∀ B ∈ sync.auth.tenants, A ≠ B →
      source "tenant" ∈ A.labels → target "tenant" ∈ B.labels →
        (sync.doSync s).suppresses source target = false

/-- Tenants are isolated when no rule crosses over to a receiver of a tenant, no receiver has a
name of the renderer's own, and the two alerts do not overlap under different tenants. -/
theorem isolated_iff {s : State} (hs : Reachable s) (source target : Alert) :
    Isolated s source target ↔
      ¬Crossed s ∧ ¬Reserved s ∧ (source "tenant" ≠ target "tenant" → ¬Overlap source target) := by
  constructor
  · intro h
    refine ⟨fun hcrossed => ?_, fun hreserved => ?_, fun hne hoverlap => ?_⟩
    · obtain ⟨sync, hsep, hnot⟩ := hcrossed.not_isolates hs.wellFormed
      exact hnot (h sync hsep).1
    · obtain ⟨sync, hsep, hnot⟩ := hreserved.not_isolates
      exact hnot (h sync hsep).1
    · obtain ⟨A, B, hapart, ⟨hA, -⟩, hB, -⟩ := exists_apart hne []
      have hAB : A ≠ B := by
        rintro rfl
        exact hapart.ids rfl
      have hnot := (h _ (probe_separate hapart [])).2 A List.mem_cons_self B
        (List.mem_cons_of_mem _ List.mem_cons_self) hAB
        (hA ▸ List.mem_cons_of_mem _ List.mem_cons_self)
        (hB ▸ List.mem_cons_of_mem _ List.mem_cons_self)
      rw [(suppresses_iff _ s source target).mpr hoverlap] at hnot
      cases hnot
  · rintro ⟨hcrossed, hreserved, hoverlap⟩ sync hsep
    refine ⟨isolates hs.wellFormed hcrossed hreserved hsep, ?_⟩
    intro A hA B hB hAB hsource htarget
    rw [Bool.eq_false_iff]
    intro h
    refine hoverlap ?_ ((suppresses_iff sync s source target).mp h)
    intro heq
    exact hsep.labels_disjoint hA hB hAB _ hsource (heq ▸ htarget)

/-! Two receivers for ADMIN. The first one is given to a tenant, and the rule of the second one is
raised to the severity of the first. -/

/-- An auth database that finds one address for whatever it is asked. -/
def sampleDirectory : Directory :=
  ⟨fun _ => ["lead@beta.example".toList], fun _ => some ["admin@core.example".toList]⟩

def sampleReceiver (severity : Text) (tenant : Option Text) : ReceiverCreate where
  category := "application".toList
  severity := severity
  alertType := none
  alertNames := none
  tenant := tenant
  ruleName := none
  emailTo := none
  rbacRole := some "ADMIN".toList
  emailSubjectTemplate := none
  emailBodyTemplate := none

def raised : List Action :=
  [.createReceiver sampleDirectory (sampleReceiver "critical".toList none),
    .createReceiver sampleDirectory (sampleReceiver "warning".toList none),
    .updateReceiver sampleDirectory 1 { tenant := some "Beta".toList },
    .updateRule 2 { matchSeverity := some "critical".toList }]

def alpha : Tenant := ⟨1, "Alpha".toList, ["lead@alpha.example".toList]⟩

def beta : Tenant := ⟨2, "Beta".toList, ["lead@beta.example".toList]⟩

theorem alpha_apart_beta : Apart beta alpha := by
  refine ⟨?_, ?_, ?_, ?_⟩ <;> decide

def sampleAlert (severity tenant : String) : Alert
  | "severity" => severity.toList
  | "category" => "application".toList
  | "alertname" => "HighLatency".toList
  | "tenant" => tenant.toList
  | _ => []

/-- An alert of the one tenant reaches the lead of the other one, and a critical alert of the one
suppresses a warning of the other. -/
theorem tenants_not_isolated :
    ∃ s, Reachable s ∧ ∃ sync : Sync, sync.auth.Separate ∧
      alpha ∈ sync.auth.tenants ∧ beta ∈ sync.auth.tenants ∧
      (sync.ListedOnlyFor beta "lead@beta.example".toList ∧
        "lead@beta.example".toList ∈ (sync.doSync s).delivered (sampleAlert "critical" "Alpha")) ∧
      (sync.doSync s).suppresses (sampleAlert "critical" "Alpha")
        (sampleAlert "warning" "Beta") = true := by
  let s := StepSystem.final step .initial raised
  let sync := probe beta alpha alpha_apart_beta ["admin@core.example".toList]
  refine ⟨s, ⟨raised, StepSystem.run_final (by decide +kernel)⟩, sync, probe_separate _ _,
    List.mem_cons_of_mem _ List.mem_cons_self, List.mem_cons_self, ⟨?_, ?_⟩, ?_⟩
  · constructor
    · decide +kernel
    · decide +kernel
    · decide +kernel
    · decide +kernel
  · decide +kernel
  · decide +kernel

theorem not_crossed_of_check {s : State}
    (h : ∀ rule ∈ s.rules, ∀ own ∈ s.receivers, ∀ other ∈ s.receivers,
      own.id = rule.receiverId →
      other.receiverName =
        severityCategory (rule.matchSeverity.getD []) (rule.matchCategory.getD []) →
      stripped other.tenant = none ∨ stripped other.tenant = stripped own.tenant) :
    ¬Crossed s := by
  rintro ⟨rule, hrule, own, hown, other, hother, severity, category, tenant, -, hid, -,
    ⟨hsev, -⟩, ⟨hcat, -⟩, hname, htenant, hdiffers⟩
  have hname' : other.receiverName =
      severityCategory (rule.matchSeverity.getD []) (rule.matchCategory.getD []) := by
    rw [hname, hsev, hcat]
    rfl
  rcases h rule hrule own hown other hother hid hname' with hnone | hsame
  · rw [htenant] at hnone
    cases hnone
  · exact hdiffers (hsame.symm.trans htenant)

/-- A receiver for ADMIN and one of a tenant, as they are created. -/
def created : List Action :=
  [.createReceiver sampleDirectory (sampleReceiver "critical".toList none),
    .createReceiver sampleDirectory (sampleReceiver "critical".toList (some "Beta".toList))]

theorem isolated_created :
    Isolated (StepSystem.final step .initial created) (sampleAlert "critical" "Alpha")
      (sampleAlert "critical" "Beta") := by
  refine (isolated_iff ⟨created, StepSystem.run_final (by decide +kernel)⟩ _ _).mpr ⟨?_, ?_, ?_⟩
  · exact not_crossed_of_check (by decide +kernel)
  · show ¬∃ r ∈ _, _
    decide +kernel
  · exact fun _ hoverlap => absurd hoverlap.2.1 (by decide)

end Ai4iCore.Alert
