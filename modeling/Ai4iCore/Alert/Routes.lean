import Ai4iCore.Alert.Renderer

/-!
# Who gets an alert

What `AlertRouting` says of a flat tree, said of the configuration that is rendered: an alert
reaches the addresses of the default receiver or those of the routes that match it, and a route
comes from a rule and the row of its receiver.
-/

namespace Ai4iCore.Alert

open AlertRouting
open Ai4iCore.Task (Text strip)

/-! ## Delivery -/

/-- Who gets an alert gets it from the default receiver or along a route. -/
theorem Config.exists_of_delivered {c : Config} {alert : Alert} {email : Text}
    (h : email ∈ c.delivered alert) :
    ∃ name, (name = c.receiver ∨
        ∃ route ∈ c.routes, matchesAll route.matchers alert = true ∧ route.receiver = name) ∧
      email ∈ c.addressesOf name := by
  obtain ⟨name, hname, hemail⟩ := List.mem_flatMap.mp h
  exact ⟨name, Route.mem_receivers_flat hname, hemail⟩

/-- Where a route matches, it gets it along routes only. -/
theorem Config.exists_route_of_delivered {c : Config} {alert : Alert} {email : Text}
    {route : RouteConfig} (hroute : route ∈ c.routes)
    (hmatch : matchesAll route.matchers alert = true) (h : email ∈ c.delivered alert) :
    ∃ route' ∈ c.routes, matchesAll route'.matchers alert = true ∧
      email ∈ c.addressesOf route'.receiver := by
  obtain ⟨name, hname, hemail⟩ := List.mem_flatMap.mp h
  obtain ⟨route', hroute', hmatch', rfl⟩ := Route.exists_of_mem_receivers_flat hroute hmatch hname
  exact ⟨route', hroute', hmatch', hemail⟩

/-- A route that matches delivers. -/
theorem Config.delivered_of_match {c : Config} {alert : Alert} {email : Text}
    {route : RouteConfig} (hroute : route ∈ c.routes)
    (hmatch : matchesAll route.matchers alert = true)
    (hemail : email ∈ c.addressesOf route.receiver) : email ∈ c.delivered alert :=
  List.mem_flatMap.mpr ⟨route.receiver, Route.receivers_flat_of_match hroute hmatch, hemail⟩

theorem Config.mem_addressesOf {c : Config} {name email : Text} :
    email ∈ c.addressesOf name ↔ ∃ r ∈ c.receivers, r.name = name ∧
      email ∈ r.emailConfigs.map EmailConfig.recipient := by
  simp only [addressesOf, List.mem_map, List.mem_flatMap, List.mem_filter, decide_eq_true_eq]
  constructor
  · rintro ⟨config, ⟨r, ⟨hr, hname⟩, hconfig⟩, rfl⟩
    exact ⟨r, hr, hname, config, hconfig, rfl⟩
  · rintro ⟨r, hr, hname, config, hconfig, rfl⟩
    exact ⟨config, ⟨r, ⟨hr, hname⟩, hconfig⟩, rfl⟩

theorem default_mem_receiversConfig (src : Sources) (receivers : List Receiver) :
    defaultReceiverName ∈ (receiversConfig src receivers).map ReceiverConfig.name :=
  List.mem_map.mpr ⟨defaultReceiver src, List.mem_append_right _ List.mem_cons_self, rfl⟩

/-- The receivers of the configuration are the renderer's own two and those of rows. -/
theorem mem_receiversConfig {src : Sources} {receivers : List Receiver} {c : ReceiverConfig} :
    c ∈ receiversConfig src receivers ↔
      c ∈ historyReceiver src ∨ c = defaultReceiver src ∨ c ∈ rowReceivers src receivers := by
  unfold receiversConfig
  rw [List.mem_append, List.mem_cons]

theorem mem_historyReceiver {src : Sources} {c : ReceiverConfig} (h : c ∈ historyReceiver src) :
    c.name = historyReceiverName ∧ c.emailConfigs = [] := by
  obtain ⟨url, -, rfl⟩ := List.mem_map.mp h
  exact ⟨rfl, rfl⟩

/-- A route is the one to the audit log or that of a rule. -/
theorem rule_of_mem_rootRoutes {src : Sources} {receivers : List Receiver}
    {rules : List RoutingRule} {route : RouteConfig}
    (h : route ∈ rootRoutes src receivers rules) :
    route.receiver = historyReceiverName ∨ ∃ rule ∈ rules, routeOf src receivers
      ((receiversConfig src receivers).map ReceiverConfig.name) rule = some route := by
  rcases List.mem_append.mp (List.mem_filter.mp h).1 with h | h
  · obtain ⟨url, -, rfl⟩ := List.mem_map.mp h
    exact .inl rfl
  · obtain ⟨rule, hrule, hroute⟩ := List.mem_filterMap.mp h
    exact .inr ⟨rule, (List.mem_insertionSort _).mp hrule, hroute⟩

/-- When a rule has a route, and which one. -/
theorem routeOf_eq_some {src : Sources} {receivers : List Receiver} {valid : List Text}
    {rule : RoutingRule} {route : RouteConfig} :
    routeOf src receivers valid rule = some route ↔
      ∃ receiver name, Table.get Receiver.id receivers rule.receiverId = some receiver ∧
        receiverNameAm receiver rule = some name ∧ name ∈ valid ∧
        route = ruleRoute src receiver rule name := by
  unfold routeOf
  constructor
  · intro h
    obtain ⟨receiver, hreceiver, h⟩ := Option.bind_eq_some_iff.mp h
    obtain ⟨name, hname, h⟩ := Option.bind_eq_some_iff.mp h
    split at h
    · rename_i hvalid
      exact ⟨receiver, name, hreceiver, hname, hvalid, (Option.some.inj h).symm⟩
    · cases h
  · rintro ⟨receiver, name, hreceiver, hname, hvalid, rfl⟩
    refine Option.bind_eq_some_iff.mpr ⟨receiver, hreceiver, ?_⟩
    exact Option.bind_eq_some_iff.mpr ⟨name, hname, if_pos hvalid⟩

/-- When the route of a rule takes an alert. -/
theorem matchesAll_ruleRoute {src : Sources} {receiver : Receiver} {rule : RoutingRule}
    {name : Text} {alert : Alert} :
    matchesAll (ruleRoute src receiver rule name).matchers alert = true ↔
      (∀ c ∈ matchConditions src receiver rule, alert c.1 = c.2) ∧
        ∀ names ∈ matchReAlertname rule, alert "alertname" ∈ names := by
  show (List.map _ _ ++ List.map _ _).all _ = true ↔ _
  rw [List.all_append, Bool.and_eq_true_iff, List.all_eq_true, List.all_eq_true]
  refine and_congr ?_ ?_
  · exact ⟨fun h c hc => Matcher.holds_eq.mp (h _ (List.mem_map_of_mem hc)), fun h m hm => by
      obtain ⟨c, hc, rfl⟩ := List.mem_map.mp hm
      exact Matcher.holds_eq.mpr (h c hc)⟩
  · exact ⟨fun h names hnames => Matcher.holds_oneOf.mp
        (h _ (List.mem_map_of_mem (Option.mem_toList.mpr hnames))), fun h m hm => by
      obtain ⟨names, hnames, rfl⟩ := List.mem_map.mp hm
      exact Matcher.holds_oneOf.mpr (h names (Option.mem_toList.mp hnames))⟩

/-- The route of a receiver whose tenant resolves takes alerts with the tenant's id only. -/
theorem tenant_of_match {src : Sources} {receiver : Receiver} {rule : RoutingRule} {name : Text}
    {alert : Alert} {tenant id : Text} {emails : List Text}
    (htenant : stripped receiver.tenant = some tenant)
    (hresolved : src.tenantResolution tenant = some (id, emails))
    (hmatch : matchesAll (ruleRoute src receiver rule name).matchers alert = true) :
    alert "tenant" = id := by
  refine (matchesAll_ruleRoute.mp hmatch).1 ("tenant", id) (List.mem_append_right _ ?_)
  simp [tenantCondition, htenant, hresolved]

/-- The name to which a rule routes: its receiver's own, or its severity and category. -/
theorem receiverNameAm_some {receiver : Receiver} {rule : RoutingRule} {name : Text}
    (h : receiverNameAm receiver rule = some name) :
    (hasDoubleDash receiver.receiverName = true ∧ name = receiver.receiverName) ∨
    ∃ severity category, hasDoubleDash receiver.receiverName = false ∧
      (rule.matchSeverity = some severity ∧ severity ≠ []) ∧
      (rule.matchCategory = some category ∧ category ≠ []) ∧
      name = severityCategory severity category := by
  unfold receiverNameAm at h
  split at h
  · rename_i hdd
    exact .inl ⟨hdd, (Option.some.inj h).symm⟩
  · rename_i hdd
    split at h
    · rename_i severity category hseverity hcategory
      obtain ⟨hseverity, hsev⟩ := Option.filter_eq_some_iff.mp hseverity
      obtain ⟨hcategory, hcat⟩ := Option.filter_eq_some_iff.mp hcategory
      exact .inr ⟨severity, category, Bool.eq_false_iff.mpr hdd,
        ⟨hseverity, of_decide_eq_true hsev⟩, ⟨hcategory, of_decide_eq_true hcat⟩,
        (Option.some.inj h).symm⟩
    · cases h

theorem receiverNameAm_of_sevCat {receiver : Receiver} {rule : RoutingRule}
    {severity category : Text} (hdd : hasDoubleDash receiver.receiverName = false)
    (hsev : rule.matchSeverity = some severity ∧ severity ≠ [])
    (hcat : rule.matchCategory = some category ∧ category ≠ []) :
    receiverNameAm receiver rule = some (severityCategory severity category) := by
  have hsev' : rule.matchSeverity.filter (fun v => decide (v ≠ [])) = some severity :=
    Option.filter_eq_some_iff.mpr ⟨hsev.1, decide_eq_true hsev.2⟩
  have hcat' : rule.matchCategory.filter (fun v => decide (v ≠ [])) = some category :=
    Option.filter_eq_some_iff.mpr ⟨hcat.1, decide_eq_true hcat.2⟩
  unfold receiverNameAm
  rw [hdd, hsev', hcat']
  rfl

theorem stripped_role {role : Text} : role ∈ validRbacRoles → stripped (some role) = some role := by
  have h : ∀ r ∈ validRbacRoles, stripped (some r) = some r := by decide
  exact h role

/-- The role whose addresses a receiver without a tenant gets. -/
theorem effectiveRole_mem {role : Option Text} (h : ∀ r ∈ role, r ∈ validRbacRoles) :
    (stripped role).getD "ADMIN".toList ∈ validRbacRoles := by
  cases role with
  | none => decide
  | some r =>
    rw [stripped_role (h r rfl)]
    exact h r rfl

/-! ## The rows of a sync -/

namespace Sync

theorem mem_fetchReceivers {sync : Sync} {s : State} {r : Receiver} :
    r ∈ sync.fetchReceivers s ↔ r ∈ s.receivers ∧ r.enabled = true := by
  unfold fetchReceivers
  rw [List.mem_insertionSort, List.mem_filter]

theorem mem_fetchRules {sync : Sync} {s : State} {rule : RoutingRule} :
    rule ∈ sync.fetchRules s ↔ rule ∈ s.rules ∧ rule.enabled = true := by
  unfold fetchRules
  rw [List.mem_insertionSort, List.mem_filter]

/-- A row is found under its id. -/
theorem get_fetchReceivers {sync : Sync} {s : State} {r : Receiver} (hs : WellFormed s)
    (hr : r ∈ s.receivers) (henabled : r.enabled = true) :
    Table.get Receiver.id (sync.fetchReceivers s) r.id = some r := by
  have hfound : (Table.get Receiver.id (sync.fetchReceivers s) r.id).isSome = true :=
    List.find?_isSome.mpr ⟨r, mem_fetchReceivers.mpr ⟨hr, henabled⟩, decide_eq_true rfl⟩
  obtain ⟨r', hr'⟩ := Option.isSome_iff_exists.mp hfound
  have hmem := (mem_fetchReceivers.mp (Table.mem_of_get hr')).1
  rw [hr', hs.eq_of_id hmem hr (Table.key_of_get hr')]

/-- A rule whose receiver is in the configuration has its route there. -/
theorem ruleRoute_mem_routes {sync : Sync} {s : State} {r : Receiver} {rule : RoutingRule}
    {c : ReceiverConfig} (hs : WellFormed s) (hr : r ∈ s.receivers) (henabled : r.enabled = true)
    (hrule : rule ∈ s.rules) (hruleenabled : rule.enabled = true) (hid : rule.receiverId = r.id)
    (hc : c ∈ (sync.doSync s).receivers) (hname : receiverNameAm r rule = some c.name) :
    ruleRoute sync.sources r rule c.name ∈ (sync.doSync s).routes := by
  have hroute : routeOf sync.sources (sync.fetchReceivers s)
      ((sync.doSync s).receivers.map ReceiverConfig.name) rule =
        some (ruleRoute sync.sources r rule c.name) := by
    refine routeOf_eq_some.mpr ⟨r, c.name, ?_, hname, List.mem_map_of_mem hc, rfl⟩
    rw [hid]
    exact get_fetchReceivers hs hr henabled
  refine List.mem_filter.mpr ⟨List.mem_append_right _ (List.mem_filterMap.mpr ⟨rule, ?_, hroute⟩),
    decide_eq_true (List.mem_map_of_mem hc)⟩
  exact (List.mem_insertionSort _).mpr (mem_fetchRules.mpr ⟨hrule, hruleenabled⟩)

/-- A tenant that resolves is one of the auth database. -/
theorem tenant_of_resolveTenant {sync : Sync} {name id : Text} {emails : List Text}
    (h : sync.resolveTenant name = some (id, emails)) :
    ∃ B ∈ sync.auth.tenants, B.idText = id ∧ B.adminEmails = emails := by
  unfold resolveTenant at h
  split at h
  · cases h
  · obtain ⟨B, hB, heq⟩ := Option.map_eq_some_iff.mp h
    obtain ⟨rfl, rfl⟩ := Prod.mk.inj heq
    exact ⟨B, List.mem_of_find?_eq_some hB, rfl, rfl⟩

/-- The addresses of a role are those of its users or the default ones. -/
theorem fetchEmailsByRole_cases (sync : Sync) (role : Text) :
    sync.fetchEmailsByRole role = sync.auth.roleEmails role ∨
      sync.fetchEmailsByRole role = sync.defaultReceiverEmails ∨
      sync.fetchEmailsByRole role = [] := by
  have hfallback : ∃ fallback, (if role = "ADMIN".toList then sync.defaultReceiverEmails else []) =
      fallback ∧ (fallback = sync.defaultReceiverEmails ∨ fallback = []) := by
    refine ⟨_, rfl, ?_⟩
    split
    · exact .inl rfl
    · exact .inr rfl
  obtain ⟨fallback, heq, hfallback⟩ := hfallback
  unfold fetchEmailsByRole
  rw [heq]
  show (if _ then fallback else _) = _ ∨ _
  split
  · exact .inr hfallback
  · split
    · exact .inr hfallback
    · exact .inl rfl

end Sync

end Ai4iCore.Alert
