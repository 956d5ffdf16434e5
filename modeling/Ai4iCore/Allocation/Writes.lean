import Ai4iCore.Allocation.Service

/-!
# Allocation: what the writes do

The writers of allocations, described once for both levels: a resolution writes the new
amounts of the listed rows (`resolve_amount`), a recomputation writes percentages only
(`recompute_budget`), and the writers of flags write no allocation. Then what an accepted
handler has staged, handler by handler.
-/

namespace Ai4iCore.Allocation

open Checked Rounding Transaction Transaction.Txn

/-- In a dictionary with distinct keys an entry is known by its key. -/
theorem explicitById_unique {explicit : List ExplicitInput} {id : Nat} {e e' : ExplicitInput}
    (h : (id, e) ∈ explicitById explicit) (h' : (id, e') ∈ explicitById explicit) : e = e' :=
  (Prod.mk.inj (List.inj_on_of_nodup_map (explicitById_nodup explicit) h h' rfl)).2

/-! ## Shares -/

section Shares

variable {parent : ℚ} {children : List AllocationRow} {explicit : List ExplicitInput}
  {resolved : List ResolvedRow}

/-- A row that was not resolved is not written. -/
theorem resolve_of_unlisted {id : Nat} (hid : ∀ r ∈ resolved, r.id ≠ id) (share : Share) :
    share.resolve resolved id = share := by
  have hnone : (resolved.find? fun r => r.id = id) = none :=
    List.find?_eq_none.mpr fun r hr => by simpa using hid r hr
  unfold Share.resolve
  rw [hnone]

/-- The amount a child has after the writes is the one the resolution gave it. -/
theorem resolve_amount (hres : Resolution parent children explicit resolved)
    (hids : (children.map (·.id)).Nodup) {c : AllocationRow} (hc : c ∈ children)
    {share : Share} (hshare : share.amount = c.allocatedAmount) :
    (share.resolve resolved c.id).amount = newAmount resolved c := by
  unfold Share.resolve newAmount rowOf
  cases hrow : resolved.find? fun r => r.id = c.id with
  | none => exact hshare
  | some r =>
    have hrid : r.id = c.id := by simpa using List.find?_some hrow
    obtain ⟨c', hc', hcid, hchanged⟩ := (hres.rows r (List.mem_of_find?_eq_some hrow)).child
    obtain rfl := List.inj_on_of_nodup_map hids hc' hc (hcid.trans hrid)
    show (if r.changed then (⟨some r.percentage, some r.amount⟩ : Share) else share).amount
      = r.amount
    split
    · rfl
    · rename_i hsame
      rw [hshare]
      by_contra hne
      exact hsame (hchanged.mpr (Ne.symm hne))

/-- A listed row is written when its amount changes and left alone otherwise. -/
theorem resolve_of_listed (hres : Resolution parent children explicit resolved)
    (hids : (children.map (·.id)).Nodup) {c : AllocationRow} (hc : c ∈ children)
    {e : ExplicitInput} (he : (c.id, e) ∈ explicitById explicit) {amount percentage : ℚ}
    (hconvert : convert e parent = .ok (amount, percentage)) (share : Share) :
    share.resolve resolved c.id =
      if amount ≠ c.allocatedAmount then ⟨some percentage, some amount⟩ else share := by
  obtain ⟨r, hr, hrid⟩ := (hres.listed c.id).mpr (List.mem_map_of_mem (f := Prod.fst) he)
  obtain ⟨c', hc', hcid, hchanged⟩ := (hres.rows r hr).child
  obtain rfl := List.inj_on_of_nodup_map hids hc' hc (hcid.trans hrid)
  obtain ⟨e', he', hconvert'⟩ := (hres.rows r hr).converted
  rw [hrid] at he'
  obtain rfl := explicitById_unique he' he
  rw [hconvert] at hconvert'
  obtain ⟨rfl, rfl⟩ := Prod.mk.inj (Except.ok.inj hconvert')
  have hrow : (resolved.find? fun r => r.id = c'.id) = some r := rowOf_of_mem hres.ids hr hrid
  unfold Share.resolve
  rw [hrow]
  show (if r.changed = true then _ else share) = _
  simp only [hchanged]

theorem recompute_budget (percentages : Dict Nat ℚ) (id : Nat) (share : Share) :
    (share.recompute percentages id).allocatedBudget = share.allocatedBudget := by
  unfold Share.recompute
  split
  · split <;> rfl
  · rfl

theorem recompute_amount (percentages : Dict Nat ℚ) (id : Nat) (share : Share) :
    (share.recompute percentages id).amount = share.amount := by
  rw [Share.amount, recompute_budget, Share.amount]

/-- What a child with an amount is given is stored with it. -/
theorem recompute_percentage (written : Dict Nat ℚ) {id : Nat} {share : Share} {percentage : ℚ}
    (h : written.get? id = some percentage) :
    (share.recompute written id).allocatedPercentage.getD 0 = percentage := by
  unfold Share.recompute
  rw [h]
  dsimp only
  split
  · rfl
  · rename_i hsame
    exact (not_not.mp hsame).symm

/-- What a request asks for is not negative, and what it is converted to is not either. -/
theorem convert_nonneg {id : Nat} {allocation : AllocationValue} {amount percentage : ℚ}
    (hparent : 0 ≤ parent)
    (h : convert (explicitInput id allocation) parent = .ok (amount, percentage)) :
    0 ≤ amount ∧ 0 ≤ percentage := by
  have hvalue := allocation.nonneg
  unfold explicitInput at h
  cases htype : allocation.type with
  | percentage =>
    rw [htype] at h
    obtain ⟨rfl, rfl⟩ := Prod.mk.inj (Except.ok.inj h)
    have hpct := quantize_nonneg halfUp_nonneg hvalue
    refine ⟨quantize_nonneg halfUp_nonneg ?_, hpct⟩
    have := mul_nonneg hparent hpct
    linarith
  | fixed =>
    rw [htype] at h
    obtain ⟨rfl, rfl⟩ := Prod.mk.inj (Except.ok.inj h)
    have hamount := quantize_nonneg halfUp_nonneg hvalue
    refine ⟨hamount, quantize_nonneg halfUp_nonneg ?_⟩
    split
    · exact le_rfl
    · have := div_nonneg hamount hparent
      linarith

/-- A resolution against a parent that is not negative writes no negative amount. -/
theorem resolve_nonneg (hparent : 0 ≤ parent)
    (hexplicit : ∀ e ∈ explicit, ∃ id allocation, e = explicitInput id allocation)
    (hres : Resolution parent children explicit resolved) {id : Nat} {share : Share}
    (hshare : 0 ≤ share.amount) : 0 ≤ (share.resolve resolved id).amount := by
  unfold Share.resolve
  cases hrow : resolved.find? fun r => r.id = id with
  | none => exact hshare
  | some r =>
    show 0 ≤ (if r.changed then (⟨some r.percentage, some r.amount⟩ : Share) else share).amount
    split
    · obtain ⟨e, he, hconvert⟩ := (hres.rows r (List.mem_of_find?_eq_some hrow)).converted
      obtain ⟨_, _, rfl⟩ := hexplicit e (explicitById_entry he).1
      exact (convert_nonneg hparent hconvert).1
    · exact hshare

end Shares

/-! ## Tables -/

section Tables

variable (t : Tables) (f : Nat → Share → Share)

theorem mapApplications_ids :
    (t.mapApplications f).applications.map (·.id) = t.applications.map (·.id) := by
  unfold Tables.mapApplications
  rw [List.map_map]
  rfl

theorem mapApplications_applicationsOf (tenantId : Nat) :
    (t.mapApplications f).applicationsOf tenantId =
      (t.applicationsOf tenantId).map fun a => { a with toShare := f a.id a.toShare } := by
  unfold Tables.applicationsOf Tables.mapApplications
  rw [List.filter_map]
  rfl

theorem activeApplications_map (applications : List Application) :
    activeApplications (applications.map fun a => { a with toShare := f a.id a.toShare }) =
      (activeApplications applications).map fun a => { a with toShare := f a.id a.toShare } := by
  unfold activeApplications
  rw [List.filter_map]
  rfl

theorem mapKeys_ids : (t.mapKeys f).keys.map (·.id) = t.keys.map (·.id) := by
  unfold Tables.mapKeys
  rw [List.map_map]
  rfl

theorem mapKeys_keysOf (applicationId : Nat) :
    (t.mapKeys f).keysOf applicationId =
      (t.keysOf applicationId).map fun k => { k with toShare := f k.id k.toShare } := by
  unfold Tables.keysOf Tables.mapKeys
  rw [List.filter_map, List.map_reverse]
  rfl

theorem active_map (keys : List APIKey) :
    active (keys.map fun k => { k with toShare := f k.id k.toShare }) =
      (active keys).map fun k => { k with toShare := f k.id k.toShare } := by
  unfold active
  rw [List.filter_map]
  rfl

end Tables

/-! ## The rows of a request -/

theorem explicitInput_id (id : Nat) (allocation : AllocationValue) :
    (explicitInput id allocation).id = id := by
  unfold explicitInput
  split <;> rfl

/-- The rows of a tenant request, as `resolve_level` sees them. -/
theorem explicitById_rows (rows : List ApplicationAllocationRow) :
    explicitById (rows.map fun row => explicitInput row.applicationId row.allocation) =
      (requestRowById rows).map fun e => (e.1, explicitInput e.1 e.2.allocation) := by
  unfold explicitById requestRowById
  rw [Dict.map_setAll fun id (row : ApplicationAllocationRow) => explicitInput id row.allocation,
    List.map_map, List.map_map]
  refine congrArg (Dict.setAll []) (List.map_congr_left fun row _ => ?_)
  show ((explicitInput _ _).id, _) = _
  rw [explicitInput_id]
  rfl

theorem requestRowById_nodup (rows : List ApplicationAllocationRow) :
    ((requestRowById rows).map Prod.fst).Nodup :=
  Dict.nodup_setAll _ List.nodup_nil

theorem nestedApiKeys_of_mem {rows : List ApplicationAllocationRow}
    {x : Nat × ApplicationAllocationRow} (hx : x ∈ requestRowById rows) :
    nestedApiKeys rows x.1 = x.2.apiKeys := by
  unfold nestedApiKeys
  rw [Dict.get?_of_mem (requestRowById_nodup rows) hx]
  rfl

section Rows

variable {rows : List ApplicationAllocationRow} {budget : ℚ} {children : List AllocationRow}
  {resolved : List ResolvedRow} (hres : Resolution budget children
    (rows.map fun row => explicitInput row.applicationId row.allocation) resolved)

include hres

/-- Every resolved Application has the row that counts for it. -/
theorem row_of_resolved {r : ResolvedRow} (hr : r ∈ resolved) :
    ∃ x ∈ requestRowById rows, x.1 = r.id ∧
      convert (explicitInput x.1 x.2.allocation) budget = .ok (r.amount, r.percentage) := by
  obtain ⟨e, he, hconvert⟩ := (hres.rows r hr).converted
  rw [explicitById_rows] at he
  obtain ⟨x, hx, hpair⟩ := List.mem_map.mp he
  obtain ⟨hid, rfl⟩ := Prod.mk.inj hpair
  exact ⟨x, hx, hid, hconvert⟩

theorem resolved_of_row {x : Nat × ApplicationAllocationRow} (hx : x ∈ requestRowById rows) :
    ∃ r ∈ resolved, r.id = x.1 ∧
      convert (explicitInput x.1 x.2.allocation) budget = .ok (r.amount, r.percentage) := by
  have hmine : (x.1, explicitInput x.1 x.2.allocation) ∈ explicitById
      (rows.map fun row => explicitInput row.applicationId row.allocation) := by
    rw [explicitById_rows]
    exact List.mem_map.mpr ⟨x, hx, rfl⟩
  obtain ⟨r, hr, hid⟩ := (hres.listed x.1).mpr (List.mem_map_of_mem (f := Prod.fst) hmine)
  obtain ⟨e, he, hconvert⟩ := (hres.rows r hr).converted
  rw [hid] at he
  obtain rfl := explicitById_unique he hmine
  exact ⟨r, hr, hid, hconvert⟩

end Rows

/-! ## Accepted handlers -/

section Accepted

variable {s s' : Session Tables Outside}

theorem fetchBudgetUsageOrRaise_accepted {ids : List Nat} {db : Option Connection}
    {usage : Option (List BudgetUsage)}
    (h : fetchBudgetUsageOrRaise ids db s = (.ok usage, s')) : s' = s := by
  unfold fetchBudgetUsageOrRaise at h
  split at h
  · exact (pure_accepted h).2.symm
  · split at h
    · exact (pure_accepted h).2.symm
    · split at h
      · exact (pure_accepted h).2.symm
      · exact (Prod.mk.inj h).2.symm

/-- Reading the ledger changes nothing. -/
theorem fetchBudgetUsage_accepted {ids : List Nat} {db : Option Connection}
    {usage : List BudgetUsage} (h : fetchBudgetUsage ids db s = (.ok usage, s')) : s' = s := by
  unfold fetchBudgetUsage at h
  obtain ⟨u, m, hm, h⟩ := bind_accepted h
  exact (pure_accepted h).2.symm.trans (fetchBudgetUsageOrRaise_accepted hm)

theorem resolveAndPersistApplications_accepted {parent : ℚ}
    {rows : List ApplicationAllocationRow} {applications : List Application}
    {usage : List BudgetUsage} {resolved : List ResolvedRow}
    (h : resolveAndPersistApplications parent rows applications usage s = (.ok resolved, s')) :
    resolveLevel parent (applicationRows s.staged usage applications)
        (rows.map fun row => explicitInput row.applicationId row.allocation) = .ok resolved ∧
      s' = { s with staged :=
        s.staged.mapApplications fun id share => share.resolve resolved id } := by
  unfold resolveAndPersistApplications at h
  rw [read_bind] at h
  obtain ⟨rs, hrs, h⟩ := check_bind h
  rw [stage_bind] at h
  obtain ⟨rfl, rfl⟩ := pure_accepted h
  exact ⟨hrs, rfl⟩

theorem loadAndLockApplication_accepted {applicationId : Nat} {r : Application × ℚ}
    (h : loadAndLockApplication applicationId s = (.ok r, s')) :
    s.staged.application applicationId = some r.1 ∧ r.1.allocatedBudget = some r.2 ∧ s' = s := by
  unfold loadAndLockApplication at h
  rw [read_bind] at h
  obtain ⟨application, happlication, h⟩ := check_bind h
  obtain ⟨budget, hbudget, h⟩ := check_bind h
  obtain ⟨rfl, rfl⟩ := pure_accepted h
  exact ⟨orRaise_ok happlication, orRaise_ok hbudget, rfl⟩

/-- The checks an accepted row of a key passed. -/
theorem checkPositive_ok {parent : ℚ} {row : APIKeyAllocationRow}
    (h : checkPositive parent row = .ok ()) :
    0 < parent ∧ ∃ amount percentage, convert row.explicit parent = .ok (amount, percentage) ∧
      0 < amount ∧ 0 < percentage := by
  unfold checkPositive at h
  obtain ⟨hparent, h⟩ := require_bind h
  obtain ⟨⟨amount, percentage⟩, hconvert, h⟩ := bind_ok h
  have hpos := require_ok h
  rw [Bool.and_eq_true, decide_eq_true_iff, decide_eq_true_iff] at hpos
  exact ⟨of_decide_eq_true hparent, amount, percentage, hconvert, hpos⟩

theorem resolveAndPersistKeys_accepted {parent : ℚ} {rows : List APIKeyAllocationRow}
    {existing : List APIKey} {applicationId : Nat} {usage : List BudgetUsage}
    {resolved : List ResolvedRow}
    (h : resolveAndPersistKeys parent rows existing applicationId usage s = (.ok resolved, s')) :
    (∀ row ∈ rows, checkPositive parent row = .ok ()) ∧
      resolveLevel parent (keyRows usage existing) (rows.map (·.explicit)) = .ok resolved ∧
      s' = { s with staged := s.staged.mapKeys fun id share => share.resolve resolved id } := by
  unfold resolveAndPersistKeys at h
  rw [read_bind] at h
  obtain ⟨_, -, h⟩ := check_bind h
  obtain ⟨_, hpositive, h⟩ := check_bind h
  obtain ⟨rs, hrs, h⟩ := check_bind h
  rw [stage_bind] at h
  obtain ⟨rfl, rfl⟩ := pure_accepted h
  exact ⟨forM_ok hpositive, hrs, rfl⟩

theorem stageKeyAllocations_accepted {applicationId : Nat} {budget : ℚ}
    {rows : List APIKeyAllocationRow} {db : Option Connection}
    {out : Dict Nat ℚ × List BudgetUsage}
    (h : stageKeyAllocations applicationId budget rows db s = (.ok out, s')) :
    ∃ usage resolved, (∀ row ∈ rows, checkPositive budget row = .ok ()) ∧
      resolveLevel budget (keyRows usage (active (s.staged.keysOf applicationId)))
        (rows.map (·.explicit)) = .ok resolved ∧
      s' = { s with staged := s.staged.mapKeys fun id share => share.resolve resolved id } := by
  unfold stageKeyAllocations at h
  rw [read_bind] at h
  obtain ⟨usage, m, hm, h⟩ := bind_accepted h
  obtain rfl : s = m := (fetchBudgetUsage_accepted hm).symm
  obtain ⟨resolved, m', hm', h⟩ := bind_accepted h
  obtain ⟨-, rfl⟩ := pure_accepted h
  exact ⟨usage, resolved, resolveAndPersistKeys_accepted hm'⟩

/-- The endpoint of an Application's keys resolves them against the Application's budget. -/
theorem stageApplicationKeyAllocations_accepted {applicationId bodyApplicationId : Nat}
    {allocation : AllocationValue} {apiKeys : List APIKeyAllocationRow} {db : Option Connection}
    {out : Dict Nat ℚ × List BudgetUsage}
    (h : stageApplicationKeyAllocations applicationId bodyApplicationId allocation apiKeys db s =
      (.ok out, s')) :
    ∃ application budget, s.staged.application applicationId = some application ∧
      application.allocatedBudget = some budget ∧
      stageKeyAllocations applicationId budget apiKeys db s = (.ok out, s') := by
  unfold stageApplicationKeyAllocations at h
  obtain ⟨_, -, h⟩ := check_bind h
  obtain ⟨⟨application, budget⟩, m, hm, h⟩ := bind_accepted h
  obtain ⟨happlication, hbudget, hsame⟩ := loadAndLockApplication_accepted hm
  obtain rfl : s = m := hsame.symm
  obtain ⟨_, -, h⟩ := check_bind h
  exact ⟨application, budget, happlication, hbudget, h⟩

/-- The endpoint of a single key resolves it against its Application's budget. -/
theorem stageSingleApiKeyAllocation_accepted {keyId bodyKeyId : Nat}
    {allocation : AllocationValue} {db : Option Connection} {out : Dict Nat ℚ × List BudgetUsage}
    (h : stageSingleApiKeyAllocation keyId bodyKeyId allocation db s = (.ok out, s')) :
    ∃ key application budget, s.staged.key keyId = some key ∧ key.isActive = true ∧
      s.staged.application key.applicationId = some application ∧
      application.allocatedBudget = some budget ∧
      stageKeyAllocations key.applicationId budget [⟨keyId, allocation⟩] db s = (.ok out, s') := by
  unfold stageSingleApiKeyAllocation at h
  obtain ⟨_, -, h⟩ := check_bind h
  rw [read_bind] at h
  obtain ⟨key, hkey, h⟩ := check_bind h
  obtain ⟨_, hactive, h⟩ := check_bind h
  obtain ⟨⟨application, budget⟩, m, hm, h⟩ := bind_accepted h
  obtain ⟨happlication, hbudget, hsame⟩ := loadAndLockApplication_accepted hm
  obtain rfl : s = m := hsame.symm
  exact ⟨key, application, budget, orRaise_ok hkey, require_ok hactive, happlication, hbudget, h⟩

/-- What the cascade makes of the share of a key. -/
def cascadeShare (amount : ℚ) (existing : List APIKey) (resolved : List ResolvedRow)
    (changed : Bool) (id : Nat) (share : Share) : Share :=
  if changed then
    (share.resolve resolved id).recompute (unlistedPercentages amount existing resolved) id
  else share.resolve resolved id

/-- The tables after the cascade into one Application's keys. -/
def cascaded (t : Tables) (applicationId : Nat) (amount : ℚ) (resolved : List ResolvedRow)
    (changed : Bool) : Tables :=
  t.mapKeys (cascadeShare amount (active (t.keysOf applicationId)) resolved changed)

/-- The two writes of the cascade in one. -/
theorem cascaded_eq (t : Tables) (applicationId : Nat) (amount : ℚ) (resolved : List ResolvedRow)
    (changed : Bool) :
    (let t' := t.mapKeys fun id share => share.resolve resolved id
     if changed then
       t'.mapKeys fun id share =>
         share.recompute (unlistedPercentages amount (active (t.keysOf applicationId)) resolved) id
     else t') = cascaded t applicationId amount resolved changed := by
  cases changed with
  | false => rfl
  | true =>
    unfold cascaded Tables.mapKeys
    dsimp only
    rw [if_pos rfl, List.map_map]
    rfl

theorem cascadeIntoKeys_accepted {applicationId : Nat} {amount : ℚ}
    {rows : List APIKeyAllocationRow} {usage : List BudgetUsage} {changed : Bool}
    {writes : List (Nat × ℚ)}
    (h : cascadeIntoKeys applicationId amount rows usage changed s = (.ok writes, s')) :
    ∃ resolved, (∀ row ∈ rows, checkPositive amount row = .ok ()) ∧
      resolveLevel amount (keyRows usage (active (s.staged.keysOf applicationId)))
        (rows.map (·.explicit)) = .ok resolved ∧
      writes = snapshotWrites resolved ∧
      s' = { s with staged := cascaded s.staged applicationId amount resolved changed } := by
  unfold cascadeIntoKeys at h
  rw [read_bind] at h
  obtain ⟨resolved, m, hm, h⟩ := bind_accepted h
  obtain ⟨hpositive, hresolve, rfl⟩ := resolveAndPersistKeys_accepted hm
  rw [stage_bind] at h
  obtain ⟨rfl, rfl⟩ := pure_accepted h
  refine ⟨resolved, hpositive, hresolve, rfl, ?_⟩
  rw [← cascaded_eq]

end Accepted

/-! ## The children of a resolution -/

theorem mem_applicationsOf {t : Tables} {tenantId : Nat} {a : Application} :
    a ∈ activeApplications (t.applicationsOf tenantId) ↔
      a ∈ t.applications ∧ a.tenantId = tenantId ∧ a.status = .active := by
  unfold activeApplications Tables.applicationsOf
  simp only [List.mem_filter, decide_eq_true_eq, and_assoc]

theorem applicationRows_ids (t : Tables) (usage : List BudgetUsage)
    (applications : List Application) :
    (applicationRows t usage applications).map (·.id) = applications.map (·.id) := by
  unfold applicationRows
  rw [List.map_map]
  rfl

theorem applicationRows_nodup {t : Tables} (happs : (t.applications.map (·.id)).Nodup)
    (usage : List BudgetUsage) (tenantId : Nat) :
    ((applicationRows t usage (activeApplications (t.applicationsOf tenantId))).map
      (·.id)).Nodup := by
  rw [applicationRows_ids]
  exact happs.sublist ((List.filter_sublist.trans List.filter_sublist).map _)

/-! ## The cascade stays inside its Application -/

theorem residualPercentages_ids (newAmount target running : ℚ) (l : List (Nat × Share)) :
    (residualPercentages newAmount target running l).map Prod.fst = l.map Prod.fst := by
  fun_induction residualPercentages newAmount target running l with
  | case1 => rfl
  | case2 => rfl
  | case3 running e e' rest percentage ih =>
    rw [List.map_cons, ih]
    rfl

theorem recomputeUnlistedPercentages_ids (newAmount : ℚ) (entities : List (Nat × Share)) :
    (recomputeUnlistedPercentages newAmount entities).map Prod.fst =
      (entities.filter fun e => e.2.amount ≠ 0).map Prod.fst := by
  unfold recomputeUnlistedPercentages
  dsimp only
  split
  · rw [List.map_map]
    rfl
  · rw [residualPercentages_ids]

theorem mem_of_recomputed {newAmount : ℚ} {entities : List (Nat × Share)} {id : Nat}
    (h : id ∈ (recomputeUnlistedPercentages newAmount entities).map Prod.fst) :
    id ∈ entities.map Prod.fst := by
  rw [recomputeUnlistedPercentages_ids] at h
  exact List.map_subset _ (List.filter_subset_self _) h

theorem mem_active_keysOf {t : Tables} {applicationId : Nat} {k : APIKey} :
    k ∈ active (t.keysOf applicationId) ↔
      k ∈ t.keys ∧ k.applicationId = applicationId ∧ k.isActive = true := by
  unfold active Tables.keysOf
  simp only [List.mem_filter, List.mem_reverse, decide_eq_true_eq, and_assoc]

theorem keyRows_ids (usage : List BudgetUsage) (keys : List APIKey) :
    (keyRows usage keys).map (·.id) = keys.map (·.id) := by
  unfold keyRows
  rw [List.map_map]
  rfl

theorem keyRows_nodup {t : Tables} (hkeys : (t.keys.map (·.id)).Nodup) (usage : List BudgetUsage)
    (applicationId : Nat) :
    ((keyRows usage (active (t.keysOf applicationId))).map (·.id)).Nodup := by
  rw [keyRows_ids]
  refine List.Nodup.sublist (List.filter_sublist.map _) ?_
  unfold Tables.keysOf
  rw [List.map_reverse, List.nodup_reverse]
  exact hkeys.sublist (List.filter_sublist.map _)

section Cascade

variable {t : Tables} {applicationId : Nat} {amount : ℚ} {usage : List BudgetUsage}
  {explicit : List ExplicitInput} {resolved : List ResolvedRow}
  (hres : Resolution amount (keyRows usage (active (t.keysOf applicationId))) explicit resolved)

include hres

/-- A resolved row is about an active key of the Application. -/
theorem resolved_key {r : ResolvedRow} (hr : r ∈ resolved) :
    ∃ k ∈ active (t.keysOf applicationId), k.id = r.id ∧
      (r.changed = true ↔ r.amount ≠ k.amount) := by
  obtain ⟨c, hc, hcid, hchanged⟩ := (hres.rows r hr).child
  obtain ⟨k, hk, rfl⟩ := List.mem_map.mp hc
  exact ⟨k, hk, hcid, hchanged⟩

variable (hkeys : (t.keys.map (·.id)).Nodup)

include hkeys

/-- A key of another Application, or a revoked one, is not written. -/
theorem cascadeShare_of_other (changed : Bool) {k : APIKey} (hk : k ∈ t.keys)
    (hother : k.applicationId ≠ applicationId ∨ k.isActive = false) :
    cascadeShare amount (active (t.keysOf applicationId)) resolved changed k.id k.toShare =
      k.toShare := by
  have hnotchild : ∀ b ∈ active (t.keysOf applicationId), b.id ≠ k.id := by
    intro b hb hbid
    obtain ⟨hbt, hbapp, hbactive⟩ := mem_active_keysOf.mp hb
    obtain rfl := List.inj_on_of_nodup_map hkeys hbt hk hbid
    obtain hne | hrevoked := hother
    · exact hne hbapp
    · rw [hbactive] at hrevoked
      cases hrevoked
  have hresolve : k.toShare.resolve resolved k.id = k.toShare := by
    refine resolve_of_unlisted (fun r hr hrid => ?_) k.toShare
    obtain ⟨b, hb, hbid, -⟩ := resolved_key hres hr
    exact hnotchild b hb (hbid.trans hrid)
  unfold cascadeShare
  split
  · rw [hresolve]
    unfold Share.recompute
    cases hget : Dict.get? (unlistedPercentages amount (active (t.keysOf applicationId)) resolved)
        k.id with
    | none => rfl
    | some percentage =>
      have hmem := mem_of_recomputed
        (List.mem_map_of_mem (f := Prod.fst) (Dict.mem_of_get? hget))
      rw [List.map_map, List.mem_map] at hmem
      obtain ⟨b, hb, hbid⟩ := hmem
      exact absurd hbid (hnotchild b (List.mem_filter.mp hb).1)
  · exact hresolve

/-- The keys of the other Applications stay as they are. -/
theorem cascaded_keysOf_of_ne (changed : Bool) {other : Nat} (hne : other ≠ applicationId) :
    (cascaded t applicationId amount resolved changed).keysOf other = t.keysOf other := by
  rw [cascaded, mapKeys_keysOf]
  conv_rhs => rw [← List.map_id (t.keysOf other)]
  refine List.map_congr_left fun k hk => ?_
  obtain ⟨hkt, happ⟩ : k ∈ t.keys ∧ k.applicationId = other := by
    simpa [Tables.keysOf] using hk
  rw [cascadeShare_of_other hres hkeys changed hkt (.inl (happ ▸ hne))]
  rfl

end Cascade

/-! ## The writers of flags -/

/-- `I` does not look at the `budget-exhausted` flags. -/
def FlagBlind (I : Tables → Prop) : Prop :=
  ∀ (t : Tables) (f : APIKey → APIKey), (∀ k, f k = { k with cachedFlag := (f k).cachedFlag }) →
    I t → I { t with keys := t.keys.map f }

section Flags

variable {I : Tables → Prop} (hI : FlagBlind I)

include hI

theorem keeps_patchFlag (ids : List Nat) (value : Bool) :
    Keeps I (stage fun t => { t with keys := t.keys.map (patchFlag ids value) } : Handler Unit) := by
  refine keeps_stage fun t ht => hI t _ (fun k => ?_) ht
  unfold patchFlag
  split <;> rfl

theorem keeps_setBudgetExhaustedForKeys (ids : List Nat) (value : Bool) :
    Keeps I (setBudgetExhaustedForKeys ids value) := by
  unfold setBudgetExhaustedForKeys
  split
  · exact keeps_pure ()
  · refine keeps_bind (keeps_read _) fun _ => ?_
    refine keeps_bind (keeps_patchFlag hI ids value) fun _ => ?_
    exact keeps_bind (keeps_effect _) fun _ => keeps_commit

theorem keeps_setBudgetExhaustedForTenant (tenantId : Nat) (value : Bool) :
    Keeps I (setBudgetExhaustedForTenant tenantId value) := by
  unfold setBudgetExhaustedForTenant
  refine keeps_bind (keeps_read _) fun ids => keeps_bind (keeps_effect _) fun _ => ?_
  exact keeps_bind (keeps_patchFlag hI ids value) fun _ => keeps_commit

omit hI in
theorem keeps_writeBudgetSnapshot (snapshots : Dict Nat ℚ) (db : Option Connection) :
    Keeps I (writeBudgetSnapshot snapshots db) := by
  unfold writeBudgetSnapshot
  split
  · exact keeps_pure ()
  · split
    · exact keeps_pure ()
    · exact keeps_effect _

omit hI in
theorem keeps_fetchBudgetUsageOrRaise (ids : List Nat) (db : Option Connection) :
    Keeps I (fetchBudgetUsageOrRaise ids db) :=
  fun _ _ _ hs h => fetchBudgetUsageOrRaise_accepted h ▸ hs

omit hI in
theorem keeps_fetchBudgetUsage (ids : List Nat) (db : Option Connection) :
    Keeps I (fetchBudgetUsage ids db) :=
  fun _ _ _ hs h => fetchBudgetUsage_accepted h ▸ hs

omit hI in
theorem keeps_loadAndLockApplication (applicationId : Nat) :
    Keeps I (loadAndLockApplication applicationId) := by
  unfold loadAndLockApplication
  refine keeps_bind (keeps_read _) fun _ => keeps_bind (keeps_check _) fun _ => ?_
  exact keeps_bind (keeps_check _) fun _ => keeps_pure _

theorem keeps_finalize (snapshots : Dict Nat ℚ) (usage : List BudgetUsage)
    (db : Option Connection) : Keeps I (finalize snapshots usage db) := by
  unfold finalize syncKeyExhaustionFlags
  refine keeps_bind keeps_commit fun _ => keeps_bind (keeps_writeBudgetSnapshot _ _) fun _ => ?_
  exact keeps_bind (keeps_setBudgetExhaustedForKeys hI _ _) fun _ =>
    keeps_setBudgetExhaustedForKeys hI _ _

/-- What was staged is committed, flags apart. -/
theorem finalize_committed {snapshots : Dict Nat ℚ} {usage : List BudgetUsage}
    {db : Option Connection} {s s' : Session Tables Outside} {u : Unit} (hs : I s.staged)
    (h : finalize snapshots usage db s = (.ok u, s')) : I s'.committed :=
  (keeps_finalize hI snapshots usage db { s with committed := s.staged } u s' ⟨hs, hs⟩ h).1

theorem keeps_syncPpuWalletAndExhaustion (tenantId : Nat) (budget : ℚ)
    (db : Option Connection) : Keeps I (syncPpuWalletAndExhaustion tenantId budget db) := by
  unfold syncPpuWalletAndExhaustion
  refine keeps_bind (keeps_read _) fun ids => ?_
  refine keeps_bind (keeps_fetchBudgetUsageOrRaise _ _) fun usage => ?_
  cases usage with
  | none => exact keeps_pure ()
  | some usage =>
    show Keeps I (syncFromUsage tenantId budget ids usage)
    unfold syncFromUsage
    split
    · exact keeps_setBudgetExhaustedForTenant hI _ _
    · exact keeps_setBudgetExhaustedForKeys hI _ _

theorem keeps_afterBudgetRevision (tenantId : Nat) (budget : ℚ) (db : Option Connection) :
    Keeps I (afterBudgetRevision tenantId budget db) := by
  unfold afterBudgetRevision
  refine keeps_bind keeps_commit fun _ => ?_
  cases db with
  | none => exact keeps_pure ()
  | some db => exact keeps_syncPpuWalletAndExhaustion hI _ _ _

theorem keeps_afterUpdateApplication (ids : List Nat) (db : Option Connection) :
    Keeps I (afterUpdateApplication ids db) := by
  unfold afterUpdateApplication
  refine keeps_bind keeps_commit fun _ => keeps_bind (keeps_writeBudgetSnapshot _ _) fun _ => ?_
  exact keeps_setBudgetExhaustedForKeys hI _ _

theorem keeps_afterApiKey (id : Nat) (stored : ℚ) (cached : Bool) (db : Option Connection) :
    Keeps I (afterApiKey id stored cached db) := by
  unfold afterApiKey
  refine keeps_bind keeps_commit fun _ => keeps_bind (keeps_writeBudgetSnapshot _ _) fun _ => ?_
  refine keeps_bind (keeps_effect _) fun _ => keeps_bind (keeps_stage fun t ht => ?_) fun _ =>
    keeps_commit
  split
  · refine hI t _ (fun k => ?_) ht
    split <;> rfl
  · exact ht

end Flags

/-! ## The Applications of a tenant -/

section Applications

variable {s s' : Session Tables Outside}

/-- The cascades write to no Application. -/
theorem cascades_applications {rows : List ApplicationAllocationRow} {usage : List BudgetUsage}
    {resolved : List ResolvedRow} {snapshots out : Dict Nat ℚ}
    (h : resolved.foldlM (cascadeResolved rows usage) snapshots s = (.ok out, s')) :
    s'.staged.applications = s.staged.applications := by
  refine triple_foldlM (Q := fun _ m => m.staged.applications = s.staged.applications)
    (fun snapshots r _ m out m' hm h => ?_) snapshots s out s' rfl h
  unfold cascadeResolved at h
  split at h
  · obtain ⟨writes, n, hn, h⟩ := bind_accepted h
    obtain ⟨nested, -, -, -, rfl⟩ := cascadeIntoKeys_accepted hn
    obtain ⟨-, rfl⟩ := pure_accepted h
    exact hm
  · obtain ⟨-, rfl⟩ := pure_accepted h
    exact hm

theorem stageTenantApplicationAllocations_accepted {tenantId : Nat}
    {rows : List ApplicationAllocationRow} {db : Option Connection}
    {out : Dict Nat ℚ × List BudgetUsage}
    (h : stageTenantApplicationAllocations tenantId rows db s = (.ok out, s')) :
    ∃ tenant budget usage resolved, s.staged.tenant tenantId = some tenant ∧
      tenant.allocatedBudget = some budget ∧
      resolveLevel budget
          (applicationRows s.staged usage (activeApplications (s.staged.applicationsOf tenantId)))
          (rows.map fun row => explicitInput row.applicationId row.allocation) = .ok resolved ∧
      s'.staged.applications =
        (s.staged.mapApplications fun id share => share.resolve resolved id).applications := by
  unfold stageTenantApplicationAllocations at h
  rw [read_bind] at h
  obtain ⟨tenant, htenant, h⟩ := check_bind h
  obtain ⟨budget, hbudget, h⟩ := check_bind h
  obtain ⟨_, -, h⟩ := check_bind h
  obtain ⟨_, -, h⟩ := check_bind h
  obtain ⟨usage, m, hm, h⟩ := bind_accepted h
  obtain rfl : s = m := (fetchBudgetUsage_accepted hm).symm
  obtain ⟨resolved, m', hm', h⟩ := bind_accepted h
  obtain ⟨hresolve, rfl⟩ := resolveAndPersistApplications_accepted hm'
  obtain ⟨snapshots, m'', hm'', h⟩ := bind_accepted h
  obtain ⟨-, rfl⟩ := pure_accepted h
  exact ⟨tenant, budget, usage, resolved, orRaise_ok htenant, orRaise_ok hbudget, hresolve,
    cascades_applications hm''⟩

end Applications

end Ai4iCore.Allocation
