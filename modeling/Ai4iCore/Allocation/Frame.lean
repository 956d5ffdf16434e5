import Ai4iCore.Allocation.Writes

/-!
# A revision touches only what it names

An accepted revision of budgets moves no amount of an Application or a key that the
request does not name: of those it may rewrite the percentage. A rejected one changes
nothing at all, although rows of the first level are written before the second level is
checked: everything is staged first, and nothing after the commit raises.
-/

namespace Ai4iCore.Allocation

open Checked Transaction Transaction.Txn

/-! ## What a revision names -/

def Revision.namedApplications : Revision → List Nat
  | .tenantApplications _ rows => rows.map (·.applicationId)
  | .applicationKeys .. => []
  | .singleKey .. => []
  | .tenantBudget .. => []

def Revision.namedKeys : Revision → List Nat
  | .tenantApplications _ rows => rows.flatMap fun row => row.apiKeys.map (·.apiKeyId)
  | .applicationKeys _ _ _ apiKeys => apiKeys.map (·.apiKeyId)
  | .singleKey keyId .. => [keyId]
  | .tenantBudget .. => []

/-- An Application without its percentage. -/
def Application.forget (a : Application) : Application := { a with allocatedPercentage := none }

/-- A key without its percentage and its flag. -/
def APIKey.forget (k : APIKey) : APIKey :=
  { k with allocatedPercentage := none, cachedFlag := none }

/-- Nothing but the named Applications and keys differs between `t₀` and `t`, percentages
and flags apart. -/
structure Framed (applications keys : List Nat) (t₀ t : Tables) : Prop where
  applications : ∀ id ∉ applications,
    (t.application id).map (·.forget) = (t₀.application id).map (·.forget)
  keys : ∀ id ∉ keys, (t.key id).map (·.forget) = (t₀.key id).map (·.forget)

section Framed

variable {applications keys : List Nat} {t₀ t : Tables}

theorem Framed.refl (t : Tables) : Framed applications keys t t := ⟨fun _ _ => rfl, fun _ _ => rfl⟩

theorem Framed.tenants (h : Framed applications keys t₀ t) (tenants : List Tenant) :
    Framed applications keys t₀ { t with tenants } :=
  ⟨h.applications, h.keys⟩

/-- A write to the Applications that moves no budget but the named ones. -/
theorem Framed.mapApplications (h : Framed applications keys t₀ t) {f : Nat → Share → Share}
    (hf : ∀ id ∉ applications, ∀ share, (f id share).allocatedBudget = share.allocatedBudget) :
    Framed applications keys t₀ (t.mapApplications f) := by
  refine ⟨fun id hid => ?_, h.keys⟩
  rw [← h.applications id hid]
  unfold Tables.application Tables.mapApplications
  rw [Table.get_map (by intro r; rfl), Option.map_map]
  cases hget : Table.get (·.id) t.applications id with
  | none => rfl
  | some a =>
    obtain rfl : a.id = id := Table.key_of_get hget
    have hbudget := hf a.id hid a.toShare
    simp [Application.forget, hbudget]

/-- A write to the keys that moves no budget but the named ones. -/
theorem Framed.mapKeys (h : Framed applications keys t₀ t) {f : Nat → Share → Share}
    (hf : ∀ id ∉ keys, ∀ share, (f id share).allocatedBudget = share.allocatedBudget) :
    Framed applications keys t₀ (t.mapKeys f) := by
  refine ⟨h.applications, fun id hid => ?_⟩
  rw [← h.keys id hid]
  unfold Tables.key Tables.mapKeys
  rw [Table.get_map (by intro r; rfl), Option.map_map]
  cases hget : Table.get (·.id) t.keys id with
  | none => rfl
  | some k =>
    obtain rfl : k.id = id := Table.key_of_get hget
    have hbudget := hf k.id hid k.toShare
    simp [APIKey.forget, hbudget]

theorem framed_flagBlind (applications keys : List Nat) (t₀ : Tables) :
    FlagBlind (Framed applications keys t₀) := by
  intro t f hf h
  refine ⟨h.applications, fun id hid => ?_⟩
  rw [← h.keys id hid]
  show (Table.get _ (t.keys.map f) id).map _ = _
  rw [Table.get_map (by intro k; rw [hf k]), Option.map_map]
  refine congrArg (Option.map · (t.key id)) (funext fun k => ?_)
  show (f k).forget = k.forget
  rw [hf k]
  rfl

end Framed

/-! ## Accepted revisions -/

section Accepted

variable {applications keys : List Nat} {t₀ : Tables}

/-- The rows of a resolution are the ones that were listed. -/
theorem resolve_budget_of_unlisted {parent : ℚ} {children : List AllocationRow}
    {explicit : List ExplicitInput} {resolved : List ResolvedRow}
    (h : resolveLevel parent children explicit = .ok resolved) {id : Nat}
    (hid : ∀ e ∈ explicit, e.id ≠ id) (share : Share) :
    (share.resolve resolved id).allocatedBudget = share.allocatedBudget := by
  rw [resolve_of_unlisted fun r hr hrid => ?_]
  obtain ⟨e, he, heid⟩ := resolveLevel_listed h hr
  exact hid e he (heid.trans hrid)

theorem framed_resolveAndPersistKeys {parent : ℚ} {rows : List APIKeyAllocationRow}
    {existing : List APIKey} {applicationId : Nat} {usage : List BudgetUsage}
    (hrows : ∀ row ∈ rows, row.apiKeyId ∈ keys) :
    Keeps (Framed applications keys t₀)
      (resolveAndPersistKeys parent rows existing applicationId usage) := by
  intro s resolved s' hs h
  obtain ⟨-, hresolve, rfl⟩ := resolveAndPersistKeys_accepted h
  refine ⟨hs.1, hs.2.mapKeys fun id hid share => ?_⟩
  refine resolve_budget_of_unlisted hresolve (fun e he heid => ?_) share
  obtain ⟨row, hrow, rfl⟩ := List.mem_map.mp he
  rw [APIKeyAllocationRow.explicit, explicitInput_id] at heid
  exact hid (heid ▸ hrows row hrow)

theorem framed_cascadeIntoKeys {applicationId : Nat} {amount : ℚ}
    {rows : List APIKeyAllocationRow} {usage : List BudgetUsage} {changed : Bool}
    (hrows : ∀ row ∈ rows, row.apiKeyId ∈ keys) :
    Keeps (Framed applications keys t₀)
      (cascadeIntoKeys applicationId amount rows usage changed) := by
  unfold cascadeIntoKeys
  refine keeps_bind (keeps_read _) fun existing => ?_
  refine keeps_bind (framed_resolveAndPersistKeys hrows) fun resolved => ?_
  refine keeps_bind (keeps_stage fun t ht => ?_) fun _ => keeps_pure _
  split
  · exact ht.mapKeys fun id _ share => recompute_budget _ _ _
  · exact ht

theorem framed_cascadeResolved {rows : List ApplicationAllocationRow} {usage : List BudgetUsage}
    (hkeys : ∀ row ∈ rows, ∀ k ∈ row.apiKeys, k.apiKeyId ∈ keys) (snapshots : Dict Nat ℚ)
    (r : ResolvedRow) :
    Keeps (Framed applications keys t₀) (cascadeResolved rows usage snapshots r) := by
  unfold cascadeResolved
  dsimp only
  split
  · refine keeps_bind (framed_cascadeIntoKeys fun k hk => ?_) fun _ => keeps_pure _
    unfold nestedApiKeys at hk
    cases hnested : (requestRowById rows).get? r.id with
    | none =>
      rw [hnested] at hk
      exact absurd hk List.not_mem_nil
    | some row =>
      rw [hnested] at hk
      obtain hmem | hmem := Dict.mem_setAll (Dict.mem_of_get? hnested)
      · obtain ⟨row', hrow, hpair⟩ := List.mem_map.mp hmem
        obtain ⟨-, rfl⟩ := Prod.mk.inj hpair
        exact hkeys row' hrow k hk
      · exact absurd hmem List.not_mem_nil
  · exact keeps_pure _

theorem framed_stageTenantApplicationAllocations {tenantId : Nat}
    {rows : List ApplicationAllocationRow} {db : Option Connection}
    (happlications : ∀ row ∈ rows, row.applicationId ∈ applications)
    (hkeys : ∀ row ∈ rows, ∀ k ∈ row.apiKeys, k.apiKeyId ∈ keys) :
    Keeps (Framed applications keys t₀) (stageTenantApplicationAllocations tenantId rows db) := by
  unfold stageTenantApplicationAllocations
  refine keeps_bind (keeps_read _) fun t => keeps_bind (keeps_check _) fun tenant => ?_
  refine keeps_bind (keeps_check _) fun parent => keeps_bind (keeps_check _) fun _ => ?_
  refine keeps_bind (keeps_check _) fun _ => keeps_bind (keeps_fetchBudgetUsage _ _) fun usage => ?_
  refine keeps_bind (fun s resolved s' hs h => ?_) fun resolved => ?_
  · obtain ⟨hresolve, rfl⟩ := resolveAndPersistApplications_accepted h
    refine ⟨hs.1, hs.2.mapApplications fun id hid share => ?_⟩
    refine resolve_budget_of_unlisted hresolve (fun e he heid => ?_) share
    obtain ⟨row, hrow, rfl⟩ := List.mem_map.mp he
    rw [explicitInput_id] at heid
    exact hid (heid ▸ happlications row hrow)
  · exact keeps_bind (keeps_foldlM (framed_cascadeResolved hkeys) []) fun _ => keeps_pure _

theorem framed_stageKeyAllocations {applicationId : Nat} {budget : ℚ}
    {rows : List APIKeyAllocationRow} {db : Option Connection}
    (hrows : ∀ row ∈ rows, row.apiKeyId ∈ keys) :
    Keeps (Framed applications keys t₀) (stageKeyAllocations applicationId budget rows db) := by
  unfold stageKeyAllocations
  refine keeps_bind (keeps_read _) fun existing => ?_
  refine keeps_bind (keeps_fetchBudgetUsage _ _) fun usage => ?_
  exact keeps_bind (framed_resolveAndPersistKeys hrows) fun _ => keeps_pure _

theorem framed_stageTenantBudget (tenantId : Nat) (topUp : Option TopUp)
    (db : Option Connection) :
    Keeps (Framed applications keys t₀) (stageTenantBudget tenantId topUp db) := by
  unfold stageTenantBudget cascadeTenantBudgetRevision
  refine keeps_bind (keeps_read _) fun t => keeps_bind (keeps_check _) fun tenant => ?_
  refine keeps_bind (keeps_check _) fun budget => keeps_bind ?_ fun _ => ?_
  · refine keeps_bind (keeps_read _) fun t => ?_
    dsimp only
    split
    · exact keeps_pure _
    · refine keeps_bind (keeps_fetchBudgetUsage _ _) fun usage => ?_
      refine keeps_bind (keeps_check _) fun _ => keeps_stage fun t ht => ?_
      exact ht.mapApplications fun id _ share => recompute_budget _ _ _
  · exact keeps_bind (keeps_stage fun t ht => ht.tenants _) fun _ => keeps_pure _

theorem framed_revision (revision : Revision) (db : Option Connection) (t₀ : Tables) :
    Keeps (Framed revision.namedApplications revision.namedKeys t₀) (revision.handler db) := by
  cases revision with
  | tenantApplications tenantId rows =>
    refine keeps_bind (framed_stageTenantApplicationAllocations (fun row hrow => ?_)
      fun row hrow k hk => ?_) fun r => keeps_finalize (framed_flagBlind _ _ _) r.1 r.2 db
    · exact List.mem_map_of_mem hrow
    · exact List.mem_flatMap.mpr ⟨row, hrow, List.mem_map_of_mem hk⟩
  | applicationKeys applicationId bodyApplicationId allocation apiKeys =>
    refine keeps_bind ?_ fun r => keeps_finalize (framed_flagBlind _ _ _) r.1 r.2 db
    refine keeps_bind (keeps_check _) fun _ => ?_
    refine keeps_bind (keeps_loadAndLockApplication applicationId) fun r => ?_
    refine keeps_bind (keeps_check _) fun _ => framed_stageKeyAllocations fun row hrow => ?_
    exact List.mem_map_of_mem hrow
  | singleKey keyId bodyKeyId allocation =>
    refine keeps_bind ?_ fun r => keeps_finalize (framed_flagBlind _ _ _) r.1 r.2 db
    refine keeps_bind (keeps_check _) fun _ => keeps_bind (keeps_read _) fun _ => ?_
    refine keeps_bind (keeps_check _) fun key => keeps_bind (keeps_check _) fun _ => ?_
    refine keeps_bind (keeps_loadAndLockApplication key.applicationId) fun r => ?_
    refine framed_stageKeyAllocations fun row hrow => ?_
    obtain rfl := List.mem_singleton.mp hrow
    exact List.mem_singleton_self _
  | tenantBudget tenantId topUp =>
    exact keeps_bind (framed_stageTenantBudget tenantId topUp db) fun budget =>
      keeps_afterBudgetRevision (framed_flagBlind _ _ _) tenantId budget db

end Accepted

/-! ## Rejected revisions -/

theorem stages_fetchBudgetUsage (ids : List Nat) (db : Option Connection) :
    Stages (fetchBudgetUsage ids db) := by
  unfold fetchBudgetUsage fetchBudgetUsageOrRaise
  refine stages_bind ?_ fun _ => stages_pure _
  split
  · exact stages_pure _
  · split
    · exact stages_pure _
    · split
      · exact stages_pure _
      · exact stages_look _

theorem stages_resolveAndPersistKeys (parent : ℚ) (rows : List APIKeyAllocationRow)
    (existing : List APIKey) (applicationId : Nat) (usage : List BudgetUsage) :
    Stages (resolveAndPersistKeys parent rows existing applicationId usage) := by
  unfold resolveAndPersistKeys
  refine stages_bind (stages_read _) fun _ => stages_bind (stages_check _) fun _ => ?_
  refine stages_bind (stages_check _) fun _ => stages_bind (stages_check _) fun _ => ?_
  exact stages_bind (stages_stage _) fun _ => stages_pure _

theorem stages_cascadeResolved (rows : List ApplicationAllocationRow) (usage : List BudgetUsage)
    (snapshots : Dict Nat ℚ) (r : ResolvedRow) :
    Stages (cascadeResolved rows usage snapshots r) := by
  unfold cascadeResolved cascadeIntoKeys
  dsimp only
  split
  · refine stages_bind (stages_bind (stages_read _) fun existing => ?_) fun _ => stages_pure _
    refine stages_bind (stages_resolveAndPersistKeys _ _ _ _ _) fun _ => ?_
    exact stages_bind (stages_stage _) fun _ => stages_pure _
  · exact stages_pure _

theorem stages_stageTenantApplicationAllocations (tenantId : Nat)
    (rows : List ApplicationAllocationRow) (db : Option Connection) :
    Stages (stageTenantApplicationAllocations tenantId rows db) := by
  unfold stageTenantApplicationAllocations resolveAndPersistApplications
  refine stages_bind (stages_read _) fun _ => stages_bind (stages_check _) fun _ => ?_
  refine stages_bind (stages_check _) fun _ => stages_bind (stages_check _) fun _ => ?_
  refine stages_bind (stages_check _) fun _ => ?_
  refine stages_bind (stages_fetchBudgetUsage _ _) fun usage => stages_bind ?_ fun _ => ?_
  · refine stages_bind (stages_read _) fun _ => stages_bind (stages_check _) fun _ => ?_
    exact stages_bind (stages_stage _) fun _ => stages_pure _
  · refine stages_bind (stages_foldlM (stages_cascadeResolved rows usage) []) fun _ => ?_
    exact stages_pure _

theorem stages_stageKeyAllocations (applicationId : Nat) (budget : ℚ)
    (rows : List APIKeyAllocationRow) (db : Option Connection) :
    Stages (stageKeyAllocations applicationId budget rows db) := by
  unfold stageKeyAllocations
  refine stages_bind (stages_read _) fun _ => stages_bind (stages_fetchBudgetUsage _ _) fun _ => ?_
  exact stages_bind (stages_resolveAndPersistKeys _ _ _ _ _) fun _ => stages_pure _

theorem stages_loadAndLockApplication (applicationId : Nat) :
    Stages (loadAndLockApplication applicationId) := by
  unfold loadAndLockApplication
  refine stages_bind (stages_read _) fun _ => stages_bind (stages_check _) fun _ => ?_
  exact stages_bind (stages_check _) fun _ => stages_pure _

theorem stages_stageApplicationKeyAllocations (applicationId bodyApplicationId : Nat)
    (allocation : AllocationValue) (apiKeys : List APIKeyAllocationRow)
    (db : Option Connection) : Stages (stageApplicationKeyAllocations applicationId
      bodyApplicationId allocation apiKeys db) := by
  unfold stageApplicationKeyAllocations
  refine stages_bind (stages_check _) fun _ => ?_
  refine stages_bind (stages_loadAndLockApplication applicationId) fun r => ?_
  exact stages_bind (stages_check _) fun _ => stages_stageKeyAllocations _ _ _ _

theorem stages_stageSingleApiKeyAllocation (keyId bodyKeyId : Nat) (allocation : AllocationValue)
    (db : Option Connection) :
    Stages (stageSingleApiKeyAllocation keyId bodyKeyId allocation db) := by
  unfold stageSingleApiKeyAllocation
  refine stages_bind (stages_check _) fun _ => stages_bind (stages_read _) fun _ => ?_
  refine stages_bind (stages_check _) fun key => stages_bind (stages_check _) fun _ => ?_
  refine stages_bind (stages_loadAndLockApplication key.applicationId) fun r => ?_
  exact stages_stageKeyAllocations _ _ _ _

theorem stages_stageTenantBudget (tenantId : Nat) (topUp : Option TopUp)
    (db : Option Connection) : Stages (stageTenantBudget tenantId topUp db) := by
  unfold stageTenantBudget cascadeTenantBudgetRevision
  refine stages_bind (stages_read _) fun _ => stages_bind (stages_check _) fun _ => ?_
  refine stages_bind (stages_check _) fun _ => stages_bind ?_ fun _ => ?_
  · refine stages_bind (stages_read _) fun _ => ?_
    dsimp only
    split
    · exact stages_pure _
    · refine stages_bind (stages_fetchBudgetUsage _ _) fun _ => ?_
      exact stages_bind (stages_check _) fun _ => stages_stage _
  · exact stages_bind (stages_stage _) fun _ => stages_pure _

theorem total_setBudgetExhaustedForKeys (ids : List Nat) (value : Bool) :
    Total (setBudgetExhaustedForKeys ids value) := by
  unfold setBudgetExhaustedForKeys
  split
  · exact total_pure ()
  · refine total_bind (total_read _) fun _ => total_bind (total_stage _) fun _ => ?_
    exact total_bind (total_effect _) fun _ => total_commit

theorem total_finalize (snapshots : Dict Nat ℚ) (usage : List BudgetUsage)
    (db : Option Connection) : Total (finalize snapshots usage db) := by
  unfold finalize syncKeyExhaustionFlags writeBudgetSnapshot
  refine total_bind total_commit fun _ => total_bind ?_ fun _ => ?_
  · split
    · exact total_pure ()
    · split
      · exact total_pure ()
      · exact total_effect _
  · exact total_bind (total_setBudgetExhaustedForKeys _ _) fun _ =>
      total_setBudgetExhaustedForKeys _ _

theorem total_afterBudgetRevision (tenantId : Nat) (budget : ℚ) (db : Option Connection) :
    Total (afterBudgetRevision tenantId budget db) := by
  unfold afterBudgetRevision syncPpuWalletAndExhaustion fetchBudgetUsageOrRaise
  refine total_bind total_commit fun _ => ?_
  cases db with
  | none => exact total_pure ()
  | some db =>
    refine total_bind (total_read _) fun ids => total_bind ?_ fun usage => ?_
    · dsimp only
      split
      · exact total_pure _
      · split
        · exact total_pure _
        · exact total_look _
    · cases usage with
      | none => exact total_pure ()
      | some usage =>
        dsimp only
        unfold syncFromUsage setBudgetExhaustedForTenant
        split
        · refine total_bind (total_read _) fun _ => total_bind (total_effect _) fun _ => ?_
          exact total_bind (total_stage _) fun _ => total_commit
        · exact total_setBudgetExhaustedForKeys _ _

/-- A rejected revision leaves the tables, the ledger and the flags as they were. -/
theorem atomic_revision (revision : Revision) (db : Option Connection) :
    Atomic (revision.handler db) := by
  cases revision with
  | tenantApplications tenantId rows =>
    show Atomic (updateTenantApplicationAllocations tenantId rows db)
    unfold updateTenantApplicationAllocations
    exact atomic_bind (stages_stageTenantApplicationAllocations _ _ _) fun r =>
      total_finalize _ _ _
  | applicationKeys applicationId bodyApplicationId allocation apiKeys =>
    show Atomic (updateApplicationKeyAllocations applicationId bodyApplicationId allocation
      apiKeys db)
    unfold updateApplicationKeyAllocations
    exact atomic_bind (stages_stageApplicationKeyAllocations _ _ _ _ _) fun r =>
      total_finalize _ _ _
  | singleKey keyId bodyKeyId allocation =>
    show Atomic (updateSingleApiKeyAllocation keyId bodyKeyId allocation db)
    unfold updateSingleApiKeyAllocation
    exact atomic_bind (stages_stageSingleApiKeyAllocation _ _ _ _) fun r => total_finalize _ _ _
  | tenantBudget tenantId topUp =>
    show Atomic (reviseTenantBudget tenantId topUp db)
    unfold reviseTenantBudget
    exact atomic_bind (stages_stageTenantBudget _ _ _) fun budget =>
      total_afterBudgetRevision _ _ _

/-- **A revision touches only what it names.** Of an Application or a key that an accepted
revision does not name, only the percentage (and of a key the flag) may differ afterwards;
a rejected revision changes nothing. -/
theorem revision_framed (revision : Revision) (db : Option Connection) (w : World) :
    (∀ u, (call (revision.handler db) w).1 = .ok u →
      Framed revision.namedApplications revision.namedKeys w.1
        (call (revision.handler db) w).2.1) ∧
    ∀ e, (call (revision.handler db) w).1 = .error e →
      (call (revision.handler db) w).2 = w := by
  constructor
  · intro u hok
    exact (framed_revision revision db w.1).call hok (Framed.refl w.1)
  · intro e herror
    exact atomic_revision revision db w e herror

end Ai4iCore.Allocation
