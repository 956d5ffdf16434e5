import Ai4iCore.Allocation.Writes

/-!
# The ceiling of a tenant

The budgets of a tenant's ACTIVE Applications against the tenant's own. An edit is let
through when its siblings add up to the tenant's budget plus a cent for each ACTIVE
Application, so the ACTIVE ones may carry that cent each, an Application without any
budget included. Deactivating such an Application takes its cent out of the count and
leaves the others where they are: the bound that survives every run counts all of the
tenant's Applications.
-/

namespace Ai4iCore.Allocation

open Checked Rounding StepSystem Transaction Transaction.Txn

/-- The sum of `allocated_budget` over the tenant's ACTIVE Applications. -/
def allocatedTotal (t : Tables) (tenantId : Nat) : ℚ :=
  ((activeApplications (t.applicationsOf tenantId)).map (·.amount)).sum

/-- The invariant: an INACTIVE Application has released its budget, and the ACTIVE ones
hold at most the tenant's budget and a cent for each Application of the tenant. -/
structure TenantCeiling (t : Tables) : Prop where
  ids : (t.applications.map (·.id)).Nodup
  nonneg : ∀ a ∈ t.applications, 0 ≤ a.amount
  released : ∀ a ∈ t.applications, a.status = .inactive → a.allocatedBudget = none
  budgets : ∀ tenant ∈ t.tenants, 0 ≤ tenant.allocatedBudget.getD 0
  ceiling : ∀ tenantId tenant budget, t.tenant tenantId = some tenant →
    tenant.allocatedBudget = some budget →
    allocatedTotal t tenantId ≤ budget + amtQuant * (t.applicationsOf tenantId).length

theorem tenantCeiling_flagBlind : FlagBlind TenantCeiling :=
  fun _ _ _ h => ⟨h.ids, h.nonneg, h.released, h.budgets, h.ceiling⟩

theorem TenantCeiling.keys {t : Tables} (h : TenantCeiling t) (keys : List APIKey) :
    TenantCeiling { t with keys } :=
  ⟨h.ids, h.nonneg, h.released, h.budgets, h.ceiling⟩

/-! ## Rewriting the shares of the Applications -/

theorem allocatedTotal_mapApplications (t : Tables) (f : Nat → Share → Share) (tenantId : Nat) :
    allocatedTotal (t.mapApplications f) tenantId =
      ((activeApplications (t.applicationsOf tenantId)).map fun a =>
        (f a.id a.toShare).amount).sum := by
  rw [allocatedTotal, mapApplications_applicationsOf, activeApplications_map, List.map_map]
  rfl

/-- A write that keeps INACTIVE Applications without a budget and amounts not negative
keeps the invariant when each tenant's total stays below its ceiling. -/
theorem TenantCeiling.mapApplications {t : Tables} (h : TenantCeiling t)
    {f : Nat → Share → Share}
    (hnonneg : ∀ a ∈ t.applications, 0 ≤ (f a.id a.toShare).amount)
    (hreleased : ∀ a ∈ t.applications, a.status = .inactive →
      (f a.id a.toShare).allocatedBudget = none)
    (hceiling : ∀ tenantId tenant budget, t.tenant tenantId = some tenant →
      tenant.allocatedBudget = some budget →
      ((activeApplications (t.applicationsOf tenantId)).map fun a =>
        (f a.id a.toShare).amount).sum ≤ budget + amtQuant * (t.applicationsOf tenantId).length) :
    TenantCeiling (t.mapApplications f) := by
  constructor
  · rw [mapApplications_ids]
    exact h.ids
  · intro a ha
    obtain ⟨b, hb, rfl⟩ := List.mem_map.mp ha
    exact hnonneg b hb
  · intro a ha hstatus
    obtain ⟨b, hb, rfl⟩ := List.mem_map.mp ha
    exact hreleased b hb hstatus
  · exact h.budgets
  · intro tenantId tenant budget htenant hbudget
    rw [allocatedTotal_mapApplications, mapApplications_applicationsOf, List.length_map]
    exact hceiling tenantId tenant budget htenant hbudget

theorem TenantCeiling.recompute {t : Tables} (h : TenantCeiling t) (percentages : Dict Nat ℚ) :
    TenantCeiling (t.mapApplications fun id share => share.recompute percentages id) := by
  refine h.mapApplications (fun a ha => ?_) (fun a ha hstatus => ?_)
    fun tenantId tenant budget htenant hbudget => ?_
  · rw [recompute_amount]
    exact h.nonneg a ha
  · rw [recompute_budget]
    exact h.released a ha hstatus
  · simp only [recompute_amount]
    exact h.ceiling tenantId tenant budget htenant hbudget

/-! ## The endpoint that resizes Applications -/

theorem sum_resolve_amount {t : Tables} (h : TenantCeiling t) {tenantId : Nat} {parent : ℚ}
    {usage : List BudgetUsage} {explicit : List ExplicitInput} {resolved : List ResolvedRow}
    (hres : Resolution parent
      (applicationRows t usage (activeApplications (t.applicationsOf tenantId))) explicit resolved) :
    ((activeApplications (t.applicationsOf tenantId)).map fun a =>
      (a.toShare.resolve resolved a.id).amount).sum ≤
      parent + amtQuant * (t.applicationsOf tenantId).length := by
  have htotal := hres.total
  have hsame : (applicationRows t usage (activeApplications (t.applicationsOf tenantId))).map
      (newAmount resolved) = (activeApplications (t.applicationsOf tenantId)).map fun a =>
        (a.toShare.resolve resolved a.id).amount := by
    rw [applicationRows, List.map_map]
    refine List.map_congr_left fun a ha => ?_
    exact (resolve_amount hres (applicationRows_nodup h.ids usage tenantId)
      (List.mem_map.mpr ⟨a, ha, rfl⟩) rfl).symm
  have hlen : (applicationRows t usage (activeApplications (t.applicationsOf tenantId))).length ≤
      (t.applicationsOf tenantId).length := by
    rw [applicationRows, List.length_map]
    exact List.length_filter_le _ _
  have hcast : amtQuant * ((applicationRows t usage
      (activeApplications (t.applicationsOf tenantId))).length : ℚ) ≤
      amtQuant * ((t.applicationsOf tenantId).length : ℚ) :=
    mul_le_mul_of_nonneg_left (by exact_mod_cast hlen) (by norm_num [amtQuant])
  rw [hsame] at htotal
  linarith

/-- Only ACTIVE Applications of the tenant are resolved. -/
theorem resolve_of_not_child {t : Tables} (h : TenantCeiling t) {tenantId : Nat} {parent : ℚ}
    {usage : List BudgetUsage} {explicit : List ExplicitInput} {resolved : List ResolvedRow}
    (hres : Resolution parent
      (applicationRows t usage (activeApplications (t.applicationsOf tenantId))) explicit resolved)
    {a : Application} (ha : a ∈ t.applications)
    (hother : a.tenantId ≠ tenantId ∨ a.status = .inactive) :
    a.toShare.resolve resolved a.id = a.toShare := by
  refine resolve_of_unlisted (fun r hr hrid => ?_) a.toShare
  obtain ⟨c, hc, hcid, -⟩ := (hres.rows r hr).child
  obtain ⟨b, hb, rfl⟩ := List.mem_map.mp hc
  obtain ⟨hbt, hbtenant, hbactive⟩ := mem_applicationsOf.mp hb
  obtain rfl := List.inj_on_of_nodup_map h.ids hbt ha (hcid.trans hrid)
  obtain hne | hinactive := hother
  · exact hne hbtenant
  · rw [hbactive] at hinactive
    cases hinactive

theorem keeps_cascadeResolved (rows : List ApplicationAllocationRow) (usage : List BudgetUsage)
    (snapshots : Dict Nat ℚ) (r : ResolvedRow) :
    Keeps TenantCeiling (cascadeResolved rows usage snapshots r) := by
  unfold cascadeResolved
  dsimp only
  split
  · refine keeps_bind (fun s writes s' hs h => ?_) fun _ => keeps_pure _
    obtain ⟨resolved, -, -, -, rfl⟩ := cascadeIntoKeys_accepted h
    exact ⟨hs.1, hs.2.keys _⟩
  · exact keeps_pure _

theorem keeps_stageTenantApplicationAllocations (tenantId : Nat)
    (rows : List ApplicationAllocationRow) (db : Option Connection) :
    Keeps TenantCeiling (stageTenantApplicationAllocations tenantId rows db) := by
  intro s out s' hs h
  unfold stageTenantApplicationAllocations at h
  rw [read_bind] at h
  obtain ⟨tenant, htenant, h⟩ := check_bind h
  obtain ⟨parent, hparent, h⟩ := check_bind h
  obtain ⟨_, -, h⟩ := check_bind h
  obtain ⟨_, -, h⟩ := check_bind h
  obtain ⟨usage, m, hm, h⟩ := bind_accepted h
  obtain rfl := fetchBudgetUsage_accepted hm
  obtain ⟨resolved, m', hm', h⟩ := bind_accepted h
  obtain ⟨hresolve, rfl⟩ := resolveAndPersistApplications_accepted hm'
  replace htenant := orRaise_ok htenant
  replace hparent := orRaise_ok hparent
  have hres := resolveLevel_ok (applicationRows_nodup hs.2.ids usage tenantId) hresolve
  have hwritten : TenantCeiling (m.staged.mapApplications fun id share =>
      share.resolve resolved id) := by
    refine hs.2.mapApplications (fun a ha => ?_) (fun a ha hstatus => ?_)
      fun tenantId' tenant' budget htenant' hbudget => ?_
    · refine resolve_nonneg ?_ (fun e he => ?_) hres (hs.2.nonneg a ha)
      · have := hs.2.budgets tenant (Table.mem_of_get htenant)
        rwa [hparent] at this
      · obtain ⟨row, -, rfl⟩ := List.mem_map.mp he
        exact ⟨_, _, rfl⟩
    · rw [resolve_of_not_child hs.2 hres ha (.inr hstatus)]
      exact hs.2.released a ha hstatus
    · by_cases hsame : tenantId' = tenantId
      · subst hsame
        obtain rfl := Option.some.inj (htenant.symm.trans htenant')
        obtain rfl := Option.some.inj (hparent.symm.trans hbudget)
        exact sum_resolve_amount hs.2 hres
      · have hold : ((activeApplications (m.staged.applicationsOf tenantId')).map fun a =>
            (a.toShare.resolve resolved a.id).amount).sum =
            allocatedTotal m.staged tenantId' := by
          refine congrArg List.sum (List.map_congr_left fun a ha => ?_)
          obtain ⟨hat, hatenant, -⟩ := mem_applicationsOf.mp ha
          rw [resolve_of_not_child hs.2 hres hat (.inl (hatenant ▸ hsame))]
        rw [hold]
        exact hs.2.ceiling tenantId' tenant' budget htenant' hbudget
  refine keeps_bind (keeps_foldlM (keeps_cascadeResolved rows usage) []) (fun _ => keeps_pure _)
    _ out s' ?_ h
  exact ⟨hs.1, hwritten⟩

/-! ## The requests about keys -/

theorem keeps_stageKeyAllocations (applicationId : Nat) (budget : ℚ)
    (rows : List APIKeyAllocationRow) (db : Option Connection) :
    Keeps TenantCeiling (stageKeyAllocations applicationId budget rows db) := by
  intro s out s' hs h
  obtain ⟨usage, resolved, -, -, rfl⟩ := stageKeyAllocations_accepted h
  exact ⟨hs.1, hs.2.keys _⟩

theorem keeps_stageApiKey (applicationId : Nat) (percentage budget : Option ℚ)
    (db : Option Connection) : Keeps TenantCeiling (stageApiKey applicationId percentage budget db) := by
  unfold stageApiKey
  refine keeps_bind (keeps_read _) fun _ => keeps_bind (keeps_check _) fun _ => ?_
  refine keeps_bind (keeps_check _) fun ceiling => keeps_bind (keeps_check _) fun _ => ?_
  refine keeps_bind (keeps_fetchBudgetUsage _ _) fun _ => ?_
  refine keeps_bind (keeps_check _) fun _ => ?_
  exact keeps_bind (keeps_stage fun t ht => ht.keys _) fun _ => keeps_pure _

theorem keeps_revokeKey (keyId : Nat) : Keeps TenantCeiling (revokeKey keyId) := by
  unfold revokeKey
  refine keeps_bind (keeps_read _) fun _ => keeps_bind (keeps_check _) fun _ => ?_
  refine keeps_bind (keeps_stage fun t ht => ht.keys _) fun _ => ?_
  exact keeps_bind keeps_commit fun _ => keeps_effect _

/-! ## The tenant's own budget -/

/-- The budget of a tenant becomes `budget`, which covers its Applications. -/
theorem TenantCeiling.setBudget {t : Tables} (h : TenantCeiling t) {tenantId : Nat} {budget : ℚ}
    (hbudget : 0 ≤ budget)
    (hceiling : allocatedTotal t tenantId ≤
      budget + amtQuant * (t.applicationsOf tenantId).length) :
    TenantCeiling { t with tenants := Table.modify (·.id) t.tenants tenantId fun r =>
      { r with allocatedBudget := some budget } } := by
  refine ⟨h.ids, h.nonneg, h.released, fun tenant htenant => ?_, fun id tenant b htenant hb => ?_⟩
  · obtain ⟨r, hr, rfl⟩ := List.mem_map.mp htenant
    split
    · exact hbudget
    · exact h.budgets r hr
  · change Table.get _ (Table.modify _ _ _ _) _ = _ at htenant
    rw [Table.get_modify (by intro r; rfl)] at htenant
    obtain ⟨r, hr, rfl⟩ := Option.map_eq_some_iff.mp htenant
    by_cases hid : id = tenantId
    · subst hid
      rw [if_pos rfl] at hb
      exact Option.some.inj hb ▸ hceiling
    · rw [if_neg hid] at hb
      exact h.ceiling id r b hr hb

theorem revisedBudget_nonneg {tenant : Tenant} {topUp : Option TopUp} {budget : ℚ}
    (htenant : 0 ≤ tenant.allocatedBudget.getD 0)
    (h : revisedBudget tenant topUp = .ok budget) : 0 ≤ budget := by
  unfold revisedBudget at h
  cases topUp with
  | none => exact Except.ok.inj h ▸ htenant
  | some topUp =>
    obtain ⟨-, h⟩ := require_bind h
    have := topUp.positive
    rw [← Except.ok.inj h]
    linarith

/-- The revision writes percentages, after it has seen that the new budget covers the
Applications. -/
theorem cascadeTenantBudgetRevision_accepted {s s' : Session Tables Outside} {tenantId : Nat}
    {budget : ℚ} {db : Option Connection} {u : Unit} (hbudget : 0 ≤ budget)
    (hs : TenantCeiling s.staged)
    (h : cascadeTenantBudgetRevision tenantId budget db s = (.ok u, s')) :
    s'.committed = s.committed ∧ TenantCeiling s'.staged ∧
      allocatedTotal s'.staged tenantId ≤
        budget + amtQuant * (s'.staged.applicationsOf tenantId).length := by
  unfold cascadeTenantBudgetRevision at h
  rw [read_bind] at h
  split at h
  · rename_i hnone
    obtain ⟨-, rfl⟩ := pure_accepted h
    refine ⟨rfl, hs, ?_⟩
    have hcents : (0 : ℚ) ≤ amtQuant * (s.staged.applicationsOf tenantId).length :=
      mul_nonneg (by norm_num [amtQuant]) (Nat.cast_nonneg _)
    rw [allocatedTotal, show activeApplications (s.staged.applicationsOf tenantId) = [] from hnone,
      List.map_nil, List.sum_nil]
    linarith
  · obtain ⟨usage, m, hm, h⟩ := bind_accepted h
    obtain rfl := fetchBudgetUsage_accepted hm
    obtain ⟨resolved, hresolve, h⟩ := check_bind h
    obtain ⟨-, rfl⟩ := Prod.mk.inj h
    have hres := resolveLevel_ok (applicationRows_nodup hs.ids usage tenantId) hresolve
    have hunlisted : ∀ {id}, ∀ r ∈ resolved, r.id ≠ id := fun r hr => by
      obtain ⟨e, he, -⟩ := resolveLevel_listed hresolve hr
      exact absurd he List.not_mem_nil
    refine ⟨rfl, hs.recompute _, ?_⟩
    have hsum := sum_resolve_amount hs hres
    rw [show (fun a : Application => (a.toShare.resolve resolved a.id).amount) =
      fun a => a.amount from funext fun a => by rw [resolve_of_unlisted hunlisted]] at hsum
    show allocatedTotal (Tables.mapApplications ..) _ ≤ _ + _ *
      (((Tables.mapApplications ..).applicationsOf tenantId).length : ℚ)
    rw [allocatedTotal_mapApplications, mapApplications_applicationsOf, List.length_map]
    simp only [recompute_amount]
    exact hsum

theorem keeps_stageTenantBudget (tenantId : Nat) (topUp : Option TopUp)
    (db : Option Connection) : Keeps TenantCeiling (stageTenantBudget tenantId topUp db) := by
  intro s budget s' hs h
  unfold stageTenantBudget at h
  rw [read_bind] at h
  obtain ⟨tenant, htenant, h⟩ := check_bind h
  obtain ⟨newBudget, hnew, h⟩ := check_bind h
  obtain ⟨_, m, hm, h⟩ := bind_accepted h
  have hnonneg := revisedBudget_nonneg (hs.2.budgets tenant (Table.mem_of_get (orRaise_ok htenant)))
    hnew
  obtain ⟨hcommitted, hstaged, htotal⟩ := cascadeTenantBudgetRevision_accepted hnonneg hs.2 hm
  rw [stage_bind] at h
  obtain ⟨-, rfl⟩ := pure_accepted h
  exact ⟨hcommitted ▸ hs.1, hstaged.setBudget hnonneg htotal⟩

/-! ## Creating an Application -/

theorem le_foldl_max (l : List Nat) (m : Nat) : m ≤ l.foldl max m ∧ ∀ x ∈ l, x ≤ l.foldl max m := by
  induction l generalizing m with
  | nil => simp
  | cons y l ih =>
    obtain ⟨hm, hl⟩ := ih (max m y)
    rw [List.foldl_cons]
    refine ⟨le_trans (le_max_left m y) hm, fun x hx => ?_⟩
    obtain rfl | hx := List.mem_cons.mp hx
    · exact le_trans (le_max_right m x) hm
    · exact hl x hx

theorem nextId_fresh (ids : List Nat) : nextId ids ∉ ids := by
  intro hmem
  have := (le_foldl_max ids 0).2 _ hmem
  unfold nextId at this
  omega

theorem deriveBudget_nonneg {budget : Option ℚ} {percentage : ℚ} (hbudget : 0 ≤ budget.getD 0)
    (hpercentage : 0 ≤ percentage) : 0 ≤ (deriveBudget budget percentage).getD 0 := by
  cases budget with
  | none => exact le_rfl
  | some budget =>
    refine quantize_nonneg halfEven_nonneg ?_
    have := mul_nonneg (show 0 ≤ budget from hbudget) hpercentage
    linarith

/-- A new Application has no budget, or one that fits exactly. -/
theorem newShare_ok {t : Tables} {tenant : Tenant} {percentage : Option Percentage} {share : Share}
    (htenant : 0 ≤ tenant.allocatedBudget.getD 0)
    (h : newShare t tenant percentage = .ok share) :
    0 ≤ share.amount ∧ ∀ budget, tenant.allocatedBudget = some budget →
      share.amount = 0 ∨ allocatedTotal t tenant.id + share.amount ≤ budget := by
  unfold newShare at h
  cases percentage with
  | none =>
    obtain rfl := Except.ok.inj h
    exact ⟨le_rfl, fun _ _ => .inl rfl⟩
  | some percentage =>
    obtain ⟨u, hcap, h⟩ := bind_ok h
    obtain rfl := Except.ok.inj h
    refine ⟨deriveBudget_nonneg htenant percentage.nonneg, fun budget hbudget => .inr ?_⟩
    unfold assertAllocationWithinCap at hcap
    obtain ⟨-, hcap⟩ := require_bind hcap
    rw [hbudget] at hcap
    have hle := of_decide_eq_true (require_ok hcap)
    rw [Share.amount, hbudget]
    exact hle

section Insert

variable (t : Tables) {tenantId : Nat} (share : Share)

theorem applicationsOf_insertApplication :
    (t.insertApplication tenantId share).applicationsOf tenantId =
      t.applicationsOf tenantId ++ [t.newApplication tenantId share] := by
  unfold Tables.applicationsOf Tables.insertApplication
  rw [List.filter_append, List.filter_cons_of_pos (by simp [Tables.newApplication]),
    List.filter_nil]

theorem applicationsOf_insertApplication_of_ne {id : Nat} (hid : tenantId ≠ id) :
    (t.insertApplication tenantId share).applicationsOf id = t.applicationsOf id := by
  unfold Tables.applicationsOf Tables.insertApplication
  rw [List.filter_append, List.filter_cons_of_neg (by simp [Tables.newApplication, hid]),
    List.filter_nil, List.append_nil]

/-- A new Application is ACTIVE, so its budget counts. -/
theorem allocatedTotal_insertApplication :
    allocatedTotal (t.insertApplication tenantId share) tenantId =
      allocatedTotal t tenantId + share.amount := by
  unfold allocatedTotal activeApplications
  rw [applicationsOf_insertApplication, List.filter_append,
    List.filter_cons_of_pos (by simp [Tables.newApplication]), List.filter_nil, List.map_append,
    List.sum_append, List.map_cons, List.map_nil, List.sum_singleton]
  rfl

end Insert

theorem TenantCeiling.insert {t : Tables} (h : TenantCeiling t) {share : Share} {tenantId : Nat}
    (hnonneg : 0 ≤ share.amount)
    (hfits : ∀ tenant budget, t.tenant tenantId = some tenant →
      tenant.allocatedBudget = some budget →
      share.amount = 0 ∨ allocatedTotal t tenantId + share.amount ≤ budget) :
    TenantCeiling (t.insertApplication tenantId share) := by
  constructor
  · exact Table.nodup_append_of_not_mem h.ids (nextId_fresh _)
  · intro a ha
    obtain ha | ha := List.mem_append.mp ha
    · exact h.nonneg a ha
    · rw [List.mem_singleton] at ha
      exact ha ▸ hnonneg
  · intro a ha hstatus
    obtain ha | ha := List.mem_append.mp ha
    · exact h.released a ha hstatus
    · rw [List.mem_singleton] at ha
      subst ha
      cases hstatus
  · exact h.budgets
  · intro id tenant budget htenant hbudget
    have hold := h.ceiling id tenant budget htenant hbudget
    by_cases hid : tenantId = id
    · subst hid
      have hlen : ((t.insertApplication tenantId share).applicationsOf tenantId).length =
          (t.applicationsOf tenantId).length + 1 := by
        rw [applicationsOf_insertApplication, List.length_append, List.length_singleton]
      rw [allocatedTotal_insertApplication, hlen]
      have hcents : (0 : ℚ) ≤ amtQuant * (t.applicationsOf tenantId).length :=
        mul_nonneg (by norm_num [amtQuant]) (Nat.cast_nonneg _)
      have hcent : amtQuant * (((t.applicationsOf tenantId).length + 1 : Nat) : ℚ) =
          amtQuant * (t.applicationsOf tenantId).length + amtQuant := by
        push_cast
        ring
      have hpos : (0 : ℚ) < amtQuant := by norm_num [amtQuant]
      rw [hcent]
      obtain hzero | hfit := hfits tenant budget htenant hbudget
      · rw [hzero]
        linarith
      · linarith
    · rw [allocatedTotal, applicationsOf_insertApplication_of_ne t share hid]
      exact hold

theorem keeps_createApplication (tenantId : Nat) (percentage : Option Percentage) :
    Keeps TenantCeiling (createApplication tenantId percentage) := by
  intro s u s' hs h
  unfold createApplication at h
  rw [read_bind] at h
  obtain ⟨tenant, htenant, h⟩ := check_bind h
  obtain ⟨share, hshare, h⟩ := check_bind h
  rw [stage_bind] at h
  obtain ⟨-, rfl⟩ := Prod.mk.inj h
  replace htenant := orRaise_ok htenant
  obtain ⟨hnonneg, hfits⟩ := newShare_ok (hs.2.budgets tenant (Table.mem_of_get htenant)) hshare
  have hnew := hs.2.insert hnonneg fun tenant' budget htenant' hbudget => by
    obtain rfl := Option.some.inj (htenant.symm.trans htenant')
    have hid : tenant.id = tenantId := Table.key_of_get htenant
    rw [← hid]
    exact hfits budget hbudget
  exact ⟨hnew, hnew⟩

/-! ## Updating an Application -/

/-- INACTIVE Applications without a budget add nothing. -/
theorem allocatedTotal_eq_of_released {t : Tables}
    (hreleased : ∀ a ∈ t.applications, a.status = .inactive → a.allocatedBudget = none)
    (tenantId : Nat) :
    allocatedTotal t tenantId = ((t.applicationsOf tenantId).map (·.amount)).sum := by
  have hsub : ∀ l : List Application, (∀ a ∈ l, a ∈ t.applications) →
      ((activeApplications l).map (·.amount)).sum = (l.map (·.amount)).sum := by
    intro l hl
    induction l with
    | nil => rfl
    | cons a l ih =>
      have hrest := ih fun b hb => hl b (List.mem_cons_of_mem a hb)
      unfold activeApplications at hrest ⊢
      by_cases hactive : a.status = .active
      · rw [List.filter_cons_of_pos (by simpa using hactive), List.map_cons, List.sum_cons, hrest,
          List.map_cons, List.sum_cons]
      · have hinactive : a.status = .inactive := by
          cases hstatus : a.status with
          | active => exact absurd hstatus hactive
          | inactive => rfl
        have hzero : a.amount = 0 := by
          rw [Share.amount, hreleased a (hl a List.mem_cons_self) hinactive]
          rfl
        rw [List.filter_cons_of_neg (by simpa using hactive), hrest, List.map_cons, List.sum_cons,
          hzero, zero_add]
  exact hsub _ fun a ha => (List.mem_filter.mp ha).1

/-- An Application gives up its budget or keeps it, and an INACTIVE one has none. -/
theorem TenantCeiling.modify {t : Tables} (h : TenantCeiling t) (applicationId : Nat)
    {f : Application → Application} (hid : ∀ a, (f a).id = a.id)
    (htenantId : ∀ a, (f a).tenantId = a.tenantId)
    (hamount : ∀ a ∈ t.applications, a.id = applicationId →
      (f a).amount = a.amount ∨ (f a).amount = 0)
    (hreleased : ∀ a ∈ t.applications, a.id = applicationId → (f a).status = .inactive →
      (f a).allocatedBudget = none) :
    TenantCeiling (t.modifyApplication applicationId f) := by
  have hlist : ∀ id, (t.modifyApplication applicationId f).applicationsOf id =
      (t.applicationsOf id).map fun a => if a.id = applicationId then f a else a := by
    intro id
    unfold Tables.applicationsOf Tables.modifyApplication Table.modify
    rw [List.filter_map]
    refine congrArg (List.map _) (List.filter_congr fun a _ => ?_)
    show decide ((if a.id = applicationId then f a else a).tenantId = id) = _
    split
    · rw [htenantId]
    · rfl
  have hnew : ∀ a ∈ (t.modifyApplication applicationId f).applications,
      0 ≤ a.amount ∧ (a.status = .inactive → a.allocatedBudget = none) := by
    intro a ha
    obtain ⟨b, hb, rfl⟩ := List.mem_map.mp ha
    split
    · rename_i hbid
      refine ⟨?_, hreleased b hb hbid⟩
      obtain hsame | hzero := hamount b hb hbid
      · exact hsame ▸ h.nonneg b hb
      · exact hzero.ge
    · exact ⟨h.nonneg b hb, h.released b hb⟩
  refine ⟨?_, fun a ha => (hnew a ha).1, fun a ha => (hnew a ha).2, h.budgets, ?_⟩
  · show ((Table.modify (·.id) t.applications applicationId f).map (·.id)).Nodup
    rw [Table.map_key_modify (by intro r hr; rw [hid, hr])]
    exact h.ids
  · intro id tenant budget htenant hbudget
    have hle := h.ceiling id tenant budget htenant hbudget
    rw [allocatedTotal_eq_of_released h.released] at hle
    rw [allocatedTotal_eq_of_released fun a ha => (hnew a ha).2, hlist, List.length_map,
      List.map_map]
    refine le_trans (List.sum_le_sum fun a ha => ?_) hle
    have hat : a ∈ t.applications := (List.mem_filter.mp ha).1
    show (if a.id = applicationId then f a else a).amount ≤ a.amount
    split
    · rename_i haid
      obtain hsame | hzero := hamount a hat haid
      · exact hsame.le
      · exact hzero ▸ h.nonneg a hat
    · exact le_rfl

theorem keeps_stageUpdateApplication (tenantId applicationId : Nat)
    (status : Option ApplicationStatus) :
    Keeps TenantCeiling (stageUpdateApplication tenantId applicationId status) := by
  intro s ids s' hs h
  unfold stageUpdateApplication at h
  rw [read_bind] at h
  obtain ⟨app, happ, h⟩ := check_bind h
  obtain ⟨_, -, h⟩ := check_bind h
  replace happ := orRaise_ok happ
  split at h
  · rw [stage_bind, stage_bind] at h
    obtain ⟨-, rfl⟩ := pure_accepted h
    refine ⟨hs.1, (hs.2.keys _).modify applicationId (fun _ => rfl) (fun _ => rfl)
      (fun a _ _ => .inr rfl) fun a _ _ _ => rfl⟩
  · rename_i hcase
    rw [stage_bind] at h
    obtain ⟨-, rfl⟩ := pure_accepted h
    refine ⟨hs.1, hs.2.modify applicationId (fun _ => rfl) (fun _ => rfl)
      (fun a _ _ => .inl rfl) fun a ha haid hinactive => ?_⟩
    have hsame : s.staged.application applicationId = some a :=
      haid ▸ Table.get_of_mem hs.2.ids ha
    obtain rfl := Option.some.inj (happ.symm.trans hsame)
    refine hs.2.released app ha ?_
    -- an ACTIVE row would have been released above
    cases hstatus : app.status with
    | inactive => rfl
    | active =>
      refine absurd ⟨?_, hstatus⟩ hcase
      change status.getD app.status = .inactive at hinactive
      rw [hstatus] at hinactive
      cases status with
      | none => cases hinactive
      | some st => exact congrArg some hinactive

/-! ## Every run -/

theorem keeps_revision (revision : Revision) (db : Option Connection) :
    Keeps TenantCeiling (revision.handler db) := by
  cases revision with
  | tenantApplications tenantId rows =>
    exact keeps_bind (keeps_stageTenantApplicationAllocations tenantId rows db) fun r =>
      keeps_finalize tenantCeiling_flagBlind r.1 r.2 db
  | applicationKeys applicationId bodyApplicationId allocation apiKeys =>
    refine keeps_bind ?_ fun r => keeps_finalize tenantCeiling_flagBlind r.1 r.2 db
    refine keeps_bind (keeps_check _) fun _ => ?_
    refine keeps_bind (keeps_loadAndLockApplication applicationId) fun r => ?_
    exact keeps_bind (keeps_check _) fun _ => keeps_stageKeyAllocations applicationId r.2 apiKeys db
  | singleKey keyId bodyKeyId allocation =>
    refine keeps_bind ?_ fun r => keeps_finalize tenantCeiling_flagBlind r.1 r.2 db
    refine keeps_bind (keeps_check _) fun _ => keeps_bind (keeps_read _) fun _ => ?_
    refine keeps_bind (keeps_check _) fun key => keeps_bind (keeps_check _) fun _ => ?_
    refine keeps_bind (keeps_loadAndLockApplication key.applicationId) fun r => ?_
    exact keeps_stageKeyAllocations key.applicationId r.2 [⟨keyId, allocation⟩] db
  | tenantBudget tenantId topUp =>
    exact keeps_bind (keeps_stageTenantBudget tenantId topUp db) fun budget =>
      keeps_afterBudgetRevision tenantCeiling_flagBlind tenantId budget db

theorem keeps_handler (a : Action) : Keeps TenantCeiling a.handler := by
  cases a with
  | revise revision db => exact keeps_revision revision db
  | createApplication tenantId percentage => exact keeps_createApplication tenantId percentage
  | updateApplication tenantId applicationId status db =>
    exact keeps_bind (keeps_stageUpdateApplication tenantId applicationId status) fun zeroed =>
      keeps_afterUpdateApplication tenantCeiling_flagBlind zeroed db
  | createApiKey applicationId percentage budget cached db =>
    exact keeps_bind (keeps_stageApiKey applicationId percentage budget db) fun r =>
      keeps_afterApiKey tenantCeiling_flagBlind r.1 r.2 cached db
  | revokeKey keyId => exact keeps_revokeKey keyId
  | bill ledger =>
    unfold Action.handler
    exact keeps_effect _

theorem step_ok {w w' : World} {a : Action} (h : step w a = some w') :
    ∃ u, (call a.handler w).1 = .ok u ∧ (call a.handler w).2 = w' := by
  unfold step at h
  split at h
  · rename_i u w'' hcall
    exact ⟨u, by rw [hcall], by rw [hcall]; exact Option.some.inj h⟩
  · cases h

/-- **The ceiling of a tenant.** From tables that meet it, no run of requests takes the
ACTIVE Applications of a tenant above the tenant's budget and a cent for each of its
Applications. -/
theorem tenant_ceiling_holds {w w' : World} {actions : List Action} (hw : TenantCeiling w.1)
    (hrun : Run step w actions w') {tenantId : Nat} {tenant : Tenant} {budget : ℚ}
    (htenant : w'.1.tenant tenantId = some tenant) (hbudget : tenant.allocatedBudget = some budget) :
    allocatedTotal w'.1 tenantId ≤ budget + amtQuant * (w'.1.applicationsOf tenantId).length := by
  have hinv : TenantCeiling w'.1 := by
    refine hrun.invariant (P := fun w => TenantCeiling w.1) (fun m a m' hm hstep => ?_) hw
    obtain ⟨u, hok, rfl⟩ := step_ok hstep
    exact (keeps_handler a).call hok hm
  exact hinv.ceiling tenantId tenant budget htenant hbudget

/-- A tenant with a budget of ₹100 and no Applications yet. -/
def freshTenant : World := (⟨[⟨1, some 100⟩], [], []⟩, ⟨[], []⟩)

theorem freshTenant_ceiling : TenantCeiling freshTenant.1 := by
  refine ⟨List.nodup_nil, nofun, nofun, by decide +kernel, ?_⟩
  intro tenantId tenant budget htenant hbudget
  obtain rfl := List.mem_singleton.mp (Table.mem_of_get htenant)
  obtain rfl := Option.some.inj hbudget
  show (0 : ℚ) ≤ 100 + amtQuant * ((0 : Nat) : ℚ)
  norm_num

/-- Half of the budget for the first of three Applications, ₹50.03 for the third: the
second one holds nothing and counts with a cent. Then it is deactivated. -/
def overByACent : List Action :=
  [.createApplication 1 (some ⟨50, by norm_num, by norm_num⟩), .createApplication 1 none,
   .createApplication 1 none,
   .revise (.tenantApplications 1 [⟨3, ⟨.fixed, 5003 / 100, by norm_num, nofun⟩, []⟩]) none,
   .updateApplication 1 2 (some .inactive) none]

theorem tenant_ceiling_holds_fresh :
    allocatedTotal (final step freshTenant overByACent).1 1 ≤ 100 + amtQuant *
      ((final step freshTenant overByACent).1.applicationsOf 1).length :=
  tenant_ceiling_holds freshTenant_ceiling (run_final (by decide +kernel))
    (show (final step freshTenant overByACent).1.tenant 1 = some ⟨1, some 100⟩ by decide +kernel)
    rfl

/-- Counting the ACTIVE Applications only is not enough: ₹100.03 of ₹100 are allocated to
two of them, from a state where nothing was. -/
theorem active_cents_exceeded :
    allocatedTotal freshTenant.1 1 ≤ 100 + amtQuant *
        (activeApplications (freshTenant.1.applicationsOf 1)).length ∧
      Run step freshTenant overByACent (final step freshTenant overByACent) ∧
      (final step freshTenant overByACent).1.tenant 1 = some ⟨1, some 100⟩ ∧
      ¬ allocatedTotal (final step freshTenant overByACent).1 1 ≤ 100 + amtQuant *
        (activeApplications ((final step freshTenant overByACent).1.applicationsOf 1)).length :=
  ⟨by decide +kernel, run_final (by decide +kernel), by decide +kernel, by decide +kernel⟩

end Ai4iCore.Allocation
