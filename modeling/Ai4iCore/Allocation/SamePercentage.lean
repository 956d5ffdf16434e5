import Ai4iCore.Allocation.Writes

/-!
# The same percentage by two routes

`create_application` derives the amount of a percentage with the rounding mode of the decimal
context, which goes to the even neighbour (`_derive_budget`); `convert` rounds half up. The budget
times the percentage is the amount in hundredths of a rupee before it is rounded: the two routes
store the same amount unless that number lies half way above an even one.
-/

namespace Ai4iCore.Allocation

open Checked Rounding Transaction Transaction.Txn

/-- The two roundings of a percentage of a budget. -/
theorem derived_eq_converted_iff {budget percentage : ℚ} (hbudget : 0 ≤ budget)
    (hpercentage : 0 ≤ percentage) :
    quantize halfUp (budget * percentage / 100) = quantize halfEven (budget * percentage / 100) ↔
      ¬EvenTie (budget * percentage) := by
  have hhundredths : budget * percentage / 100 * 100 = budget * percentage :=
    div_mul_cancel₀ _ (by norm_num)
  rw [quantize_eq_iff, hhundredths, eq_comm,
    halfEven_eq_halfUp_iff (mul_nonneg hbudget hpercentage)]

/-- What a row that gives a percentage of two decimals is converted to. -/
theorem convert_percentage {id : Nat} {percentage parent : ℚ} (h : HasScale 2 percentage) :
    convert ⟨id, some percentage, none⟩ parent =
      .ok (quantize halfUp (parent * percentage / 100), percentage) := by
  show Except.ok (quantize halfUp (parent * quantize halfUp percentage / 100), _) = _
  rw [h.quantize_eq]

section Routes

variable {w₀ w₁ w w' : World} {tenantId id : Nat} {percentage : Percentage} {tenant : Tenant}
  {budget : ℚ} {a : Application} {db : Option Connection}

/-- What `create_application` stores. -/
theorem created_share (hcreate : step w₀ (.createApplication tenantId (some percentage)) = some w₁)
    (hnew : w₀.1.application id = none) (hmade : w₁.1.application id = some a)
    (htenant : w₁.1.tenant tenantId = some tenant)
    (hbudget : tenant.allocatedBudget = some budget) :
    a.toShare = ⟨some percentage.value,
      some (quantize halfEven (budget * percentage.value / 100))⟩ := by
  obtain ⟨u, s, hrun, rfl⟩ := step_accepted hcreate
  change createApplication tenantId (some percentage) _ = _ at hrun
  unfold createApplication at hrun
  rw [read_bind] at hrun
  obtain ⟨tenant', htenant', hrun⟩ := check_bind hrun
  obtain ⟨share, hshare, hrun⟩ := check_bind hrun
  rw [stage_bind] at hrun
  obtain ⟨-, rfl⟩ := Prod.mk.inj hrun
  replace htenant' : w₀.1.tenant tenantId = some tenant' := orRaise_ok htenant'
  obtain rfl : tenant' = tenant := Option.some.inj (htenant'.symm.trans htenant)
  -- the row was not there before, so it is the one that was appended
  have ha : a = w₀.1.newApplication tenantId share := by
    have hmem : a ∈ w₀.1.applications ++ [w₀.1.newApplication tenantId share] :=
      Table.mem_of_get hmade
    obtain hold | hnew' := List.mem_append.mp hmem
    · have hid : a.id = id := Table.key_of_get hmade
      exact absurd hid (by simpa using List.find?_eq_none.mp hnew a hold)
    · exact List.mem_singleton.mp hnew'
  obtain ⟨u', -, hshare⟩ := bind_ok hshare
  rw [ha, ← Except.ok.inj hshare, hbudget]
  rfl

/-- An accepted request of a tenant writes its Applications by one resolution. -/
theorem submitted_application {rows : List ApplicationAllocationRow}
    (hcall : step w (.revise (.tenantApplications tenantId rows) db) = some w') :
    ∃ tenant budget usage resolved, w.1.tenant tenantId = some tenant ∧
      tenant.allocatedBudget = some budget ∧
      resolveLevel budget
          (applicationRows w.1 usage (activeApplications (w.1.applicationsOf tenantId)))
          (rows.map fun row => explicitInput row.applicationId row.allocation) = .ok resolved ∧
      ∀ id, w'.1.application id = (w.1.application id).map fun a =>
        { a with toShare := a.toShare.resolve resolved a.id } := by
  obtain ⟨u, s, hrun, rfl⟩ := step_accepted hcall
  change (stageTenantApplicationAllocations tenantId rows db >>= _) _ = _ at hrun
  obtain ⟨out, m, hm, hfinal⟩ := bind_accepted hrun
  obtain ⟨tenant, budget, usage, resolved, htenant, hbudget, hresolve, hstaged⟩ :=
    stageTenantApplicationAllocations_accepted hm
  have hcommitted := finalize_committed (I := fun t => t.applications = m.staged.applications)
    (fun _ _ _ h => h) rfl hfinal
  refine ⟨tenant, budget, usage, resolved, htenant, hbudget, hresolve, fun id => ?_⟩
  unfold Tables.application
  rw [hcommitted, hstaged]
  exact Table.get_map (by intro r; rfl)

/-- **The same percentage by two routes.** An Application is created at a percentage of its
tenant's budget; whenever the Application and the budget are as they were then, submitting the
same percentage for it keeps its amount, and its row, unless the budget times the percentage is
an even tie. -/
theorem same_percentage_iff
    (hcreate : step w₀ (.createApplication tenantId (some percentage)) = some w₁)
    (hnew : w₀.1.application id = none) (hmade : w₁.1.application id = some a)
    (htenant : w₁.1.tenant tenantId = some tenant)
    (hbudget : tenant.allocatedBudget = some budget) (hnonneg : 0 ≤ budget)
    (htwo : HasScale 2 percentage.value) (hids : (w.1.applications.map (·.id)).Nodup)
    (hkept : w.1.application id = some a) (hkept' : w.1.tenant tenantId = some tenant)
    {rows : List ApplicationAllocationRow} {row : ApplicationAllocationRow}
    (hrow : (requestRowById rows).get? id = some row) (htype : row.allocation.type = .percentage)
    (hvalue : row.allocation.value = percentage.value)
    (hcall : step w (.revise (.tenantApplications tenantId rows) db) = some w') :
    ((w'.1.application id).bind (·.allocatedBudget) = a.allocatedBudget ↔
      ¬EvenTie (budget * percentage.value)) ∧
    (w'.1.application id = some a ↔ ¬EvenTie (budget * percentage.value)) := by
  obtain ⟨tenant', budget', usage, resolved, htenant', hbudget', hresolve, hafter⟩ :=
    submitted_application hcall
  obtain rfl : tenant' = tenant := Option.some.inj (htenant'.symm.trans hkept')
  obtain rfl : budget' = budget := Option.some.inj (hbudget'.symm.trans hbudget)
  obtain rfl : a.id = id := Table.key_of_get hkept
  have hres := resolveLevel_ok (applicationRows_nodup hids usage tenantId) hresolve
  have hentry : (a.id, ⟨a.id, some percentage.value, none⟩) ∈ explicitById
      (rows.map fun row => explicitInput row.applicationId row.allocation) := by
    rw [explicitById_rows]
    refine List.mem_map.mpr ⟨(a.id, row), Dict.mem_of_get? hrow, ?_⟩
    show (a.id, explicitInput a.id row.allocation) = _
    rw [explicitInput, htype, hvalue]
  -- the listed Application is an ACTIVE one of the tenant
  obtain ⟨r, hr, hrid⟩ := (hres.listed a.id).mpr (List.mem_map_of_mem (f := Prod.fst) hentry)
  obtain ⟨c, hc, hcid, -⟩ := (hres.rows r hr).child
  obtain ⟨b, hb, rfl⟩ := List.mem_map.mp hc
  obtain rfl : b = a := List.inj_on_of_nodup_map hids (mem_applicationsOf.mp hb).1
    (Table.mem_of_get hkept) (hcid.trans hrid)
  have hshare := created_share hcreate hnew hmade htenant hbudget
  have hamount : b.amount = quantize halfEven (budget' * percentage.value / 100) := by
    rw [Share.amount, hshare]
    rfl
  have hstored : b.allocatedBudget = some (quantize halfEven (budget' * percentage.value / 100)) :=
    congrArg Share.allocatedBudget hshare
  have hwritten : b.toShare.resolve resolved b.id = _ :=
    resolve_of_listed hres (applicationRows_nodup hids usage tenantId) hc hentry
      (convert_percentage htwo) b.toShare
  rw [show AllocationRow.allocatedAmount _ = b.amount from rfl, hamount] at hwritten
  rw [hafter, hkept, Option.map_some, Option.bind_some, hwritten, hstored,
    ← derived_eq_converted_iff hnonneg percentage.nonneg]
  by_cases hsame : quantize halfUp (budget' * percentage.value / 100) =
      quantize halfEven (budget' * percentage.value / 100)
  case pos =>
    rw [if_neg (not_not.mpr hsame)]
    exact ⟨iff_of_true hstored hsame, iff_of_true rfl hsame⟩
  case neg =>
    rw [if_pos hsame]
    refine ⟨iff_of_false (fun h => hsame (Option.some.inj h)) hsame, iff_of_false (fun h => ?_) hsame⟩
    have hbudgets := congrArg (Application.toShare ·) (Option.some.inj h)
    rw [hshare] at hbudgets
    exact hsame (Option.some.inj (congrArg Share.allocatedBudget hbudgets))

end Routes

/-- A tenant with its budget and the given Applications. -/
def tenantWith (budget : ℚ) (applications : List Application) : World :=
  (⟨[⟨1, some budget⟩], applications, []⟩, ⟨[], []⟩)

/-- Its first Application. -/
def firstApplication (share : Share) : Application :=
  { toShare := share, id := 1, tenantId := 1, status := .active }

/-- The first Application is given a percentage. -/
def submitPercentage (percentage : Percentage) : Action :=
  .revise (.tenantApplications 1
    [⟨1, ⟨.percentage, percentage.value, percentage.nonneg, fun _ => percentage.le_hundred⟩, []⟩])
    none

theorem same_percentage_half :
    (((tenantWith 100 [firstApplication ⟨some 50, some 50⟩]).1.application 1).bind
        (·.allocatedBudget) = some 50 ↔ ¬EvenTie (100 * 50)) ∧
    ((tenantWith 100 [firstApplication ⟨some 50, some 50⟩]).1.application 1 =
        some (firstApplication ⟨some 50, some 50⟩) ↔ ¬EvenTie (100 * 50)) := by
  have hcreate : step (tenantWith 100 [])
      (.createApplication 1 (some ⟨50, by norm_num, by norm_num⟩)) =
        some (tenantWith 100 [firstApplication ⟨some 50, some 50⟩]) := by decide +kernel
  have hcall : step (tenantWith 100 [firstApplication ⟨some 50, some 50⟩])
      (submitPercentage ⟨50, by norm_num, by norm_num⟩) =
        some (tenantWith 100 [firstApplication ⟨some 50, some 50⟩]) := by decide +kernel
  have hnew : (tenantWith 100 []).1.application 1 = none := rfl
  have hmade : (tenantWith 100 [firstApplication ⟨some 50, some 50⟩]).1.application 1 =
      some (firstApplication ⟨some 50, some 50⟩) := rfl
  have htenant : (tenantWith 100 [firstApplication ⟨some 50, some 50⟩]).1.tenant 1 =
      some ⟨1, some 100⟩ := rfl
  exact same_percentage_iff hcreate hnew hmade htenant rfl (by norm_num) ⟨5000, by norm_num⟩
    (by decide) hmade htenant rfl rfl rfl hcall

/-- A hundredth of a percent of fifty rupees is half a hundredth of a rupee: nothing when the
Application is created, a hundredth when the same percentage is submitted. -/
theorem same_percentage_moves :
    step (tenantWith 50 []) (.createApplication 1 (some ⟨1 / 100, by norm_num, by norm_num⟩)) =
      some (tenantWith 50 [firstApplication ⟨some (1 / 100), some 0⟩]) ∧
    step (tenantWith 50 [firstApplication ⟨some (1 / 100), some 0⟩])
        (submitPercentage ⟨1 / 100, by norm_num, by norm_num⟩) =
      some (tenantWith 50 [firstApplication ⟨some (1 / 100), some (1 / 100)⟩]) := by
  decide +kernel

end Ai4iCore.Allocation
