import Ai4iCore.Allocation.Drift
import Ai4iCore.Allocation.Outage
import Ai4iCore.Allocation.TenantCeiling

/-!
# The ceiling of an Application

The budgets of an Application's active keys against the Application's own budget `B`.
Creating a key is checked on percentages, which each key may be off by what `Drifts`
allows; editing is checked on amounts with a cent for each active key. Together they bound
the active keys by `B` and, for each key the Application ever had, a cent and a hundredth
of a percent of `B`.

One write is left out (`Refreshes`): a nested row that gives a key the amount it already
has, while its Application is resized, leaves the key with a percentage of the old budget.
-/

namespace Ai4iCore.Allocation

open Checked Rounding StepSystem Transaction Transaction.Txn

/-- The sum of `allocated_budget` over the Application's active keys. -/
def keyTotal (t : Tables) (applicationId : Nat) : ℚ :=
  ((active (t.keysOf applicationId)).map (·.amount)).sum

/-- What one key may add to the total above the budget: a cent and a hundredth of a percent
of it. -/
def slack (budget : ℚ) : ℚ := 1 / 100 + budget / 10000

/-- The invariant, for the Applications that are not `pending`: a request that has resized
some Applications still has to look at their keys. -/
structure KeyCeiling (pending : List Nat) (t : Tables) : Prop where
  applicationIds : (t.applications.map (·.id)).Nodup
  keyIds : (t.keys.map (·.id)).Nodup
  homes : ∀ k ∈ t.keys, k.applicationId ∈ t.applications.map (·.id)
  tenantNonneg : ∀ tenant ∈ t.tenants, 0 ≤ tenant.allocatedBudget.getD 0
  applicationNonneg : ∀ a ∈ t.applications, 0 ≤ a.amount
  keyNonneg : ∀ k ∈ t.keys, 0 ≤ k.amount
  percentages : ∀ k ∈ t.keys, k.toShare.AlmostNonneg
  drifts : ∀ a ∈ t.applications, a.id ∉ pending → ∀ budget, a.allocatedBudget = some budget →
    0 < budget → ∀ k ∈ active (t.keysOf a.id), Drifts budget k.toShare
  ceiling : ∀ a ∈ t.applications, a.id ∉ pending → ∀ budget, a.allocatedBudget = some budget →
    keyTotal t a.id ≤ budget + (t.keysOf a.id).length * slack budget

theorem KeyCeiling.mono {pending pending' : List Nat} {t : Tables} (h : KeyCeiling pending t)
    (hsub : ∀ id ∈ pending, id ∈ pending') : KeyCeiling pending' t :=
  { h with
    drifts := fun a ha hid => h.drifts a ha fun hmem => hid (hsub a.id hmem)
    ceiling := fun a ha hid => h.ceiling a ha fun hmem => hid (hsub a.id hmem) }

theorem budget_nonneg {pending : List Nat} {t : Tables} (h : KeyCeiling pending t)
    {a : Application} (ha : a ∈ t.applications) {budget : ℚ}
    (hbudget : a.allocatedBudget = some budget) : 0 ≤ budget := by
  have hnonneg := h.applicationNonneg a ha
  rw [Share.amount, hbudget] at hnonneg
  exact hnonneg

/-! ## Rewriting the keys -/

theorem keysOf_map {t : Tables} {f : APIKey → APIKey}
    (hf : ∀ k, (f k).applicationId = k.applicationId) (id : Nat) :
    ({ t with keys := t.keys.map f } : Tables).keysOf id = (t.keysOf id).map f := by
  unfold Tables.keysOf
  rw [List.filter_map, List.map_reverse]
  refine congrArg List.reverse (congrArg (List.map f) (List.filter_congr fun k _ => ?_))
  show decide ((f k).applicationId = id) = _
  rw [hf]

/-- The active keys add up to no more when some are revoked and none is given more. -/
theorem sum_active_map_le {f : APIKey → APIKey} (hactive : ∀ k, (f k).isActive = true → k.isActive = true)
    {keys : List APIKey} (hamount : ∀ k ∈ keys, 0 ≤ (f k).amount ∧ (f k).amount ≤ k.amount) :
    ((active (keys.map f)).map (·.amount)).sum ≤ ((active keys).map (·.amount)).sum := by
  unfold active
  induction keys with
  | nil => exact le_rfl
  | cons k keys ih =>
    have hrest := ih fun b hb => hamount b (List.mem_cons_of_mem k hb)
    obtain ⟨hpos, hle⟩ := hamount k List.mem_cons_self
    rw [List.map_cons]
    by_cases hnew : (f k).isActive = true
    · rw [List.filter_cons_of_pos hnew, List.filter_cons_of_pos (hactive k hnew), List.map_cons,
        List.map_cons, List.sum_cons, List.sum_cons]
      linarith
    · rw [List.filter_cons_of_neg hnew]
      by_cases hk : k.isActive = true
      · rw [List.filter_cons_of_pos hk, List.map_cons, List.sum_cons]
        linarith
      · rw [List.filter_cons_of_neg hk]
        exact hrest

/-- Keys give up their share or are revoked, in any combination: the totals only go down. -/
theorem KeyCeiling.shrinkKeys {pending : List Nat} {t : Tables} (h : KeyCeiling pending t)
    {f : APIKey → APIKey} (hid : ∀ k, (f k).id = k.id)
    (happ : ∀ k, (f k).applicationId = k.applicationId)
    (hactive : ∀ k, (f k).isActive = true → k.isActive = true)
    (hshare : ∀ k, (f k).toShare = k.toShare ∨ (f k).toShare = ⟨some 0, some 0⟩) :
    KeyCeiling pending { t with keys := t.keys.map f } := by
  have hamount : ∀ k ∈ t.keys, 0 ≤ (f k).amount ∧ (f k).amount ≤ k.amount := by
    intro k hk
    obtain hsame | hzero := hshare k
    · rw [hsame]
      exact ⟨h.keyNonneg k hk, le_rfl⟩
    · rw [hzero]
      exact ⟨le_rfl, h.keyNonneg k hk⟩
  have hmem : ∀ {id k}, k ∈ active ((t.keysOf id).map f) →
      ∃ b ∈ active (t.keysOf id), k = f b := by
    intro id k hk
    obtain ⟨hmap, hkactive⟩ := List.mem_filter.mp hk
    obtain ⟨b, hb, rfl⟩ := List.mem_map.mp hmap
    exact ⟨b, List.mem_filter.mpr ⟨hb, hactive b hkactive⟩, rfl⟩
  have htotal : ∀ id, ((active ((t.keysOf id).map f)).map (·.amount)).sum ≤ keyTotal t id :=
    fun id => sum_active_map_le hactive fun k hk =>
      hamount k (List.mem_filter.mp (List.mem_reverse.mp hk)).1
  have hpercentage : ∀ k ∈ t.keys, (f k).toShare.AlmostNonneg := by
    intro k hk
    obtain hsame | hzero := hshare k
    · rw [hsame]
      exact h.percentages k hk
    · rw [hzero]
      intro p hp
      rw [← Option.some.inj hp]
      norm_num
  constructor
  · exact h.applicationIds
  · show ((t.keys.map f).map (·.id)).Nodup
    rw [List.map_map, show (fun k : APIKey => k.id) ∘ f = fun k => k.id from funext hid]
    exact h.keyIds
  · intro k hk
    obtain ⟨b, hb, rfl⟩ := List.mem_map.mp hk
    rw [happ]
    exact h.homes b hb
  · exact h.tenantNonneg
  · exact h.applicationNonneg
  · intro k hk
    obtain ⟨b, hb, rfl⟩ := List.mem_map.mp hk
    exact (hamount b hb).1
  · intro k hk
    obtain ⟨b, hb, rfl⟩ := List.mem_map.mp hk
    exact hpercentage b hb
  · intro a ha hpending budget hbudget hpos k hk
    rw [keysOf_map happ] at hk
    obtain ⟨b, hb, rfl⟩ := hmem hk
    obtain hsame | hzero := hshare b
    · rw [hsame]
      exact h.drifts a ha hpending budget hbudget hpos b hb
    · have hbt := (mem_active_keysOf.mp hb).1
      refine drifts_of_amount_eq_zero (le_of_lt hpos) ?_ (hpercentage b hbt)
      rw [hzero]
      rfl
  · intro a ha hpending budget hbudget
    rw [keyTotal, keysOf_map happ, List.length_map]
    exact le_trans (htotal a.id) (h.ceiling a ha hpending budget hbudget)

theorem keyCeiling_flagBlind (pending : List Nat) : FlagBlind (KeyCeiling pending) := by
  intro t f hf h
  refine h.shrinkKeys (fun k => ?_) (fun k => ?_) (fun k hk => ?_) fun k => .inl ?_
  · rw [hf k]
  · rw [hf k]
  · rw [hf k] at hk
    exact hk
  · rw [hf k]

/-! ## Rewriting the Applications -/

/-- Applications that are not `pending` keep their budget or give it up. -/
theorem KeyCeiling.mapApplications {pending pending' : List Nat} {t : Tables}
    (h : KeyCeiling pending t) {f : Application → Application} (hid : ∀ a, (f a).id = a.id)
    (hnonneg : ∀ a ∈ t.applications, 0 ≤ (f a).amount)
    (hbudget : ∀ a ∈ t.applications, a.id ∉ pending' → a.id ∉ pending ∧
      ((f a).allocatedBudget = a.allocatedBudget ∨ (f a).allocatedBudget = none)) :
    KeyCeiling pending' { t with applications := t.applications.map f } := by
  have hids : (t.applications.map f).map (·.id) = t.applications.map (·.id) := by
    rw [List.map_map, show (fun a : Application => a.id) ∘ f = fun a => a.id from funext hid]
  -- an Application that still has a budget has the one it had
  have hold : ∀ a ∈ t.applications, a.id ∉ pending' → ∀ budget,
      (f a).allocatedBudget = some budget → a.id ∉ pending ∧ a.allocatedBudget = some budget := by
    intro a ha hpending budget hb
    obtain ⟨hout, hsame | hnone⟩ := hbudget a ha hpending
    · exact ⟨hout, hsame ▸ hb⟩
    · rw [hnone] at hb
      cases hb
  constructor
  · rw [hids]
    exact h.applicationIds
  · exact h.keyIds
  · rw [hids]
    exact h.homes
  · exact h.tenantNonneg
  · intro a ha
    obtain ⟨b, hb, rfl⟩ := List.mem_map.mp ha
    exact hnonneg b hb
  · exact h.keyNonneg
  · exact h.percentages
  · intro a ha hpending budget hb hpos
    obtain ⟨b, hbt, rfl⟩ := List.mem_map.mp ha
    rw [hid] at hpending ⊢
    obtain ⟨hout, hsome⟩ := hold b hbt hpending budget hb
    exact h.drifts b hbt hout budget hsome hpos
  · intro a ha hpending budget hb
    obtain ⟨b, hbt, rfl⟩ := List.mem_map.mp ha
    rw [hid] at hpending ⊢
    obtain ⟨hout, hsome⟩ := hold b hbt hpending budget hb
    exact h.ceiling b hbt hout budget hsome

theorem KeyCeiling.setBudget {pending : List Nat} {t : Tables} (h : KeyCeiling pending t)
    {tenantId : Nat} {budget : ℚ} (hbudget : 0 ≤ budget) :
    KeyCeiling pending { t with tenants := Table.modify (·.id) t.tenants tenantId fun r =>
      { r with allocatedBudget := some budget } } := by
  refine { h with tenantNonneg := fun tenant htenant => ?_ }
  obtain ⟨r, hr, rfl⟩ := List.mem_map.mp htenant
  split
  · exact hbudget
  · exact h.tenantNonneg r hr

/-! ## Resolving the keys of one Application -/

section Cascade

variable {t : Tables} {applicationId : Nat} {amount : ℚ} {usage : List BudgetUsage}
  {explicit : List ExplicitInput} {resolved : List ResolvedRow}

/-- The keys a recomputation goes over. -/
def unlisted (existing : List APIKey) (resolved : List ResolvedRow) : List (Nat × Share) :=
  (existing.filter fun k => !resolved.any fun r => r.id = k.id).map fun k => (k.id, k.toShare)

theorem mem_unlisted {existing : List APIKey} {id : Nat} :
    id ∈ (unlisted existing resolved).map Prod.fst ↔
      (∀ r ∈ resolved, r.id ≠ id) ∧ ∃ k ∈ existing, k.id = id := by
  unfold unlisted
  rw [List.map_map, List.mem_map]
  constructor
  · rintro ⟨k, hk, rfl⟩
    obtain ⟨hmem, hnot⟩ := List.mem_filter.mp hk
    refine ⟨fun r hr hid => ?_, k, hmem, rfl⟩
    simp only [Bool.not_eq_true', List.any_eq_false, decide_eq_true_eq] at hnot
    exact hnot r hr hid
  · rintro ⟨hnot, k, hk, rfl⟩
    refine ⟨k, List.mem_filter.mpr ⟨hk, ?_⟩, rfl⟩
    simp only [Bool.not_eq_true', List.any_eq_false, decide_eq_true_eq]
    exact hnot

/-- What the cascade makes of a key: a changed row is written, an unchanged one is not,
and a key without a row is recomputed when the Application was resized. -/
theorem cascadeShare_cases (existing : List APIKey) (changed : Bool) (id : Nat)
    (share : Share) :
    (∃ r ∈ resolved, r.id = id ∧ r.changed = true ∧
      cascadeShare amount existing resolved changed id share =
        ⟨some r.percentage, some r.amount⟩) ∨
    (∃ r ∈ resolved, r.id = id ∧ r.changed = false ∧
      cascadeShare amount existing resolved changed id share = share) ∨
    ((∀ r ∈ resolved, r.id ≠ id) ∧
      cascadeShare amount existing resolved changed id share =
        if changed then
          share.recompute (recomputeUnlistedPercentages amount (unlisted existing resolved)) id
        else share) := by
  have hrecompute : ∀ sh : Share, (∃ r ∈ resolved, r.id = id) →
      sh.recompute (unlistedPercentages amount existing resolved) id = sh := by
    rintro sh ⟨r, hr, hid⟩
    unfold Share.recompute
    cases hget : Dict.get? (unlistedPercentages amount existing resolved) id with
    | none => rfl
    | some percentage =>
      have hmem := mem_of_recomputed
        (List.mem_map_of_mem (f := Prod.fst) (Dict.mem_of_get? hget))
      exact absurd hid ((mem_unlisted.mp hmem).1 r hr)
  unfold cascadeShare Share.resolve
  cases hrow : resolved.find? fun r => r.id = id with
  | none =>
    refine .inr (.inr ⟨fun r hr => ?_, rfl⟩)
    simpa using List.find?_eq_none.mp hrow r hr
  | some r =>
    have hr := List.mem_of_find?_eq_some hrow
    have hid : r.id = id := by simpa using List.find?_some hrow
    dsimp only
    rw [hrecompute _ ⟨r, hr, hid⟩, ite_self]
    cases hchanged : r.changed with
    | true => exact .inl ⟨r, hr, hid, hchanged, rfl⟩
    | false => exact .inr (.inl ⟨r, hr, hid, hchanged, rfl⟩)

end Cascade

section Resolve

variable {pending : List Nat} {t : Tables} {a : Application} {amount : ℚ}
  {usage : List BudgetUsage} {rows : List APIKeyAllocationRow} {resolved : List ResolvedRow}
  {changed : Bool} (h : KeyCeiling pending t)
  (hnonneg : 0 ≤ amount) (hpositive : ∀ row ∈ rows, checkPositive amount row = .ok ())
  (hres : Resolution amount (keyRows usage (active (t.keysOf a.id))) (rows.map (·.explicit))
    resolved)

include hpositive hres in
/-- The rows of a resolution are written within the drift. -/
theorem resolved_converted {r : ResolvedRow} (hr : r ∈ resolved) :
    0 < amount ∧ 0 ≤ r.amount ∧ 0 ≤ r.percentage ∧
      Drifts amount ⟨some r.percentage, some r.amount⟩ := by
  obtain ⟨e, he, hconvert⟩ := (hres.rows r hr).converted
  obtain ⟨row, hrow, rfl⟩ := List.mem_map.mp (explicitById_entry he).1
  have hpos := (checkPositive_ok (hpositive row hrow)).1
  obtain ⟨hamount, hpercentage⟩ := convert_nonneg (le_of_lt hpos) hconvert
  exact ⟨hpos, hamount, hpercentage, convert_drifts hpos hconvert⟩

include h in
theorem unlisted_nodup : ((unlisted (active (t.keysOf a.id)) resolved).map Prod.fst).Nodup := by
  unfold unlisted
  rw [List.map_map]
  have hnodup := keyRows_nodup h.keyIds [] a.id
  rw [keyRows_ids] at hnodup
  exact hnodup.sublist (List.filter_sublist.map _)

include h in
theorem unlisted_nonneg : ∀ e ∈ unlisted (active (t.keysOf a.id)) resolved, 0 ≤ e.2.amount := by
  intro e he
  obtain ⟨k, hk, rfl⟩ := List.mem_map.mp he
  exact h.keyNonneg k (mem_active_keysOf.mp (List.mem_filter.mp hk).1).1

theorem mem_unlisted_of_key {k : APIKey} (hk : k ∈ active (t.keysOf a.id))
    (hnot : ∀ r ∈ resolved, r.id ≠ k.id) :
    (k.id, k.toShare) ∈ unlisted (active (t.keysOf a.id)) resolved := by
  refine List.mem_map.mpr ⟨k, List.mem_filter.mpr ⟨hk, ?_⟩, rfl⟩
  simp only [Bool.not_eq_true', List.any_eq_false, decide_eq_true_eq]
  exact hnot

include h hnonneg hpositive hres in
theorem cascadeShare_almostNonneg {k : APIKey} (hk : k ∈ active (t.keysOf a.id)) :
    (cascadeShare amount (active (t.keysOf a.id)) resolved changed k.id
      k.toShare).AlmostNonneg := by
  have hkt := (mem_active_keysOf.mp hk).1
  obtain ⟨r, hr, -, -, hshare⟩ | ⟨r, -, -, -, hshare⟩ | ⟨hnot, hshare⟩ :=
    cascadeShare_cases (active (t.keysOf a.id)) changed k.id k.toShare
  · rw [hshare]
    intro p hp
    have hpct := (resolved_converted hpositive hres hr).2.2.1
    rw [← Option.some.inj hp]
    linarith
  · rw [hshare]
    exact h.percentages k hkt
  · rw [hshare]
    split
    · exact recompute_almostNonneg (e := (k.id, k.toShare)) hnonneg (unlisted_nodup h)
        (unlisted_nonneg h) (mem_unlisted_of_key hk hnot) (h.percentages k hkt)
    · exact h.percentages k hkt

include h hpositive hres in
/-- After the cascade the keys of the Application drift from its new budget, when a resize
leaves no listed key as it was and the old budget was not pending otherwise. -/
theorem cascadeShare_drifts (ha : a ∈ t.applications) (hbudget : a.allocatedBudget = some amount)
    (hfresh : changed = true → ∀ r ∈ resolved, r.changed = true)
    (hold : changed = false → a.id ∉ pending) (hpos : 0 < amount) {k : APIKey}
    (hk : k ∈ active (t.keysOf a.id)) :
    Drifts amount
      (cascadeShare amount (active (t.keysOf a.id)) resolved changed k.id k.toShare) := by
  have hkt := (mem_active_keysOf.mp hk).1
  obtain ⟨r, hr, -, -, hshare⟩ | ⟨r, hr, -, hunchanged, hshare⟩ | ⟨hnot, hshare⟩ :=
    cascadeShare_cases (active (t.keysOf a.id)) changed k.id k.toShare
  · rw [hshare]
    exact (resolved_converted hpositive hres hr).2.2.2
  · rw [hshare]
    cases changed with
    | true =>
      rw [hfresh rfl r hr] at hunchanged
      cases hunchanged
    | false => exact h.drifts a ha (hold rfl) amount hbudget hpos k hk
  · rw [hshare]
    cases changed with
    | true =>
      rw [if_pos rfl]
      exact recompute_drifts (e := (k.id, k.toShare)) hpos (unlisted_nodup h) (unlisted_nonneg h)
        (mem_unlisted_of_key hk hnot) (h.percentages k hkt)
    | false => exact h.drifts a ha (hold rfl) amount hbudget hpos k hk

include h hres in
/-- The amount of a key after the cascade is the one the resolution gave it. -/
theorem cascadeShare_amount {k : APIKey} (hk : k ∈ active (t.keysOf a.id)) :
    (cascadeShare amount (active (t.keysOf a.id)) resolved changed k.id k.toShare).amount =
      newAmount resolved ⟨k.id, k.amount, (usageOf usage k.id).1⟩ := by
  have hresolve : (k.toShare.resolve resolved k.id).amount =
      newAmount resolved ⟨k.id, k.amount, (usageOf usage k.id).1⟩ :=
    resolve_amount hres (keyRows_nodup h.keyIds usage a.id) (List.mem_map.mpr ⟨k, hk, rfl⟩) rfl
  unfold cascadeShare
  split
  · rw [recompute_amount]
    exact hresolve
  · exact hresolve

include h hres in
theorem keyTotal_cascaded :
    keyTotal (cascaded t a.id amount resolved changed) a.id =
      ((keyRows usage (active (t.keysOf a.id))).map (newAmount resolved)).sum := by
  unfold keyTotal cascaded keyRows
  rw [mapKeys_keysOf, active_map, List.map_map, List.map_map]
  exact congrArg List.sum (List.map_congr_left fun k hk => cascadeShare_amount h hres hk)

include h hres in
/-- A key that is written keeps its amount from going below zero. -/
theorem cascadeShare_nonneg (hparent : 0 ≤ amount) {k : APIKey} (hk : k ∈ t.keys) :
    0 ≤ (cascadeShare amount (active (t.keysOf a.id)) resolved changed k.id k.toShare).amount := by
  have hresolve : 0 ≤ (k.toShare.resolve resolved k.id).amount := by
    refine resolve_nonneg hparent (fun e he => ?_) hres (h.keyNonneg k hk)
    obtain ⟨row, -, rfl⟩ := List.mem_map.mp he
    exact ⟨_, _, rfl⟩
  unfold cascadeShare
  split
  · rw [recompute_amount]
    exact hresolve
  · exact hresolve

include h hpositive hres in
/-- Resolving the keys of an Application with the budget `amount` takes it off the list. -/
theorem KeyCeiling.cascade (ha : a ∈ t.applications) (hbudget : a.allocatedBudget = some amount)
    (hfresh : changed = true → ∀ r ∈ resolved, r.changed = true)
    (hold : changed = false → a.id ∉ pending) :
    KeyCeiling (pending.filter fun id => id ≠ a.id) (cascaded t a.id amount resolved changed) := by
  have hamount : 0 ≤ amount := budget_nonneg h ha hbudget
  have hother : ∀ b ∈ t.applications, b.id ∉ pending.filter (fun id => id ≠ a.id) →
      b.id ≠ a.id → b.id ∉ pending := by
    intro b _ hout hne hmem
    exact hout (List.mem_filter.mpr ⟨hmem, by simpa using hne⟩)
  constructor
  · exact h.applicationIds
  · rw [cascaded, mapKeys_ids]
    exact h.keyIds
  · intro k hk
    obtain ⟨b, hb, rfl⟩ := List.mem_map.mp hk
    exact h.homes b hb
  · exact h.tenantNonneg
  · exact h.applicationNonneg
  · intro k hk
    obtain ⟨b, hb, rfl⟩ := List.mem_map.mp hk
    exact cascadeShare_nonneg h hres hamount hb
  · intro k hk
    obtain ⟨b, hb, rfl⟩ := List.mem_map.mp hk
    by_cases hmine : b ∈ active (t.keysOf a.id)
    · exact cascadeShare_almostNonneg h hamount hpositive hres hmine
    · have hkeep := cascadeShare_of_other hres h.keyIds changed hb (by
        rw [mem_active_keysOf] at hmine
        by_cases happ : b.applicationId = a.id
        · exact .inr (Bool.eq_false_iff.mpr fun hactive => hmine ⟨hb, happ, hactive⟩)
        · exact .inl happ)
      show (cascadeShare _ _ _ _ b.id b.toShare).AlmostNonneg
      rw [hkeep]
      exact h.percentages b hb
  · intro b hb hout budget hbb hpos k hk
    by_cases hba : b.id = a.id
    · obtain rfl := List.inj_on_of_nodup_map h.applicationIds hb ha hba
      obtain rfl := Option.some.inj (hbudget.symm.trans hbb)
      rw [cascaded, mapKeys_keysOf, active_map] at hk
      obtain ⟨c, hc, rfl⟩ := List.mem_map.mp hk
      exact cascadeShare_drifts h hpositive hres ha hbudget hfresh hold hpos hc
    · rw [cascaded_keysOf_of_ne hres h.keyIds changed hba] at hk
      exact h.drifts b hb (hother b hb hout hba) budget hbb hpos k hk
  · intro b hb hout budget hbb
    by_cases hba : b.id = a.id
    · obtain rfl := List.inj_on_of_nodup_map h.applicationIds hb ha hba
      obtain rfl := Option.some.inj (hbudget.symm.trans hbb)
      rw [keyTotal_cascaded h hres, cascaded, mapKeys_keysOf, List.length_map]
      have htotal := hres.total
      have hlen : (keyRows usage (active (t.keysOf b.id))).length ≤ (t.keysOf b.id).length := by
        rw [keyRows, List.length_map]
        exact List.length_filter_le _ _
      have hcents : ((keyRows usage (active (t.keysOf b.id))).length : ℚ) ≤
          (t.keysOf b.id).length := by exact_mod_cast hlen
      have hslack : ((t.keysOf b.id).length : ℚ) * amtQuant ≤
          (t.keysOf b.id).length * slack amount := by
        refine mul_le_mul_of_nonneg_left ?_ (Nat.cast_nonneg _)
        unfold amtQuant slack
        linarith
      have hquant : amtQuant * ((keyRows usage (active (t.keysOf b.id))).length : ℚ) ≤
          amtQuant * (t.keysOf b.id).length :=
        mul_le_mul_of_nonneg_left hcents (by norm_num [amtQuant])
      linarith
    · rw [keyTotal, cascaded_keysOf_of_ne hres h.keyIds changed hba]
      exact h.ceiling b hb (hother b hb hout hba) budget hbb

end Resolve

/-! ## The endpoint that resizes Applications -/

/-- The write that is left out: the request resizes an Application and lists one of its keys
with the amount that key already has. -/
def Refreshes (w : World) : Action → Prop
  | .revise (.tenantApplications tenantId rows) _ =>
    ∀ tenant budget, w.1.tenant tenantId = some tenant → tenant.allocatedBudget = some budget →
      ∀ e ∈ requestRowById rows, ∀ c,
        convert (explicitInput e.1 e.2.allocation) budget = .ok c →
        ∀ app, w.1.application e.1 = some app → c.1 ≠ app.amount →
          ∀ x ∈ keyCeilings c.1 e.2.apiKeys, ∀ k, w.1.key x.1 = some k → x.2 ≠ k.amount
  | _ => True

/-- The Applications whose amount a resolution changed. -/
def resized (resolved : List ResolvedRow) : List Nat := (resolved.filter (·.changed)).map (·.id)

theorem mem_resized {resolved : List ResolvedRow} {r : ResolvedRow} (hr : r ∈ resolved)
    (hchanged : r.changed = true) : r.id ∈ resized resolved :=
  List.mem_map_of_mem (f := (·.id)) (List.mem_filter.mpr ⟨hr, hchanged⟩)

theorem resized_subset {resolved : List ResolvedRow} {id : Nat} (h : id ∈ resized resolved) :
    id ∈ resolved.map (·.id) := by
  obtain ⟨r, hr, rfl⟩ := List.mem_map.mp h
  exact List.mem_map_of_mem (f := (·.id)) (List.mem_filter.mp hr).1

theorem mem_resized_cons {r : ResolvedRow} {l : List ResolvedRow} {id : Nat}
    (h : id ∈ resized (r :: l)) : (id = r.id ∧ r.changed = true) ∨ id ∈ resized l := by
  obtain ⟨r', hr', rfl⟩ := List.mem_map.mp h
  obtain ⟨hr', hchanged⟩ := List.mem_filter.mp hr'
  obtain rfl | hr' := List.mem_cons.mp hr'
  · exact .inl ⟨rfl, hchanged⟩
  · exact .inr (mem_resized hr' hchanged)

/-- Writing the Applications leaves the resized ones pending. -/
theorem KeyCeiling.resize {t : Tables} (h : KeyCeiling [] t) {parent : ℚ} (hparent : 0 ≤ parent)
    {children : List AllocationRow} {rows : List ApplicationAllocationRow}
    {resolved : List ResolvedRow}
    (hres : Resolution parent children
      (rows.map fun row => explicitInput row.applicationId row.allocation) resolved) :
    KeyCeiling (resized resolved)
      (t.mapApplications fun id share => share.resolve resolved id) := by
  refine h.mapApplications (fun a => rfl) (fun a ha => ?_) fun a _ hout => ⟨List.not_mem_nil, .inl ?_⟩
  · refine resolve_nonneg hparent (fun e he => ?_) hres (h.applicationNonneg a ha)
    obtain ⟨row, -, rfl⟩ := List.mem_map.mp he
    exact ⟨_, _, rfl⟩
  · show (a.toShare.resolve resolved a.id).allocatedBudget = _
    unfold Share.resolve
    cases hrow : resolved.find? fun r => r.id = a.id with
    | none => rfl
    | some r =>
      have hid : r.id = a.id := by simpa using List.find?_some hrow
      dsimp only
      split
      · rename_i hchanged
        exact absurd (hid ▸ mem_resized (List.mem_of_find?_eq_some hrow) hchanged) hout
      · rfl

section Loop

variable {s s' : Session Tables Outside} {rows : List ApplicationAllocationRow}
  {usage : List BudgetUsage}

/-- What the loop knows of a row it still has to look at. -/
structure Outstanding (rows : List ApplicationAllocationRow) (t : Tables) (r : ResolvedRow) :
    Prop where
  application : ∃ a ∈ t.applications, a.id = r.id ∧ a.amount = r.amount ∧
    (r.changed = true → a.allocatedBudget = some r.amount)
  refreshed : r.changed = true → ∀ x ∈ keyCeilings r.amount (nestedApiKeys rows r.id),
    ∀ k ∈ active (t.keysOf r.id), k.id = x.1 → x.2 ≠ k.amount

/-- An Application that is cascaded into has its amount as a budget: it was written, or there
is a nested row, which asks for a positive amount. -/
theorem budget_of_cascaded {share : Share} {amount : ℚ} {changed : Bool}
    {nested : List APIKeyAllocationRow} (hamount : share.amount = amount)
    (hresized : changed = true → share.allocatedBudget = some amount)
    (hcascade : (changed || !nested.isEmpty) = true)
    (hpositive : ∀ row ∈ nested, checkPositive amount row = .ok ()) :
    share.allocatedBudget = some amount := by
  cases hchanged : changed with
  | true => exact hresized hchanged
  | false =>
    rw [hchanged, Bool.false_or, Bool.not_eq_true', List.isEmpty_eq_false_iff_exists_mem]
      at hcascade
    obtain ⟨row, hrow⟩ := hcascade
    have hpos := (checkPositive_ok (hpositive row hrow)).1
    rw [Share.amount] at hamount
    cases hsome : share.allocatedBudget with
    | none =>
      rw [hsome] at hamount
      exact absurd hamount hpos.ne
    | some budget =>
      rw [hsome] at hamount
      exact congrArg some hamount

/-- One round takes its row off the list and leaves the other rows outstanding. -/
theorem cascadeResolved_accepted {r : ResolvedRow} {l : List ResolvedRow}
    (hids : ((r :: l).map (·.id)).Nodup) (hs : KeyCeiling (resized (r :: l)) s.staged)
    (hrow : Outstanding rows s.staged r) (hrest : ∀ r' ∈ l, Outstanding rows s.staged r')
    {snapshots out : Dict Nat ℚ}
    (h : cascadeResolved rows usage snapshots r s = (.ok out, s')) :
    s'.committed = s.committed ∧ KeyCeiling (resized l) s'.staged ∧
      ∀ r' ∈ l, Outstanding rows s'.staged r' := by
  rw [List.map_cons, List.nodup_cons] at hids
  unfold cascadeResolved at h
  split at h
  · rename_i hcascade
    obtain ⟨writes, m, hm, h⟩ := bind_accepted h
    obtain ⟨-, rfl⟩ := pure_accepted h
    obtain ⟨resolved, hpositive, hresolve, -, rfl⟩ := cascadeIntoKeys_accepted hm
    obtain ⟨a, ha, haid, hamount, hresized⟩ := hrow.application
    have hrefreshed := hrow.refreshed
    rw [← haid] at hresolve hpositive hrefreshed hcascade
    have hres := resolveLevel_ok (keyRows_nodup hs.keyIds usage a.id) hresolve
    have hbudget : a.allocatedBudget = some r.amount :=
      budget_of_cascaded hamount hresized hcascade hpositive
    have hdone := hs.cascade hpositive hres ha hbudget
      (fun (hchanged : r.changed = true) r' hr' => ?_) fun hunchanged hmem => ?_
    · refine ⟨rfl, ?_, fun r' hr' => ?_⟩
      · rw [← haid]
        refine hdone.mono fun id hid => ?_
        obtain ⟨hmem, hne⟩ := List.mem_filter.mp hid
        obtain ⟨rfl, -⟩ | hrest := mem_resized_cons hmem
        · exact absurd haid.symm (by simpa using hne)
        · exact hrest
      · have hold := hrest r' hr'
        have hne : r'.id ≠ a.id := fun heq =>
          hids.1 (haid ▸ heq ▸ List.mem_map_of_mem (f := (·.id)) hr')
        refine ⟨hold.application, fun hchanged x hx k hk => ?_⟩
        rw [← haid, cascaded_keysOf_of_ne hres hs.keyIds r.changed hne] at hk
        exact hold.refreshed hchanged x hx k hk
    · obtain ⟨e, he, hconvert⟩ := (hres.rows r' hr').converted
      obtain ⟨k, hk, hkid, hmoved⟩ := resolved_key hres hr'
      exact hmoved.mpr (hrefreshed hchanged (r'.id, r'.amount)
        (mem_keyCeilings.mpr ⟨e, _, he, hconvert⟩) k hk hkid)
    · obtain ⟨-, hchanged⟩ | hrest := mem_resized_cons hmem
      · rw [hunchanged] at hchanged
        cases hchanged
      · exact hids.1 (haid ▸ resized_subset hrest)
  · rename_i hskip
    obtain ⟨-, rfl⟩ := pure_accepted h
    rw [Bool.or_eq_true, not_or] at hskip
    refine ⟨rfl, ?_, hrest⟩
    unfold resized at hs
    rwa [List.filter_cons_of_neg hskip.1] at hs

/-- Phase 2: after the loop nothing is pending. -/
theorem cascadeResolved_foldlM {l : List ResolvedRow} (hids : (l.map (·.id)).Nodup)
    (hs : KeyCeiling (resized l) s.staged) (hrows : ∀ r ∈ l, Outstanding rows s.staged r)
    {snapshots out : Dict Nat ℚ}
    (h : l.foldlM (cascadeResolved rows usage) snapshots s = (.ok out, s')) :
    s'.committed = s.committed ∧ KeyCeiling [] s'.staged := by
  induction l generalizing s snapshots with
  | nil =>
    obtain ⟨-, rfl⟩ := pure_accepted h
    exact ⟨rfl, hs⟩
  | cons r l ih =>
    rw [List.foldlM_cons] at h
    obtain ⟨snapshots', m, hm, h⟩ := bind_accepted h
    obtain ⟨hcommitted, hnext, houtstanding⟩ := cascadeResolved_accepted hids hs
      (hrows r List.mem_cons_self) (fun r' hr' => hrows r' (List.mem_cons_of_mem r hr')) hm
    obtain ⟨hcommitted', hdone⟩ := ih (List.nodup_cons.mp hids).2 hnext houtstanding h
    exact ⟨hcommitted'.trans hcommitted, hdone⟩

/-- A row of `resolved`, with the Application as the first phase left it. -/
theorem outstanding_resolved {t : Tables} {outside : Outside} {tenantId : Nat} {tenant : Tenant}
    {parent : ℚ} {db : Option Connection} (h : KeyCeiling [] t)
    (hguard : Refreshes (t, outside) (.revise (.tenantApplications tenantId rows) db))
    (htenant : t.tenant tenantId = some tenant) (hparent : tenant.allocatedBudget = some parent)
    {resolved : List ResolvedRow}
    (hres : Resolution parent
      (applicationRows t usage (activeApplications (t.applicationsOf tenantId)))
      (rows.map fun row => explicitInput row.applicationId row.allocation) resolved)
    {r : ResolvedRow} (hr : r ∈ resolved) :
    Outstanding rows (t.mapApplications fun id share => share.resolve resolved id) r := by
  obtain ⟨c, hc, hcid, hchanged⟩ := (hres.rows r hr).child
  obtain ⟨a, ha, rfl⟩ := List.mem_map.mp hc
  have hat := (mem_applicationsOf.mp ha).1
  have hfind : (resolved.find? fun r' => r'.id = a.id) = some r := rowOf_of_mem hres.ids hr hcid.symm
  constructor
  · refine ⟨_, List.mem_map_of_mem hat, hcid, ?_, fun hyes => ?_⟩
    · show (a.toShare.resolve resolved a.id).amount = r.amount
      rw [resolve_amount hres (applicationRows_nodup h.applicationIds usage tenantId) hc rfl,
        newAmount, rowOf, hfind]
      rfl
    · show (a.toShare.resolve resolved a.id).allocatedBudget = some r.amount
      unfold Share.resolve
      rw [hfind]
      dsimp only
      rw [if_pos hyes]
  · intro hyes x hx k hk hkid
    obtain ⟨e, he, hconvert⟩ := (hres.rows r hr).converted
    rw [explicitById_rows] at he
    obtain ⟨⟨id, row⟩, hrow, hpair⟩ := List.mem_map.mp he
    obtain ⟨rfl, rfl⟩ := Prod.mk.inj hpair
    have hnested : nestedApiKeys rows r.id = row.apiKeys := by
      unfold nestedApiKeys
      rw [Dict.get?_of_mem (requestRowById_nodup rows) hrow]
      rfl
    rw [hnested] at hx
    obtain ⟨hkt, -, -⟩ := mem_active_keysOf.mp hk
    refine hguard tenant parent htenant hparent (r.id, row) hrow (r.amount, r.percentage) hconvert
      a ?_ (hchanged.mp hyes) x hx k (hkid ▸ Table.get_of_mem h.keyIds hkt)
    exact hcid ▸ Table.get_of_mem h.applicationIds hat

theorem ceiling_tenantApplicationAllocations {t : Tables} {outside : Outside} {tenantId : Nat}
    {db : Option Connection} (h : KeyCeiling [] t)
    (hguard : Refreshes (t, outside) (.revise (.tenantApplications tenantId rows) db))
    {out : Dict Nat ℚ × List BudgetUsage}
    (hrun : stageTenantApplicationAllocations tenantId rows db ⟨t, t, outside⟩ = (.ok out, s')) :
    Holds (KeyCeiling []) s' := by
  unfold stageTenantApplicationAllocations at hrun
  rw [read_bind] at hrun
  obtain ⟨tenant, htenant, hrun⟩ := check_bind hrun
  obtain ⟨parent, hparent, hrun⟩ := check_bind hrun
  obtain ⟨_, -, hrun⟩ := check_bind hrun
  obtain ⟨_, -, hrun⟩ := check_bind hrun
  obtain ⟨usage, m, hm, hrun⟩ := bind_accepted hrun
  obtain rfl := fetchBudgetUsage_accepted hm
  obtain ⟨resolved, m', hm', hrun⟩ := bind_accepted hrun
  obtain ⟨hresolve, rfl⟩ := resolveAndPersistApplications_accepted hm'
  obtain ⟨snapshots, m, hm, hrun⟩ := bind_accepted hrun
  obtain ⟨-, rfl⟩ := pure_accepted hrun
  replace htenant := orRaise_ok htenant
  replace hparent := orRaise_ok hparent
  have hnonneg : 0 ≤ parent := by
    have := h.tenantNonneg tenant (Table.mem_of_get htenant)
    rwa [hparent] at this
  have hres := resolveLevel_ok (applicationRows_nodup h.applicationIds usage tenantId) hresolve
  obtain ⟨hcommitted, hdone⟩ := cascadeResolved_foldlM hres.ids (h.resize hnonneg hres)
    (fun r hr => outstanding_resolved h hguard htenant hparent hres hr) hm
  exact ⟨hcommitted ▸ h, hdone⟩

end Loop

/-! ## Editing the keys of an Application -/

section Edits

variable {s s' : Session Tables Outside}

/-- The two key endpoints resolve against the budget the Application has. -/
theorem ceiling_keyAllocations {applicationId : Nat} {a : Application} {budget : ℚ}
    {rows : List APIKeyAllocationRow} {db : Option Connection} (hs : Holds (KeyCeiling []) s)
    (ha : s.staged.application applicationId = some a) (hbudget : a.allocatedBudget = some budget)
    {out : Dict Nat ℚ × List BudgetUsage}
    (h : stageKeyAllocations applicationId budget rows db s = (.ok out, s')) :
    Holds (KeyCeiling []) s' := by
  obtain ⟨usage, resolved, hpositive, hresolve, rfl⟩ := stageKeyAllocations_accepted h
  obtain rfl : a.id = applicationId := Table.key_of_get ha
  have hres := resolveLevel_ok (keyRows_nodup hs.2.keyIds usage a.id) hresolve
  refine ⟨hs.1, ?_⟩
  exact hs.2.cascade hpositive hres (Table.mem_of_get ha) hbudget
    (fun hfalse : false = true => absurd hfalse Bool.false_ne_true) fun _ => List.not_mem_nil

theorem ceiling_applicationKeyAllocations {applicationId bodyApplicationId : Nat}
    {allocation : AllocationValue} {apiKeys : List APIKeyAllocationRow} {db : Option Connection} :
    Keeps (KeyCeiling [])
      (stageApplicationKeyAllocations applicationId bodyApplicationId allocation apiKeys db) := by
  intro s out s' hs h
  obtain ⟨a, budget, ha, hbudget, h⟩ := stageApplicationKeyAllocations_accepted h
  exact ceiling_keyAllocations hs ha hbudget h

theorem ceiling_singleApiKeyAllocation {keyId bodyKeyId : Nat} {allocation : AllocationValue}
    {db : Option Connection} :
    Keeps (KeyCeiling []) (stageSingleApiKeyAllocation keyId bodyKeyId allocation db) := by
  intro s out s' hs h
  obtain ⟨key, a, budget, -, -, ha, hbudget, h⟩ := stageSingleApiKeyAllocation_accepted h
  exact ceiling_keyAllocations hs ha hbudget h

/-- The tenant's revision writes percentages of Applications, and the tenant's budget. -/
theorem ceiling_tenantBudget {tenantId : Nat} {topUp : Option TopUp} {db : Option Connection} :
    Keeps (KeyCeiling []) (stageTenantBudget tenantId topUp db) := by
  intro s budget s' hs h
  unfold stageTenantBudget at h
  rw [read_bind] at h
  obtain ⟨tenant, htenant, h⟩ := check_bind h
  obtain ⟨newBudget, hnew, h⟩ := check_bind h
  obtain ⟨_, m, hm, h⟩ := bind_accepted h
  rw [stage_bind] at h
  obtain ⟨-, rfl⟩ := pure_accepted h
  have hnonneg := revisedBudget_nonneg
    (hs.2.tenantNonneg tenant (Table.mem_of_get (orRaise_ok htenant))) hnew
  have hcascade : Holds (KeyCeiling []) m := by
    refine (?_ : Keeps (KeyCeiling []) (cascadeTenantBudgetRevision tenantId newBudget db)) s _ m hs hm
    unfold cascadeTenantBudgetRevision
    refine keeps_bind (keeps_read _) fun t => ?_
    dsimp only
    split
    · exact keeps_pure _
    · refine keeps_bind (keeps_fetchBudgetUsage _ _) fun usage => ?_
      refine keeps_bind (keeps_check _) fun _ => keeps_stage fun t ht => ?_
      refine ht.mapApplications (fun _ => rfl) (fun a ha => ?_) fun a _ hout => ⟨hout, .inl ?_⟩
      · show 0 ≤ (a.toShare.recompute _ a.id).amount
        rw [recompute_amount]
        exact ht.applicationNonneg a ha
      · exact recompute_budget _ a.id a.toShare
  exact ⟨hcascade.1, hcascade.2.setBudget hnonneg⟩

theorem ceiling_updateApplication {tenantId applicationId : Nat}
    {status : Option ApplicationStatus} :
    Keeps (KeyCeiling []) (stageUpdateApplication tenantId applicationId status) := by
  unfold stageUpdateApplication
  refine keeps_bind (keeps_read _) fun t => keeps_bind (keeps_check _) fun app => ?_
  refine keeps_bind (keeps_check _) fun _ => ?_
  -- an Application that is left alone keeps its budget
  have hmodify : ∀ {t : Tables} {f : Application → Application}, KeyCeiling [] t →
      (∀ a, (f a).id = a.id) →
      (∀ a, (f a).allocatedBudget = a.allocatedBudget ∨ (f a).allocatedBudget = none) →
      KeyCeiling [] (t.modifyApplication applicationId f) := by
    intro t f ht hid hbudget
    refine ht.mapApplications (fun a => ?_) (fun a ha => ?_) fun a _ hout => ⟨hout, ?_⟩
    · split
      · exact hid a
      · rfl
    · split
      · obtain hsame | hnone := hbudget a
        · rw [Share.amount, hsame]
          exact ht.applicationNonneg a ha
        · rw [Share.amount, hnone]
          exact le_rfl
      · exact ht.applicationNonneg a ha
    · split
      · exact hbudget a
      · exact .inl rfl
  split
  · refine keeps_bind (keeps_stage fun t ht => ?_) fun _ =>
      keeps_bind (keeps_stage fun t ht => hmodify ht (fun _ => rfl) fun _ => .inr rfl) fun _ =>
        keeps_pure _
    refine ht.shrinkKeys (fun k => ?_) (fun k => ?_) (fun k hk => ?_) fun k => ?_
    · unfold zeroAllocation
      split <;> rfl
    · unfold zeroAllocation
      split <;> rfl
    · unfold zeroAllocation at hk
      split at hk <;> exact hk
    · unfold zeroAllocation
      split
      · exact .inr rfl
      · exact .inl rfl
  · exact keeps_bind (keeps_stage fun t ht => hmodify ht (fun _ => rfl) fun _ => .inl rfl) fun _ =>
      keeps_pure _

theorem ceiling_revokeKey {keyId : Nat} : Keeps (KeyCeiling []) (revokeKey keyId) := by
  unfold revokeKey
  refine keeps_bind (keeps_read _) fun _ => keeps_bind (keeps_check _) fun _ => ?_
  refine keeps_bind (keeps_stage fun t ht => ?_) fun _ => keeps_bind keeps_commit fun _ =>
    keeps_effect _
  refine ht.shrinkKeys (fun k => ?_) (fun k => ?_) (fun k hk => ?_) fun k => .inl ?_
  · split <;> rfl
  · split <;> rfl
  · split at hk
    · cases hk
    · exact hk
  · split <;> rfl

end Edits

/-! ## New rows -/

/-- A new Application has no keys yet. -/
theorem KeyCeiling.insertApplication {t : Tables} (h : KeyCeiling [] t) {tenantId : Nat}
    {share : Share} (hnonneg : 0 ≤ share.amount) :
    KeyCeiling [] (t.insertApplication tenantId share) := by
  have hfresh : (t.newApplication tenantId share).id ∉ t.applications.map (·.id) := nextId_fresh _
  have hnone : t.keysOf (t.newApplication tenantId share).id = [] := by
    unfold Tables.keysOf
    rw [List.reverse_eq_nil_iff, List.filter_eq_nil_iff]
    intro k hk hid
    exact hfresh ((of_decide_eq_true hid) ▸ h.homes k hk)
  have happs : ∀ a ∈ (t.insertApplication tenantId share).applications,
      a ∈ t.applications ∨ a = t.newApplication tenantId share := by
    intro a ha
    obtain ha | ha := List.mem_append.mp ha
    · exact .inl ha
    · exact .inr (List.mem_singleton.mp ha)
  constructor
  · exact Table.nodup_append_of_not_mem h.applicationIds hfresh
  · exact h.keyIds
  · intro k hk
    show k.applicationId ∈ (t.applications ++ [t.newApplication tenantId share]).map (·.id)
    rw [List.map_append]
    exact List.mem_append_left _ (h.homes k hk)
  · exact h.tenantNonneg
  · intro a ha
    obtain ha | rfl := happs a ha
    · exact h.applicationNonneg a ha
    · exact hnonneg
  · exact h.keyNonneg
  · exact h.percentages
  · intro a ha hout budget hbudget hpos k hk
    obtain ha | rfl := happs a ha
    · exact h.drifts a ha hout budget hbudget hpos k hk
    · change k ∈ active (t.keysOf _) at hk
      rw [hnone] at hk
      exact absurd hk List.not_mem_nil
  · intro a ha hout budget hbudget
    obtain ha | rfl := happs a ha
    · exact h.ceiling a ha hout budget hbudget
    · have hbnonneg : 0 ≤ budget := by
        change share.allocatedBudget = some budget at hbudget
        rwa [Share.amount, hbudget] at hnonneg
      show ((active (t.keysOf _)).map (·.amount)).sum ≤ budget + ((t.keysOf _).length : ℚ) * _
      rw [hnone]
      show (0 : ℚ) ≤ budget + ((0 : Nat) : ℚ) * slack budget
      rw [Nat.cast_zero, zero_mul, add_zero]
      exact hbnonneg

theorem ceiling_createApplication {tenantId : Nat} {percentage : Option Percentage} :
    Keeps (KeyCeiling []) (createApplication tenantId percentage) := by
  intro s u s' hs h
  unfold createApplication at h
  rw [read_bind] at h
  obtain ⟨tenant, htenant, h⟩ := check_bind h
  obtain ⟨share, hshare, h⟩ := check_bind h
  rw [stage_bind] at h
  obtain ⟨-, rfl⟩ := Prod.mk.inj h
  have hnonneg := (newShare_ok
    (hs.2.tenantNonneg tenant (Table.mem_of_get (orRaise_ok htenant))) hshare).1
  exact ⟨hs.2.insertApplication hnonneg, hs.2.insertApplication hnonneg⟩

/-- The share of a new key: what is stored is at most half a cent above the ceiling that
was checked. -/
theorem newCeiling_ok {budget : ℚ} {percentage amount : Option ℚ} {p ceiling stored : ℚ}
    (h : newCeiling budget percentage amount = .ok (p, ceiling, stored)) :
    0 < budget ∧ 0 ≤ p ∧ 0 ≤ stored ∧ stored ≤ ceiling + 1 / 200 ∧
      Drifts budget ⟨some p, some stored⟩ := by
  unfold newCeiling at h
  split at h
  · cases h
  · cases h
  · rename_i given
    obtain ⟨hgiven, h⟩ := require_bind h
    obtain ⟨hbudget, h⟩ := require_bind h
    obtain ⟨-, h⟩ := require_bind h
    obtain ⟨rfl, rfl, rfl⟩ : _ ∧ _ ∧ _ := by simpa using Except.ok.inj h
    replace hgiven := of_decide_eq_true hgiven
    replace hbudget := of_decide_eq_true hbudget
    have hshare : 0 ≤ given / budget * 100 :=
      mul_nonneg (div_nonneg hgiven.le hbudget.le) (by norm_num)
    refine ⟨hbudget, quantize_nonneg halfUp_nonneg hshare, quantize_nonneg halfUp_nonneg hgiven.le,
      by linarith, ?_⟩
    show quantize halfUp given ≤ quantize halfUp (given / budget * 100) / 100 * budget + _
    have hround := nearest_halfUp.quantize_le given
    have hscaled := mul_le_mul_of_nonneg_right
      (nearest_halfUp.quantize_ge (given / budget * 100)) hbudget.le
    have hcancel : given / budget * 100 * budget = given * 100 := by field_simp
    rw [sub_mul, hcancel] at hscaled
    linarith
  · rename_i given
    obtain ⟨hgiven, h⟩ := require_bind h
    obtain ⟨hbudget, h⟩ := require_bind h
    obtain ⟨hpos, h⟩ := require_bind h
    obtain ⟨rfl, rfl, rfl⟩ : _ ∧ _ ∧ _ := by simpa using Except.ok.inj h
    replace hbudget := of_decide_eq_true hbudget
    have hround := nearest_halfUp.quantize_le (budget * given / 100)
    refine ⟨hbudget, (of_decide_eq_true hgiven).le, (of_decide_eq_true hpos).le, hround, ?_⟩
    show quantize halfUp (budget * given / 100) ≤ given / 100 * budget + _
    linarith

/-- What is committed covers the budgets of the active keys, up to their drift. -/
theorem keyTotal_le_committed {budget : ℚ} (usage : List BudgetUsage) (hbudget : 0 ≤ budget)
    {keys : List APIKey} (hdrifts : ∀ k ∈ active keys, Drifts budget k.toShare) :
    ((active keys).map (·.amount)).sum ≤
      committedTotalForApplication keys budget usage +
        keys.length * (budget / 10000 + 1 / 200) := by
  have hused : ∀ id, 0 ≤ (usageOf usage id).1 := by
    intro id
    unfold usageOf
    split
    · rename_i u _
      exact u.nonneg
    · exact le_rfl
  induction keys with
  | nil => simp [active, committedTotalForApplication]
  | cons k keys ih =>
    have hcommitted : committedTotalForApplication (k :: keys) budget usage =
        (if k.isActive then max (reservation k.toShare budget) (usageOf usage k.id).1
          else (usageOf usage k.id).1) + committedTotalForApplication keys budget usage := rfl
    rw [hcommitted, List.length_cons]
    push_cast
    unfold active at hdrifts ih ⊢
    by_cases hk : k.isActive = true
    · rw [List.filter_cons_of_pos hk] at hdrifts ⊢
      rw [List.map_cons, List.sum_cons, if_pos hk]
      have hrest := ih fun b hb => hdrifts b (List.mem_cons_of_mem k hb)
      have hmine : k.amount ≤ _ := hdrifts k List.mem_cons_self
      have hmax := le_max_left (reservation k.toShare budget) (usageOf usage k.id).1
      linarith
    · rw [List.filter_cons_of_neg hk] at hdrifts ⊢
      rw [if_neg hk]
      have hrest := ih hdrifts
      have := hused k.id
      linarith

/-- A new key is the latest of its Application. -/
theorem keysOf_insertKey (t : Tables) (applicationId : Nat) (share : Share) :
    (t.insertKey applicationId share).keysOf applicationId =
      t.newKey applicationId share :: t.keysOf applicationId := by
  unfold Tables.keysOf Tables.insertKey
  rw [List.filter_append, List.filter_cons_of_pos (by simp [Tables.newKey]), List.filter_nil,
    List.reverse_append]
  rfl

theorem keysOf_insertKey_of_ne (t : Tables) (share : Share) {applicationId id : Nat}
    (hne : id ≠ applicationId) : (t.insertKey applicationId share).keysOf id = t.keysOf id := by
  unfold Tables.keysOf Tables.insertKey
  rw [List.filter_append, List.filter_cons_of_neg (by simp [Tables.newKey, hne.symm]),
    List.filter_nil, List.append_nil]

/-- A new key whose ceiling fits next to what is committed. -/
theorem KeyCeiling.insertKey {t : Tables} (h : KeyCeiling [] t) {a : Application} {budget : ℚ}
    (ha : a ∈ t.applications) (hbudget : a.allocatedBudget = some budget) (hpositive : 0 < budget)
    {usage : List BudgetUsage} {p ceiling stored : ℚ} (hp : 0 ≤ p) (hstored : 0 ≤ stored)
    (hround : stored ≤ ceiling + 1 / 200) (hdrifts : Drifts budget ⟨some p, some stored⟩)
    (hfits : committedTotalForApplication (t.keysOf a.id) budget usage + ceiling ≤ budget) :
    KeyCeiling [] (t.insertKey a.id ⟨some p, some stored⟩) := by
  let new := t.newKey a.id ⟨some p, some stored⟩
  have hkeys : ∀ k ∈ (t.insertKey a.id ⟨some p, some stored⟩).keys, k ∈ t.keys ∨ k = new := by
    intro k hk
    obtain hk | hk := List.mem_append.mp hk
    · exact .inl hk
    · exact .inr (List.mem_singleton.mp hk)
  have hactive : active (new :: t.keysOf a.id) = new :: active (t.keysOf a.id) := rfl
  constructor
  · exact h.applicationIds
  · exact Table.nodup_append_of_not_mem h.keyIds (nextId_fresh _)
  · intro k hk
    obtain hk | rfl := hkeys k hk
    · exact h.homes k hk
    · exact List.mem_map_of_mem (f := (·.id)) ha
  · exact h.tenantNonneg
  · exact h.applicationNonneg
  · intro k hk
    obtain hk | rfl := hkeys k hk
    · exact h.keyNonneg k hk
    · exact hstored
  · intro k hk
    obtain hk | rfl := hkeys k hk
    · exact h.percentages k hk
    · intro q hq
      rw [← Option.some.inj hq]
      linarith
  · intro b hb hout budget' hbudget' hpos k hk
    by_cases hba : b.id = a.id
    · obtain rfl := List.inj_on_of_nodup_map h.applicationIds hb ha hba
      obtain rfl := Option.some.inj (hbudget.symm.trans hbudget')
      rw [keysOf_insertKey, hactive] at hk
      obtain rfl | hk := List.mem_cons.mp hk
      · exact hdrifts
      · exact h.drifts b hb hout budget hbudget hpos k hk
    · rw [keysOf_insertKey_of_ne t _ hba] at hk
      exact h.drifts b hb hout budget' hbudget' hpos k hk
  · intro b hb hout budget' hbudget'
    by_cases hba : b.id = a.id
    · obtain rfl := List.inj_on_of_nodup_map h.applicationIds hb ha hba
      obtain rfl := Option.some.inj (hbudget.symm.trans hbudget')
      have htotal := keyTotal_le_committed usage hpositive.le
        (h.drifts b hb hout budget hbudget hpositive)
      rw [keyTotal, keysOf_insertKey, hactive, List.map_cons, List.sum_cons, List.length_cons]
      have hnew : new.amount = stored := rfl
      have hcount : (0 : ℚ) ≤ (t.keysOf b.id).length := Nat.cast_nonneg _
      rw [hnew]
      push_cast
      unfold slack
      linarith
    · rw [keyTotal, keysOf_insertKey_of_ne t _ hba]
      exact h.ceiling b hb hout budget' hbudget'

theorem ceiling_apiKey {applicationId : Nat} {percentage budget : Option ℚ}
    {db : Option Connection} :
    Keeps (KeyCeiling []) (stageApiKey applicationId percentage budget db) := by
  intro s out s' hs h
  unfold stageApiKey at h
  rw [read_bind] at h
  obtain ⟨a, ha, h⟩ := check_bind h
  obtain ⟨⟨p, ceiling, stored⟩, hceiling, h⟩ := check_bind h
  obtain ⟨_, -, h⟩ := check_bind h
  obtain ⟨usage, m, hm, h⟩ := bind_accepted h
  obtain rfl : s = m := (fetchBudgetUsage_accepted hm).symm
  obtain ⟨_, hfits, h⟩ := check_bind h
  rw [stage_bind] at h
  obtain ⟨-, rfl⟩ := pure_accepted h
  replace ha := orRaise_ok ha
  obtain rfl : a.id = applicationId := Table.key_of_get ha
  obtain ⟨hpositive, hp, hstored, hround, hdrifts⟩ := newCeiling_ok hceiling
  have hbudget : a.allocatedBudget = some (a.allocatedBudget.getD 0) := by
    cases hsome : a.allocatedBudget with
    | none =>
      rw [hsome] at hpositive
      exact absurd hpositive (lt_irrefl _)
    | some b => rfl
  refine ⟨hs.1, ?_⟩
  exact hs.2.insertKey (Table.mem_of_get ha) hbudget hpositive hp hstored hround hdrifts
    (of_decide_eq_true (require_ok hfits))

/-! ## Every run -/

/-- A request that meets the guard keeps the invariant. -/
theorem ceiling_step {w w' : World} {action : Action} (hw : KeyCeiling [] w.1)
    (hguard : Refreshes w action) (hstep : step w action = some w') : KeyCeiling [] w'.1 := by
  obtain ⟨u, hok, rfl⟩ := step_ok hstep
  have hblind := keyCeiling_flagBlind []
  cases action with
  | revise revision db =>
    cases revision with
    | tenantApplications tenantId rows =>
      -- the guard is about the tables the request starts from
      have hrun : (stageTenantApplicationAllocations tenantId rows db >>= fun r =>
          finalize r.1 r.2 db) ⟨w.1, w.1, w.2⟩ =
          (.ok u, ((stageTenantApplicationAllocations tenantId rows db >>= fun r =>
            finalize r.1 r.2 db) ⟨w.1, w.1, w.2⟩).2) := Prod.ext hok rfl
      obtain ⟨out, m, hm, hfinal⟩ := bind_accepted hrun
      exact (keeps_finalize hblind out.1 out.2 db m _ _
        (ceiling_tenantApplicationAllocations hw hguard hm) hfinal).1
    | applicationKeys applicationId bodyApplicationId allocation apiKeys =>
      exact Keeps.call (keeps_bind ceiling_applicationKeyAllocations fun r =>
        keeps_finalize hblind r.1 r.2 db) hok hw
    | singleKey keyId bodyKeyId allocation =>
      exact Keeps.call (keeps_bind ceiling_singleApiKeyAllocation fun r =>
        keeps_finalize hblind r.1 r.2 db) hok hw
    | tenantBudget tenantId topUp =>
      exact Keeps.call (keeps_bind ceiling_tenantBudget fun budget =>
        keeps_afterBudgetRevision hblind tenantId budget db) hok hw
  | createApplication tenantId percentage => exact Keeps.call ceiling_createApplication hok hw
  | updateApplication tenantId applicationId status db =>
    exact Keeps.call (keeps_bind ceiling_updateApplication fun zeroed =>
      keeps_afterUpdateApplication hblind zeroed db) hok hw
  | createApiKey applicationId percentage budget cached db =>
    exact Keeps.call (keeps_bind ceiling_apiKey fun r =>
      keeps_afterApiKey hblind r.1 r.2 cached db) hok hw
  | revokeKey keyId => exact Keeps.call ceiling_revokeKey hok hw
  | bill ledger => exact hw

/-- **The ceiling of an Application.** From tables that meet it, no run of requests that
refresh the keys they list takes the active keys of an Application above its budget and,
for each key it ever had, a cent and a hundredth of a percent of it. -/
theorem key_ceiling_holds {w w' : World} {actions : List Action} (hw : KeyCeiling [] w.1)
    (hrun : Run step w actions w') (hguard : Guarded step Refreshes w actions)
    {applicationId : Nat} {a : Application} {budget : ℚ}
    (ha : w'.1.application applicationId = some a) (hbudget : a.allocatedBudget = some budget) :
    keyTotal w'.1 applicationId ≤
      budget + (w'.1.keysOf applicationId).length * slack budget := by
  have hinv : KeyCeiling [] w'.1 :=
    hrun.guardedInvariant (P := fun w => KeyCeiling [] w.1)
      (fun _ _ _ hm hG hstep => ceiling_step hm hG hstep) hguard hw
  obtain rfl : a.id = applicationId := Table.key_of_get ha
  exact hinv.ceiling a (Table.mem_of_get ha) List.not_mem_nil budget hbudget

/-- An Application with the whole of its tenant's ₹30,000 and no key yet. -/
def funded : World :=
  (⟨[⟨1, some 30000⟩], [⟨⟨some 100, some 30000⟩, 1, 1, .active⟩], []⟩, ⟨[], []⟩)

theorem funded_ceiling : KeyCeiling [] funded.1 := by
  refine ⟨by decide, List.nodup_nil, nofun, by decide +kernel, by decide +kernel, nofun, nofun,
    fun _ _ _ _ _ _ k hk => ?_, fun a ha _ budget hbudget => ?_⟩
  · exact absurd (mem_active_keysOf.mp hk).1 List.not_mem_nil
  · obtain rfl := List.mem_singleton.mp ha
    obtain rfl := Option.some.inj hbudget
    decide +kernel

/-- ₹15,001.49 of ₹30,000 is stored as 50.00%, which leaves 50% for another key. -/
def twoHalves : List Action :=
  [.createApiKey 1 none (some (1500149 / 100)) true none,
   .createApiKey 1 (some 50) none true none]

theorem key_ceiling_holds_two_halves :
    keyTotal (final step funded twoHalves).1 1 ≤
      30000 + ((final step funded twoHalves).1.keysOf 1).length * slack 30000 := by
  have hguard : Guarded step Refreshes funded twoHalves := by
    refine guarded_of_check (g := fun _ a => match a with
      | .revise .. => false
      | _ => true) (fun _ a h => ?_) (by decide +kernel)
    cases a with
    | revise => cases h
    | _ => trivial
  exact key_ceiling_holds funded_ceiling (run_final (by decide +kernel)) hguard
    (show (final step funded twoHalves).1.application 1 =
      some ⟨⟨some 100, some 30000⟩, 1, 1, .active⟩ by decide +kernel) rfl

/-- A cent for each active key is not enough: the two halves add up to ₹30,001.49. -/
theorem active_key_cents_exceeded :
    keyTotal funded.1 1 ≤ 30000 + amtQuant * (active (funded.1.keysOf 1)).length ∧
      Run step funded twoHalves (final step funded twoHalves) ∧
      (final step funded twoHalves).1.application 1 =
        some ⟨⟨some 100, some 30000⟩, 1, 1, .active⟩ ∧
      ¬ keyTotal (final step funded twoHalves).1 1 ≤ 30000 + amtQuant *
        (active ((final step funded twoHalves).1.keysOf 1)).length :=
  ⟨by decide +kernel, run_final (by decide +kernel), by decide +kernel, by decide +kernel⟩

end Ai4iCore.Allocation
