import Ai4iCore.Billing.Usage
import Mathlib

/-!
# The quota a span is judged against

`apply_pending_quotas` promotes the pending limits of the tiers on the first of the month, and
`deduct_balance_and_update_quota` copies the limit of the tier into `quota_usage` when it inserts
the row of the month. The `ON CONFLICT` branch of the statement leaves the copy as it is.

So the order of the two decides: over every order of the promotion and the spans of a month
(`snapshot_run`), a row is judged by the limit that was in force when the first span of the month
came in, and a later span is judged by the promoted limit exactly when that limit was the same or
no span of the row came before the promotion (`judged_by_promoted_iff`).
-/

namespace Ai4iCore.Billing.QuotaPromotion

/-! ## The two parties -/

/-- The consumer's database, with `pending_monthly_quota` of the rows of `tier_quotas`. -/
structure State where
  db : Db
  pending : String → Nat → Option ℚ

/-- `apply_pending_quotas`. -/
def applyPendingQuotas (s : State) : State where
  db := { s.db with
    tierQuotas := fun tier type =>
      (s.db.tierQuotas tier type).map fun quota => (s.pending tier type).getD quota }
  pending := fun _ _ => none

/-- What `deduct_balance_and_update_quota` is called with for a span. -/
structure Charge where
  tenantId : String
  billingMonth : Int × Int
  units : ℚ
  cost : ℚ
  apiKeyId : Int
  tierId : Option String
  inferenceTypeId : Option Nat

/-- `deduct_balance_and_update_quota` of a span. -/
def billed (db : Db) (c : Charge) : Db × BillingWriteResult :=
  deductBalanceAndUpdateQuota db c.tenantId c.billingMonth c.units c.cost c.apiKeyId c.tierId
    c.inferenceTypeId

/-- The row of `quota_usage` that a span counts in. -/
def Charge.key (c : Charge) : Option QuotaKey :=
  match c.tierId, c.inferenceTypeId with
  | some tier, some type => some ⟨c.tenantId, type, c.billingMonth, tier⟩
  | _, _ => none

inductive Action
  | promote
  | bill (c : Charge)

def step (s : State) : Action → State
  | .promote => applyPendingQuotas s
  | .bill c => { s with db := (billed s.db c).1 }

/-- The state after the actions, in order. -/
def run (s : State) (actions : List Action) : State := actions.foldl step s

/-- `monthly_quota` of the tier and type of a row. -/
def State.quota (s : State) (k : QuotaKey) : Option ℚ := s.db.tierQuotas k.tierId k.inferenceTypeId

/-- `monthly_quota_snap` of a row. -/
def State.snapshot (s : State) (k : QuotaKey) : Option ℚ :=
  (s.db.quotaUsage k).map QuotaUsage.snap

/-- The span was recorded, and found exhausted or not by comparison with `quota`. -/
def JudgedBy (quota : ℚ) (result : BillingWriteResult) : Prop :=
  result.quotaSnap = some quota ∧
    ∃ used, result.quotaUsed = some used ∧ result.quotaExhausted = decide (quota ≤ used)

/-! ## What a step does to a row -/

section Steps

variable {s : State} {c : Charge} {k : QuotaKey}

theorem debit_tables (db : Db) (apiKeyId : Int) (cost : ℚ) :
    (db.debit apiKeyId cost).tierQuotas = db.tierQuotas ∧
      (db.debit apiKeyId cost).quotaUsage = db.quotaUsage := by
  unfold Db.debit
  split
  · exact ⟨rfl, rfl⟩
  · exact ⟨rfl, rfl⟩

theorem upsertQuota_tierQuotas (db : Db) (tenantId : String) (month : Int × Int) (units : ℚ)
    (tierId : Option String) (inferenceTypeId : Option Nat) :
    (db.upsertQuota tenantId month units tierId inferenceTypeId).1.tierQuotas = db.tierQuotas := by
  unfold Db.upsertQuota
  split
  · split
    · rfl
    · rfl
  · rfl

/-- The row that a span leaves, when its tier has a quota of the type. -/
theorem upsertQuota_row (db : Db) {c : Charge} (hkey : c.key = some k) {quota : ℚ}
    (hquota : db.tierQuotas k.tierId k.inferenceTypeId = some quota) :
    ∃ row, db.upsertQuota c.tenantId c.billingMonth c.units c.tierId c.inferenceTypeId =
        ({ db with quotaUsage := Function.update db.quotaUsage k (some row) }, some row) ∧
      row.snap = ((db.quotaUsage k).map QuotaUsage.snap).getD quota := by
  obtain ⟨tenantId, month, units, cost, apiKeyId, tierId, inferenceTypeId⟩ := c
  cases tierId with
  | none => cases hkey
  | some tier =>
    cases inferenceTypeId with
    | none => cases hkey
    | some type =>
      obtain rfl := Option.some.inj hkey
      unfold Db.upsertQuota
      dsimp only at hquota ⊢
      rw [hquota]
      refine ⟨_, rfl, ?_⟩
      cases db.quotaUsage ⟨tenantId, type, month, tier⟩ with
      | none => rfl
      | some row => rfl

/-- A span without a quota leaves the rows alone. -/
theorem upsertQuota_none (db : Db) {c : Charge} (hkey : c.key = some k)
    (hquota : db.tierQuotas k.tierId k.inferenceTypeId = none) :
    db.upsertQuota c.tenantId c.billingMonth c.units c.tierId c.inferenceTypeId = (db, none) := by
  obtain ⟨tenantId, month, units, cost, apiKeyId, tierId, inferenceTypeId⟩ := c
  cases tierId with
  | none => cases hkey
  | some tier =>
    cases inferenceTypeId with
    | none => cases hkey
    | some type =>
      obtain rfl := Option.some.inj hkey
      unfold Db.upsertQuota
      dsimp only at hquota ⊢
      rw [hquota]

theorem upsertQuota_keyless (db : Db) {c : Charge} (hkey : c.key = none) :
    db.upsertQuota c.tenantId c.billingMonth c.units c.tierId c.inferenceTypeId = (db, none) := by
  obtain ⟨tenantId, month, units, cost, apiKeyId, tierId, inferenceTypeId⟩ := c
  cases tierId with
  | none => rfl
  | some tier =>
    cases inferenceTypeId with
    | none => rfl
    | some type => cases hkey

/-- The statement copies the quota into the row it inserts, and into no other. -/
theorem upsertQuota_snap (db : Db) (c : Charge) (k : QuotaKey) :
    ((db.upsertQuota c.tenantId c.billingMonth c.units c.tierId
        c.inferenceTypeId).1.quotaUsage k).map QuotaUsage.snap =
      ((db.quotaUsage k).map QuotaUsage.snap).or
        (if c.key = some k then db.tierQuotas k.tierId k.inferenceTypeId else none) := by
  cases hkey : c.key with
  | none =>
    rw [upsertQuota_keyless db hkey, if_neg (Option.some_ne_none k ∘ Eq.symm), Option.or_none]
  | some k' =>
    cases hquota : db.tierQuotas k'.tierId k'.inferenceTypeId with
    | none =>
      rw [upsertQuota_none db hkey hquota]
      by_cases hk : k' = k
      · rw [if_pos (congrArg some hk), ← hk, hquota, Option.or_none]
      · rw [if_neg fun h => hk (Option.some.inj h), Option.or_none]
    | some quota =>
      obtain ⟨row, hrow, hsnap⟩ := upsertQuota_row db hkey hquota
      rw [hrow]
      dsimp only
      by_cases hk : k' = k
      · rw [if_pos (congrArg some hk), ← hk, Function.update_self, hquota, Option.map_some, hsnap]
        cases (db.quotaUsage k').map QuotaUsage.snap with
        | none => rfl
        | some snap => rfl
      · rw [Function.update_of_ne (Ne.symm hk), if_neg fun h => hk (Option.some.inj h),
          Option.or_none]

theorem quota_bill (s : State) (c : Charge) (k : QuotaKey) :
    (step s (.bill c)).quota k = s.quota k := by
  show ((s.db.debit c.apiKeyId c.cost).upsertQuota c.tenantId c.billingMonth c.units c.tierId
    c.inferenceTypeId).1.tierQuotas k.tierId k.inferenceTypeId = _
  rw [upsertQuota_tierQuotas, (debit_tables _ _ _).1]
  rfl

theorem snapshot_bill (s : State) (c : Charge) (k : QuotaKey) :
    (step s (.bill c)).snapshot k =
      (s.snapshot k).or (if c.key = some k then s.quota k else none) := by
  show (((s.db.debit c.apiKeyId c.cost).upsertQuota c.tenantId c.billingMonth c.units c.tierId
    c.inferenceTypeId).1.quotaUsage k).map QuotaUsage.snap = _
  rw [upsertQuota_snap, (debit_tables _ _ _).1, (debit_tables _ _ _).2]
  rfl

theorem quota_promote (s : State) (k : QuotaKey) :
    (step s .promote).quota k =
      (s.quota k).map fun quota => (s.pending k.tierId k.inferenceTypeId).getD quota := rfl

theorem snapshot_promote (s : State) (k : QuotaKey) :
    (step s .promote).snapshot k = s.snapshot k := rfl

/-- What a span of a row is judged by: what the row holds, else the quota of the tier. -/
def State.limit (s : State) (k : QuotaKey) : Option ℚ := (s.snapshot k).or (s.quota k)

theorem judgedBy_iff {quota quota' : ℚ} (hkey : c.key = some k) (hquota : s.quota k = some quota) :
    JudgedBy quota' (billed s.db c).2 ↔ s.limit k = some quota' := by
  have htier : (s.db.debit c.apiKeyId c.cost).tierQuotas k.tierId k.inferenceTypeId =
      some quota := by
    rw [(debit_tables _ _ _).1]
    exact hquota
  obtain ⟨row, hrow, hsnap⟩ := upsertQuota_row (s.db.debit c.apiKeyId c.cost) hkey htier
  rw [(debit_tables _ _ _).2] at hsnap
  have hlimit : s.limit k = some row.snap := by
    rw [hsnap, State.limit, hquota, State.snapshot]
    cases (s.db.quotaUsage k).map QuotaUsage.snap with
    | none => rfl
    | some snap => rfl
  unfold JudgedBy billed deductBalanceAndUpdateQuota
  dsimp only
  rw [hrow, hlimit]
  constructor
  · rintro ⟨h, -⟩
    exact h
  · intro h
    obtain rfl := Option.some.inj h
    exact ⟨rfl, row.used, rfl, rfl⟩

end Steps

/-! ## Runs -/

section Runs

variable {s : State} {k : QuotaKey} {quota : ℚ}

theorem limit_bill (s : State) (c : Charge) (k : QuotaKey) :
    (step s (.bill c)).limit k = s.limit k := by
  rw [State.limit, snapshot_bill, quota_bill, Option.or_assoc]
  by_cases hkey : c.key = some k
  · rw [if_pos hkey, Option.or_self]
    rfl
  · rw [if_neg hkey, Option.none_or]
    rfl

/-- Spans change neither the quota nor what is pending, and the row takes the quota with its first
span. -/
theorem snapshot_run (charges : List Charge) (s : State) (k : QuotaKey) :
    (run s (charges.map .bill)).quota k = s.quota k ∧
      (run s (charges.map .bill)).pending = s.pending ∧
      (run s (charges.map .bill)).snapshot k =
        (s.snapshot k).or (if some k ∈ charges.map Charge.key then s.quota k else none) := by
  induction charges generalizing s with
  | nil => exact ⟨rfl, rfl, by simp [run]⟩
  | cons c charges ih =>
    obtain ⟨hquota, hpending, hsnapshot⟩ := ih (step s (.bill c))
    refine ⟨hquota.trans (quota_bill s c k), hpending, hsnapshot.trans ?_⟩
    rw [snapshot_bill, quota_bill, Option.or_assoc, List.map_cons]
    congr 1
    by_cases hkey : c.key = some k
    · rw [if_pos hkey, if_pos (List.mem_cons.mpr (.inl hkey.symm))]
      split
      · exact Option.or_self
      · exact Option.or_none
    · rw [if_neg hkey, Option.none_or]
      by_cases hmem : some k ∈ charges.map Charge.key
      · rw [if_pos hmem, if_pos (List.mem_cons_of_mem _ hmem)]
      · rw [if_neg hmem, if_neg fun h => hmem ((List.mem_cons.mp h).resolve_left (Ne.symm hkey))]

/-- When nothing is pending, nothing changes what a row is judged by. -/
theorem limit_run (actions : List Action) (hpending : s.pending k.tierId k.inferenceTypeId = none) :
    (run s actions).quota k = s.quota k ∧ (run s actions).limit k = s.limit k := by
  induction actions generalizing s with
  | nil => exact ⟨rfl, rfl⟩
  | cons a actions ih =>
    cases a with
    | promote =>
      have hquota : (step s .promote).quota k = s.quota k := by
        rw [quota_promote, hpending]
        exact Option.map_id'
      obtain ⟨hquota', hlimit⟩ := ih (s := step s .promote) rfl
      refine ⟨hquota'.trans hquota, hlimit.trans ?_⟩
      rw [State.limit, hquota, snapshot_promote]
      rfl
    | bill c =>
      obtain ⟨hquota, hlimit⟩ := ih (s := step s (.bill c)) hpending
      exact ⟨hquota.trans (quota_bill s c k), hlimit.trans (limit_bill s c k)⟩

end Runs

/-- **A later span is judged by the promoted quota** exactly when the promotion changes nothing for
its tier and type, or no span of its row came before the promotion: in a month without rows, for
every order of the spans and the promotion, and whatever follows. -/
theorem judged_by_promoted_iff (s : State) (before : List Charge) (after : List Action)
    (c : Charge) (k : QuotaKey) (hkey : c.key = some k) (quota : ℚ)
    (hquota : s.db.tierQuotas k.tierId k.inferenceTypeId = some quota)
    (hfresh : s.db.quotaUsage k = none) :
    (run s (before.map .bill ++ .promote :: after)).quota k =
        some ((s.pending k.tierId k.inferenceTypeId).getD quota) ∧
      (JudgedBy ((s.pending k.tierId k.inferenceTypeId).getD quota)
          (billed (run s (before.map .bill ++ .promote :: after)).db c).2 ↔
        some k ∉ before.map Charge.key ∨
          (s.pending k.tierId k.inferenceTypeId).getD quota = quota) := by
  obtain ⟨hquota₁, hpending, hsnapshot⟩ := snapshot_run before s k
  have hpromoted : (step (run s (before.map .bill)) .promote).quota k =
      some ((s.pending k.tierId k.inferenceTypeId).getD quota) := by
    rw [quota_promote, hquota₁, hpending]
    exact congrArg (Option.map _) hquota
  obtain ⟨hquota₂, hlimit⟩ := limit_run (s := step (run s (before.map .bill)) .promote) (k := k)
    after rfl
  rw [run, List.foldl_append]
  show (run (step (run s (before.map .bill)) .promote) after).quota k = _ ∧
    (JudgedBy _ (billed (run (step (run s (before.map .bill)) .promote) after).db c).2 ↔ _)
  refine ⟨hquota₂.trans hpromoted, (judgedBy_iff hkey (hquota₂.trans hpromoted)).trans ?_⟩
  have hnone : s.snapshot k = none := congrArg (Option.map QuotaUsage.snap) hfresh
  have hstate : s.quota k = some quota := hquota
  rw [hlimit, State.limit, hpromoted, snapshot_promote, hsnapshot, hnone, Option.none_or, hstate]
  by_cases hbilled : some k ∈ before.map Charge.key
  · rw [if_pos hbilled]
    constructor
    · intro h
      exact .inr (Option.some.inj h).symm
    · rintro (h | h)
      · exact absurd hbilled h
      · exact congrArg some h.symm
  · rw [if_neg hbilled]
    exact ⟨fun _ => .inl hbilled, fun _ => rfl⟩

/-- A tier with a limit of 100 units that is to be 200, in a month without rows. -/
def raisedTier : State where
  db :=
    { pricing := fun _ => none
      inferenceTypes := fun _ => none
      tierQuotas := fun _ _ => some 100
      budgetUsage := fun _ => none
      quotaUsage := fun _ => none
      usageEvents := [] }
  pending := fun _ _ => some 200

/-- A span of 60 units of December 2026. -/
def sixtyUnits : Charge := ⟨"7", (2026, 12), 60, 0, 0, some "gold", some 1⟩

theorem judged_by_promoted_iff_raised :
    JudgedBy 200 (billed (run raisedTier ([].map .bill ++ .promote :: [.bill sixtyUnits])).db
      sixtyUnits).2 :=
  (judged_by_promoted_iff raisedTier [] [.bill sixtyUnits] sixtyUnits ⟨"7", 1, (2026, 12), "gold"⟩
    rfl 100 rfl rfl).2.mpr (.inl List.not_mem_nil)

/-- The first span of the month came before the promotion: the next one is found exhausted at 120
units, under the limit of the month before. -/
theorem old_quota_judges :
    (run raisedTier [.bill sixtyUnits, .promote]).quota ⟨"7", 1, (2026, 12), "gold"⟩ = some 200 ∧
      (billed (run raisedTier [.bill sixtyUnits, .promote]).db sixtyUnits).2.quotaUsed = some 120 ∧
      (billed (run raisedTier [.bill sixtyUnits, .promote]).db sixtyUnits).2.quotaSnap = some 100 ∧
      (billed (run raisedTier [.bill sixtyUnits, .promote]).db sixtyUnits).2.quotaExhausted =
        true := by
  refine ⟨rfl, ?_, ?_, ?_⟩
  · decide +kernel
  · decide +kernel
  · decide +kernel

end Ai4iCore.Billing.QuotaPromotion
