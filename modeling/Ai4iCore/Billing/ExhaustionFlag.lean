import Ai4iCore.Billing.Call

/-!
# The exhaustion flag between two services

A key's `budget-exhausted` flag has two writers. An allocation edit (allocation_service.py)
reads the key's usage, commits the new ceiling, copies it into `budget_usage` and then sets
or clears the flag from the figure it read at the start. A billing run (payperuse_consumer)
debits the key, compares the row its own statement returned with the snapshot in it, and
notifies auth-service, which sets the flag. Each of these is one step here, and any number
of edits and billing runs of one key interleave.

The comment of `_sync_key_exhaustion_flags` says the recomputation is safe in both
directions. It is so (`flag_agrees_at_rest`) while a debit during an edit stays on its side of
the new ceiling, and no notice from before is on its way when the edit gives the key headroom
back; `flag_stale_after_edit` is the run in which a debit falls between the two.
-/

namespace Ai4iCore.Billing.Flag

open StepSystem

/-! ## The row of the key -/

/-- `usage_map.get(key_id, (_ZERO, None))[0]`. -/
def usedOf (row : Option BudgetUsage) : ℚ := (row.map BudgetUsage.used).getD 0

/-- The row's usage has reached its snapshot. -/
def exhausted : Option BudgetUsage → Bool
  | some ⟨used, some snap⟩ => snap ≤ used
  | _ => false

/-- `write_budget_snapshot`: the upsert of one key's ceiling; the usage stays as it is and is
0 in a new row. -/
def writeBudgetSnapshot (db : Db) (k : Int) (snap : ℚ) : Db :=
  let row : BudgetUsage := ⟨usedOf (db.budgetUsage k), some snap⟩
  { db with budgetUsage := Function.update db.budgetUsage k (some row) }

theorem exhausted_iff {row : Option BudgetUsage} :
    exhausted row = true ↔ ∃ r snap, row = some r ∧ r.snap = some snap ∧ snap ≤ r.used := by
  rcases row with _ | ⟨used, _ | snap⟩ <;> simp [exhausted]

@[simp] theorem usedOf_writeBudgetSnapshot (db : Db) (k : Int) (snap : ℚ) :
    usedOf ((writeBudgetSnapshot db k snap).budgetUsage k) = usedOf (db.budgetUsage k) := by
  simp [writeBudgetSnapshot, usedOf]

@[simp] theorem exhausted_writeBudgetSnapshot (db : Db) (k : Int) (snap : ℚ) :
    exhausted ((writeBudgetSnapshot db k snap).budgetUsage k) =
      decide (snap ≤ usedOf (db.budgetUsage k)) := by
  simp [writeBudgetSnapshot, exhausted]

/-! ## The system -/

/-- How far an edit has come. -/
inductive Stage
  /-- `_load_keys_and_usage` is done and the new ceiling resolved -/
  | loaded
  /-- the ceiling is committed -/
  | committed
  /-- `write_budget_snapshot` is done -/
  | snapshotted
  deriving DecidableEq, Repr

/-- An allocation edit that changes the key's ceiling. -/
structure Edit where
  ceiling : ℚ
  /-- the usage it has read -/
  used : ℚ
  stage : Stage
  deriving DecidableEq

structure State where
  db : Db
  /-- `api_keys.allocated_budget` -/
  allocated : ℚ
  /-- the key is active, not expired and has a `cached_data` -/
  eligible : Bool
  /-- `budget-exhausted` in `cached_data` -/
  flag : Bool
  edits : List Edit
  /-- the billing runs that have committed and not notified yet -/
  calls : List (BillingContext × BillingOutcome)

inductive Action
  | load (ceiling : ℚ) (readOk : Bool)
  | commit (i : Nat) (ok : Bool)
  | snapshot (i : Nat) (ok : Bool)
  /-- `_sync_key_exhaustion_flags` -/
  | sync (i : Nat) (ok : Bool)
  | bill (ctx : BillingContext) (env : BillEnv)
  /-- `_post_billing`, and `set_budget_exhausted_for_key` behind it -/
  | notify (i : Nat) (ok : Bool)
  /-- the key is revoked, it expires, or it loses its snapshot -/
  | retire
  deriving DecidableEq

/-- A write of the flag. Both writers pass over a key that is not eligible. -/
def State.setFlag (s : State) (value ok : Bool) : State :=
  if ok && s.eligible then { s with flag := value } else s

/-- What `_post_billing` has to say of the key. -/
def reports (k : Int) (call : BillingContext × BillingOutcome) : Bool :=
  .budgetExhausted k ∈ postBilling call.2 call.1.tenantId call.1.apiKeyId

/-- One step on key `k`. -/
def step (k : Int) (s : State) : Action → Option State
  | .load ceiling readOk =>
    -- a usage read that fails gives an empty map, and with it a usage of 0
    let used := if readOk then usedOf (s.db.budgetUsage k) else 0
    some { s with edits := s.edits ++ [⟨ceiling, used, .loaded⟩] }
  | .commit i ok =>
    match s.edits[i]? with
    | some ⟨ceiling, used, .loaded⟩ =>
      if ok then
        some { s with allocated := ceiling, edits := s.edits.set i ⟨ceiling, used, .committed⟩ }
      else some { s with edits := s.edits.eraseIdx i }
    | _ => none
  | .snapshot i ok =>
    match s.edits[i]? with
    | some ⟨ceiling, used, .committed⟩ =>
      -- best effort: the edit goes on to its flag write either way
      let db := if ok then writeBudgetSnapshot s.db k ceiling else s.db
      some { s with db, edits := s.edits.set i ⟨ceiling, used, .snapshotted⟩ }
    | _ => none
  | .sync i ok =>
    match s.edits[i]? with
    | some ⟨ceiling, used, .snapshotted⟩ =>
      some { s.setFlag (ceiling ≤ used) ok with edits := s.edits.eraseIdx i }
    | _ => none
  | .bill ctx env =>
    if ctx.apiKeyId = k then
      match billUsage s.db ctx env with
      | .committed db _ outcome => some { s with db, calls := s.calls ++ [(ctx, outcome)] }
      | _ => some s
    else none
  | .notify i ok =>
    match s.calls[i]? with
    | some call =>
      -- billing only ever sets the flag
      some { if reports k call then s.setFlag true ok else s with calls := s.calls.eraseIdx i }
    | none => none
  | .retire => some { s with eligible := false }

/-! ## The condition -/

/-- A debit that takes the key's row from `row` to `row'`: it does not take an exhausted key
back below its snapshot, it is of a span with a tier when it exhausts the key, and it stays on
its side of the ceiling of an edit under way. -/
def HarmlessDebit (s : State) (tierId : Option String) (row row' : Option BudgetUsage) : Prop :=
  (exhausted row = true → exhausted row' = true) ∧
    (exhausted row' = true → tierId.isSome = true) ∧
    ∀ ed ∈ s.edits, (ed.ceiling ≤ usedOf row' ↔ ed.ceiling ≤ usedOf row)

/-- The steps that keep flag and ledger together. -/
def Undisturbed (k : Int) (s : State) : Action → Prop
  -- edits of the key do not overlap
  | .load _ readOk => readOk = true ∧ s.edits = []
  -- no notice is on its way when the key is given headroom back
  | .snapshot i ok => ok = true ∧ ∀ ed ∈ s.edits[i]?,
      ed.ceiling ≤ usedOf (s.db.budgetUsage k) ∨ ∀ call ∈ s.calls, reports k call = false
  | .sync _ ok => ok = true ∧ s.eligible = true
  | .bill ctx env => env.raises = false → ∀ pricing ∈ s.db.pricing ctx.serviceId,
      HarmlessDebit s ctx.tierId (s.db.budgetUsage k)
        ((s.db.debit k (chargeOf pricing ctx).2.1).budgetUsage k)
  | .notify i ok => ∀ call ∈ s.calls[i]?, reports k call = true → ok = true ∧ s.eligible = true
  | _ => True

instance (s : State) (tierId : Option String) (row row' : Option BudgetUsage) :
    Decidable (HarmlessDebit s tierId row row') := by
  unfold HarmlessDebit
  infer_instance

instance (k : Int) (s : State) (a : Action) : Decidable (Undisturbed k s a) := by
  cases a <;> unfold Undisturbed <;> infer_instance

/-! ## The invariant -/

structure Coherent (k : Int) (s : State) : Prop where
  one : s.edits.length ≤ 1
  /-- a notice on its way is still true -/
  pending : ∀ call ∈ s.calls, reports k call = true → exhausted (s.db.budgetUsage k) = true
  /-- the figure an edit has read is on the same side of its ceiling as the usage -/
  read : ∀ ed ∈ s.edits, (ed.ceiling ≤ ed.used ↔ ed.ceiling ≤ usedOf (s.db.budgetUsage k))
  snap : ∀ ed ∈ s.edits, ed.stage = .snapshotted →
    ∃ used, s.db.budgetUsage k = some ⟨used, some ed.ceiling⟩
  sound : (∀ ed ∈ s.edits, ed.stage ≠ .snapshotted) → s.flag = true →
    exhausted (s.db.budgetUsage k) = true
  complete : (∀ ed ∈ s.edits, ed.stage ≠ .snapshotted) →
    exhausted (s.db.budgetUsage k) = true →
    s.flag = true ∨ ∃ call ∈ s.calls, reports k call = true

theorem eq_singleton_of_getElem? {α : Type} {l : List α} {i : Nat} {a : α}
    (hlength : l.length ≤ 1) (h : l[i]? = some a) : l = [a] ∧ i = 0 := by
  obtain ⟨hi, hget⟩ := List.getElem?_eq_some_iff.mp h
  obtain rfl : i = 0 := by omega
  obtain ⟨b, rfl⟩ := List.length_eq_one_iff.mp (by omega : l.length = 1)
  exact ⟨by rw [← hget]; rfl, rfl⟩

section Steps

variable {k : Int} {s s' : State}

theorem coherent_load (h : Coherent k s) {ceiling : ℚ} {readOk : Bool}
    (hG : Undisturbed k s (.load ceiling readOk))
    (hstep : step k s (.load ceiling readOk) = some s') : Coherent k s' := by
  obtain ⟨rfl, hnone⟩ := hG
  cases hstep
  have hother : ∀ ed ∈ s.edits, ed.stage ≠ .snapshotted := by
    rw [hnone]
    nofun
  constructor
  · simp [hnone]
  · exact h.pending
  · simp [hnone]
  · simp [hnone]
  · exact fun _ => h.sound hother
  · exact fun _ => h.complete hother

theorem coherent_commit (h : Coherent k s) {i : Nat} {ok : Bool}
    (hstep : step k s (.commit i ok) = some s') : Coherent k s' := by
  simp only [step] at hstep
  split at hstep
  · rename_i ceiling used hi
    obtain ⟨hedits, rfl⟩ := eq_singleton_of_getElem? h.one hi
    have hother : ∀ ed ∈ s.edits, ed.stage ≠ .snapshotted := by simp [hedits]
    have hread := h.read ⟨ceiling, used, .loaded⟩ (by simp [hedits])
    split at hstep
    · cases hstep
      refine ⟨?_, h.pending, ?_, ?_, fun _ => h.sound hother, fun _ => h.complete hother⟩
      · simp [hedits]
      · simpa [hedits] using hread
      · simp [hedits]
    · cases hstep
      refine ⟨?_, h.pending, ?_, ?_, fun _ => h.sound hother, fun _ => h.complete hother⟩
      · simp [hedits]
      · simp [hedits]
      · simp [hedits]
  · cases hstep

theorem coherent_snapshot (h : Coherent k s) {i : Nat} {ok : Bool}
    (hG : Undisturbed k s (.snapshot i ok)) (hstep : step k s (.snapshot i ok) = some s') :
    Coherent k s' := by
  obtain ⟨rfl, hnotices⟩ := hG
  simp only [step] at hstep
  split at hstep
  · rename_i ceiling used hi
    obtain ⟨hedits, rfl⟩ := eq_singleton_of_getElem? h.one hi
    have hread := h.read ⟨ceiling, used, .committed⟩ (by simp [hedits])
    cases hstep
    constructor
    · simp [hedits]
    · intro call hcall hreports
      obtain hle | hnone := hnotices _ hi
      · simpa using hle
      · rw [hnone call hcall] at hreports
        cases hreports
    · simpa [hedits] using hread
    · simp [hedits, writeBudgetSnapshot]
    · simp [hedits]
    · simp [hedits]
  · cases hstep

theorem coherent_sync (h : Coherent k s) {i : Nat} {ok : Bool}
    (hG : Undisturbed k s (.sync i ok)) (hstep : step k s (.sync i ok) = some s') :
    Coherent k s' := by
  obtain ⟨rfl, heligible⟩ := hG
  simp only [step] at hstep
  split at hstep
  · rename_i ceiling used hi
    obtain ⟨hedits, rfl⟩ := eq_singleton_of_getElem? h.one hi
    have hmem : ⟨ceiling, used, .snapshotted⟩ ∈ s.edits := by simp [hedits]
    -- the figure read decides as the usage now would, and the snapshot is the ceiling
    have hdecision : decide (ceiling ≤ used) = true ↔ exhausted (s.db.budgetUsage k) = true := by
      obtain ⟨now, hrow⟩ := h.snap _ hmem rfl
      rw [decide_eq_true_iff, h.read _ hmem, hrow]
      exact (decide_eq_true_iff ..).symm
    cases hstep
    rw [State.setFlag, heligible]
    constructor
    · simp [hedits]
    · exact h.pending
    · simp [hedits]
    · simp [hedits]
    · exact fun _ => hdecision.mp
    · exact fun _ hex => .inl (hdecision.mpr hex)
  · cases hstep

/-- What a committed debit does to the key's row, and what its notice will say. -/
theorem bill_committed (hk : k ≠ 0) {db db' : Db} {ctx : BillingContext} {env : BillEnv}
    {write : BillingWriteResult} {outcome : BillingOutcome} (hkey : ctx.apiKeyId = k)
    (h : billUsage db ctx env = .committed db' write outcome) :
    env.raises = false ∧ ∃ pricing ∈ db.pricing ctx.serviceId,
      db'.budgetUsage k = (db.debit k (chargeOf pricing ctx).2.1).budgetUsage k ∧
      (reports k (ctx, outcome) = true ↔
        ctx.tierId.isSome = true ∧ exhausted (db'.budgetUsage k) = true) := by
  subst hkey
  obtain ⟨hraises, pricing, hpricing, -, hcost, -, -, -⟩ := billUsage_committed h
  refine ⟨hraises, pricing, hpricing, ?_, ?_⟩
  · rw [billUsage_budgetUsage h, hcost]
  · rw [reports, decide_eq_true_iff, mem_postBilling_iff hk, walletExhausted_iff h,
      ← exhausted_after_iff h, exhausted_iff]

theorem coherent_bill (hk : k ≠ 0) (h : Coherent k s) {ctx : BillingContext} {env : BillEnv}
    (hG : Undisturbed k s (.bill ctx env)) (hstep : step k s (.bill ctx env) = some s') :
    Coherent k s' := by
  obtain ⟨hkey, hstep⟩ := Option.ite_none_right_eq_some.mp hstep
  split at hstep
  · rename_i db write outcome hbill
    obtain ⟨hraises, pricing, hpricing, hrow, hreports⟩ := bill_committed hk hkey hbill
    obtain ⟨hkept, hreported, hsided⟩ := hG hraises pricing hpricing
    rw [← hrow] at hkept hreported hsided
    cases hstep
    constructor
    · exact h.one
    · intro call hcall hcallReports
      obtain hold | hnew := List.mem_append.mp hcall
      · exact hkept (h.pending call hold hcallReports)
      · obtain rfl := List.mem_singleton.mp hnew
        exact (hreports.mp hcallReports).2
    · exact fun ed hed => (h.read ed hed).trans (hsided ed hed).symm
    · intro ed hed hstage
      obtain ⟨used, hold⟩ := h.snap ed hed hstage
      rw [debit_budgetUsage_self hold] at hrow
      exact ⟨_, hrow⟩
    · exact fun hother hflag => hkept (h.sound hother hflag)
    · intro _ hexhausted
      refine .inr ⟨_, List.mem_append_right _ (List.mem_singleton_self _), ?_⟩
      exact hreports.mpr ⟨hreported hexhausted, hexhausted⟩
  · cases hstep
    exact h

theorem coherent_notify (h : Coherent k s) {i : Nat} {ok : Bool}
    (hG : Undisturbed k s (.notify i ok)) (hstep : step k s (.notify i ok) = some s') :
    Coherent k s' := by
  simp only [step] at hstep
  split at hstep
  · rename_i call hi
    have hpending : ∀ call' ∈ s.calls.eraseIdx i, reports k call' = true →
        exhausted (s.db.budgetUsage k) = true :=
      fun call' hcall' => h.pending call' (List.mem_of_mem_eraseIdx hcall')
    cases hstep
    split
    · rename_i hreports
      obtain ⟨rfl, heligible⟩ := hG call hi hreports
      rw [State.setFlag, heligible]
      refine ⟨h.one, hpending, h.read, h.snap, fun _ _ => ?_, fun _ _ => .inl rfl⟩
      exact h.pending call (List.mem_of_getElem? hi) hreports
    · rename_i hreports
      refine ⟨h.one, hpending, h.read, h.snap, h.sound, fun hother hexhausted => ?_⟩
      obtain hflag | ⟨call', hcall', hreports'⟩ := h.complete hother hexhausted
      · exact .inl hflag
      · refine .inr ⟨call', List.mem_eraseIdx_iff_getElem?.mpr ?_, hreports'⟩
        obtain ⟨j, hj⟩ := List.mem_iff_getElem?.mp hcall'
        refine ⟨j, fun hij => hreports ?_, hj⟩
        -- the call that is gone reported nothing
        rw [hij, hi] at hj
        rw [Option.some.inj hj]
        exact hreports'
  · cases hstep

theorem coherent_step (hk : k ≠ 0) {a : Action} (h : Coherent k s) (hG : Undisturbed k s a)
    (hstep : step k s a = some s') : Coherent k s' := by
  cases a with
  | load => exact coherent_load h hG hstep
  | commit => exact coherent_commit h hstep
  | snapshot => exact coherent_snapshot h hG hstep
  | sync => exact coherent_sync h hG hstep
  | bill => exact coherent_bill hk h hG hstep
  | notify => exact coherent_notify h hG hstep
  | retire =>
    cases hstep
    exact ⟨h.one, h.pending, h.read, h.snap, h.sound, h.complete⟩

end Steps

/-! ## Runs -/

/-- Every edit and every billing run has finished. -/
def AtRest (s : State) : Prop := s.edits = [] ∧ s.calls = []

/-- The flag says what the ledger says. -/
def Agrees (k : Int) (s : State) : Prop :=
  s.flag = true ↔ exhausted (s.db.budgetUsage k) = true

instance (s : State) : Decidable (AtRest s) := inferInstanceAs (Decidable (_ ∧ _))

instance (k : Int) (s : State) : Decidable (Agrees k s) := inferInstanceAs (Decidable (_ ↔ _))

/-- At rest the invariant says that flag and ledger agree. -/
theorem coherent_atRest_iff {k : Int} {s : State} (hrest : AtRest s) :
    Coherent k s ↔ Agrees k s := by
  obtain ⟨hedits, hcalls⟩ := hrest
  have hother : ∀ ed ∈ s.edits, ed.stage ≠ .snapshotted := by
    rw [hedits]
    nofun
  constructor
  · intro h
    refine ⟨h.sound hother, fun hexhausted => ?_⟩
    obtain hflag | ⟨call, hcall, -⟩ := h.complete hother hexhausted
    · exact hflag
    · rw [hcalls] at hcall
      cases hcall
  · intro h
    refine ⟨by simp [hedits], by simp [hcalls], by simp [hedits], by simp [hedits],
      fun _ => h.mp, fun _ hexhausted => .inl (h.mpr hexhausted)⟩

/-- Flag and ledger agree whenever everything has finished, in every run whose steps are
`Undisturbed`. Key ids start at 1; 0 stands for a request without a key. -/
theorem flag_agrees_at_rest {k : Int} (hk : k ≠ 0) {s₀ s : State} {as : List Action}
    (hrun : Run (step k) s₀ as s) (hundisturbed : Guarded (step k) (Undisturbed k) s₀ as)
    (hstart : AtRest s₀) (hagrees : Agrees k s₀) (hrest : AtRest s) :
    s.flag = true ↔ exhausted (s.db.budgetUsage k) = true := by
  have hcoherent : Coherent k s :=
    hrun.guardedInvariant (fun _ _ _ h hG hstep => coherent_step hk h hG hstep) hundisturbed
      ((coherent_atRest_iff hstart).mpr hagrees)
  exact (coherent_atRest_iff hrest).mp hcoherent

/-- A key with a ceiling of ₹15 and nothing spent. -/
def unspent : State where
  db := tightDb
  allocated := 15
  eligible := true
  flag := false
  edits := []
  calls := []

/-- A debit of ₹20 exhausts the key, a top-up frees it, a cut exhausts it again while another
debit is under way. -/
def topUpAndCut : List Action :=
  [.bill (costlySpan (some "gold")) {}, .notify 0 true,
    .load 100 true, .commit 0 true, .snapshot 0 true, .sync 0 true,
    .load 10 true, .commit 0 true, .bill (costlySpan (some "gold")) {}, .snapshot 0 true,
    .sync 0 true, .notify 0 true]

theorem flag_agrees_after_top_up_and_cut :
    (final (step 7) unspent topUpAndCut).flag = true ↔
      exhausted ((final (step 7) unspent topUpAndCut).db.budgetUsage 7) = true :=
  flag_agrees_at_rest (by decide) (run_final (by decide +kernel))
    (guarded_of_check (g := fun s a => decide (Undisturbed 7 s a))
      (fun _ _ h => of_decide_eq_true h) (by decide +kernel))
    (by decide) (by decide +kernel) (by decide +kernel)

/-- The edit reads a usage of 0; the debit of ₹20 and its notice come before the edit's own
writes, and these clear the flag under a ceiling of ₹10. -/
def debitDuringEdit : List Action :=
  [.load 10 true, .bill (costlySpan (some "gold")) {}, .notify 0 true,
    .commit 0 true, .snapshot 0 true, .sync 0 true]

theorem flag_stale_after_edit :
    ¬ ∀ (k : Int) (s₀ s : State) (as : List Action), k ≠ 0 → Run (step k) s₀ as s →
      AtRest s₀ → Agrees k s₀ → AtRest s →
      (s.flag = true ↔ exhausted (s.db.budgetUsage k) = true) := by
  intro h
  have hdiffer : ¬ Agrees 7 (final (step 7) unspent debitDuringEdit) := by decide +kernel
  exact hdiffer (h 7 unspent _ debitDuringEdit (by decide) (run_final (by decide +kernel))
    (by decide) (by decide +kernel) (by decide +kernel))

end Ai4iCore.Billing.Flag
