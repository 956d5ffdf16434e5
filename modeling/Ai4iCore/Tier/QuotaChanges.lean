import Ai4iCore.Base.Checked
import Ai4iCore.Base.Table
import Mathlib.Data.List.Nodup
import Mathlib.Data.Rat.Defs

/-!
# Scheduled quota changes

`_upsert_quotas` of the platform schedules new limits for the task types of a tier, one entry after
the other, and collects the changes for the notification of the tenants. A limit that equals the
monthly quota in force is no change, whatever was scheduled before it: a tier that goes back on an
announced limit announces nothing (`withdrawn_limit_is_not_reported`). Apart from that the changes
are those of the scheduled limits, each once, with the final limit (`changes_are_exact`).
-/

namespace Ai4iCore.Tier.QuotaChanges

open Checked

/-- A row of `tier_quotas` of the tier. -/
structure TierQuota where
  inferenceTypeId : Nat
  monthlyQuota : ℚ
  pendingMonthlyQuota : Option ℚ
  updatedBy : Option String
deriving DecidableEq, Repr

/-- `TierQuotaIn`. -/
structure TierQuotaIn where
  modelTaskType : String
  limit : Nat
deriving DecidableEq, Repr

/-- An entry of the change list. -/
structure QuotaChange where
  inferenceName : String
  previous : ℚ
  current : ℚ
deriving DecidableEq, Repr

/-- The two 400s. -/
inductive UpsertError
  | unknownModelTaskType (name : String)
  | notInTier (name : String)
deriving DecidableEq, Repr

/-- The limit that is in force from the next month on. -/
def TierQuota.scheduled (quota : TierQuota) : ℚ :=
  quota.pendingMonthlyQuota.getD quota.monthlyQuota

/-- The row with a new pending quota. -/
def TierQuota.schedule (limit : Nat) (updatedBy : Option String) (quota : TierQuota) : TierQuota :=
  { quota with pendingMonthlyQuota := some (limit : ℚ), updatedBy := updatedBy }

section Upsert

/- `str.lower`, and the catalogue: names with their ids. -/
variable (lower : String → String) (catalogue : List (String × Nat))

/-- `get_id_by_name`. -/
def getIdByName (name : String) : Option Nat :=
  if name = "" then none else catalogue.lookup (lower name)

/-- The changes of the other task types. -/
def without (name : String) (changes : List QuotaChange) : List QuotaChange :=
  changes.filter fun c => lower c.inferenceName ≠ lower name

/-- What an entry makes of the changes. -/
def noteChange (q : TierQuotaIn) (existing : TierQuota) (changes : List QuotaChange) :
    List QuotaChange :=
  if q.limit ≠ existing.scheduled ∧ q.limit ≠ existing.monthlyQuota then
    without lower q.modelTaskType changes ++ [⟨q.modelTaskType, existing.monthlyQuota, q.limit⟩]
  else if q.limit = existing.monthlyQuota then without lower q.modelTaskType changes
  else changes

/-- One round of the loop. -/
def upsertQuota (updatedBy : Option String) (state : List TierQuota × List QuotaChange)
    (q : TierQuotaIn) : Except UpsertError (List TierQuota × List QuotaChange) := do
  let typeId ← orRaise (getIdByName lower catalogue q.modelTaskType)
    (.unknownModelTaskType q.modelTaskType)
  let existing ← orRaise (Table.get TierQuota.inferenceTypeId state.1 typeId)
    (.notInTier q.modelTaskType)
  return (Table.modify TierQuota.inferenceTypeId state.1 typeId (.schedule q.limit updatedBy),
    noteChange lower q existing state.2)

/-- `_upsert_quotas`. -/
def upsertQuotas (updatedBy : Option String) (rows : List TierQuota) (quotas : List TierQuotaIn) :
    Except UpsertError (List TierQuota × List QuotaChange) :=
  quotas.foldlM (upsertQuota lower catalogue updatedBy) (rows, [])

end Upsert

/-! ## The changes of one task type -/

/-- The changes that name the task type. -/
def ofType (lower : String → String) (catalogue : List (String × Nat)) (t : Nat)
    (changes : List QuotaChange) : List QuotaChange :=
  changes.filter fun c => getIdByName lower catalogue c.inferenceName = some t

/-- The entries that name the task type. -/
def entriesOf (lower : String → String) (catalogue : List (String × Nat)) (t : Nat)
    (quotas : List TierQuotaIn) : List TierQuotaIn :=
  quotas.filter fun q => getIdByName lower catalogue q.modelTaskType = some t

/-- What the changes say of a task type, over its row before the call and its row now. -/
structure Exact (lower : String → String) (catalogue : List (String × Nat)) (t : Nat)
    (before now : TierQuota) (quotas : List TierQuotaIn) (changes : List QuotaChange) : Prop where
  monthly : now.monthlyQuota = before.monthlyQuota
  once : (ofType lower catalogue t changes).length ≤ 1
  final : ∀ c ∈ ofType lower catalogue t changes, c.previous = before.monthlyQuota ∧
    c.current = now.scheduled ∧ now.scheduled ≠ before.monthlyQuota
  reported : now.scheduled ≠ before.scheduled → now.scheduled ≠ before.monthlyQuota →
    ofType lower catalogue t changes ≠ []
  changed : (entriesOf lower catalogue t quotas).length ≤ 1 →
    ofType lower catalogue t changes ≠ [] → now.scheduled ≠ before.scheduled

section Changes

variable {lower : String → String} {catalogue : List (String × Nat)} {updatedBy : Option String}
  {rows rows' : List TierQuota} {changes changes' : List QuotaChange} {q : TierQuotaIn} {t t' : Nat}

theorem lookup_of_getIdByName {name : String} (h : getIdByName lower catalogue name = some t) :
    catalogue.lookup (lower name) = some t := by
  unfold getIdByName at h
  split at h
  · cases h
  · exact h

/-- Ids are unique, so a task type has one name up to its case. -/
theorem eq_of_lookup (hids : (catalogue.map Prod.snd).Nodup) {a b : String}
    (ha : catalogue.lookup a = some t) (hb : catalogue.lookup b = some t) : a = b := by
  have hmem : ∀ {c : String}, catalogue.lookup c = some t → (c, t) ∈ catalogue := by
    intro c hc
    obtain ⟨before, after, heq, -⟩ := List.lookup_eq_some_iff.mp hc
    rw [heq]
    exact List.mem_append_right before List.mem_cons_self
  exact congrArg Prod.fst (List.inj_on_of_nodup_map hids (hmem ha) (hmem hb) rfl)

theorem ofType_append (changes changes' : List QuotaChange) :
    ofType lower catalogue t (changes ++ changes') =
      ofType lower catalogue t changes ++ ofType lower catalogue t changes' :=
  List.filter_append ..

theorem ofType_single {c : QuotaChange} (h : getIdByName lower catalogue c.inferenceName = some t) :
    ofType lower catalogue t [c] = [c] :=
  List.filter_cons_of_pos (decide_eq_true h)

theorem ofType_single_of_ne {c : QuotaChange}
    (h : getIdByName lower catalogue c.inferenceName = some t) (hne : t' ≠ t) :
    ofType lower catalogue t' [c] = [] := by
  refine List.filter_cons_of_neg fun heq => hne ?_
  exact Option.some.inj ((of_decide_eq_true heq).symm.trans h)

theorem ofType_without (hids : (catalogue.map Prod.snd).Nodup) {name : String}
    (hname : getIdByName lower catalogue name = some t) :
    ofType lower catalogue t (without lower name changes) = [] := by
  refine List.filter_eq_nil_iff.mpr fun c hc htype => ?_
  have hne := of_decide_eq_true (List.mem_filter.mp hc).2
  exact hne (eq_of_lookup hids (lookup_of_getIdByName (of_decide_eq_true htype))
    (lookup_of_getIdByName hname))

theorem ofType_without_of_ne {name : String} (hname : getIdByName lower catalogue name = some t)
    (hne : t' ≠ t) : ofType lower catalogue t' (without lower name changes) =
      ofType lower catalogue t' changes := by
  unfold ofType without
  rw [List.filter_filter]
  refine List.filter_congr fun c _ => ?_
  by_cases htype : getIdByName lower catalogue c.inferenceName = some t'
  · have hother : lower c.inferenceName ≠ lower name := by
      intro heq
      have hlookup := lookup_of_getIdByName htype
      rw [heq, lookup_of_getIdByName hname] at hlookup
      exact hne (Option.some.inj hlookup).symm
    simp [htype, hother]
  · simp [htype]

/-- What an entry makes of the changes of its own task type. -/
theorem ofType_noteChange (hids : (catalogue.map Prod.snd).Nodup) {existing : TierQuota}
    (hname : getIdByName lower catalogue q.modelTaskType = some t) :
    ofType lower catalogue t (noteChange lower q existing changes) =
      if q.limit ≠ existing.scheduled ∧ q.limit ≠ existing.monthlyQuota then
        [⟨q.modelTaskType, existing.monthlyQuota, q.limit⟩]
      else if q.limit = existing.monthlyQuota then []
      else ofType lower catalogue t changes := by
  unfold noteChange
  split
  · rw [ofType_append, ofType_without hids hname, ofType_single hname, List.nil_append]
  · split
    · exact ofType_without hids hname
    · rfl

theorem ofType_noteChange_of_ne {existing : TierQuota}
    (hname : getIdByName lower catalogue q.modelTaskType = some t) (hne : t' ≠ t) :
    ofType lower catalogue t' (noteChange lower q existing changes) =
      ofType lower catalogue t' changes := by
  unfold noteChange
  split
  · rw [ofType_append, ofType_without_of_ne hname hne, ofType_single_of_ne hname hne,
      List.append_nil]
  · split
    · exact ofType_without_of_ne hname hne
    · rfl

theorem get_schedule (limit : Nat) : Table.get TierQuota.inferenceTypeId
      (Table.modify TierQuota.inferenceTypeId rows t' (.schedule limit updatedBy)) t =
    (Table.get TierQuota.inferenceTypeId rows t).map fun row =>
      if t = t' then row.schedule limit updatedBy else row :=
  Table.get_modify fun _ => rfl

theorem upsertQuota_ok {state state' : List TierQuota × List QuotaChange}
    (h : upsertQuota lower catalogue updatedBy state q = .ok state') :
    ∃ t existing, getIdByName lower catalogue q.modelTaskType = some t ∧
      Table.get TierQuota.inferenceTypeId state.1 t = some existing ∧
      state' = (Table.modify TierQuota.inferenceTypeId state.1 t (.schedule q.limit updatedBy),
        noteChange lower q existing state.2) := by
  obtain ⟨t, ht, h⟩ := orRaise_bind h
  obtain ⟨existing, hexisting, h⟩ := orRaise_bind h
  exact ⟨t, existing, ht, hexisting, (Except.ok.inj h).symm⟩

/-- An entry of the task type is a change, goes back to the quota in force, or is scheduled
already. -/
theorem Exact.own {before existing : TierQuota} {quotas : List TierQuotaIn}
    (hexact : Exact lower catalogue t before existing quotas changes)
    (hentries : entriesOf lower catalogue t (quotas ++ [q]) =
      entriesOf lower catalogue t quotas ++ [q])
    (hfirst : entriesOf lower catalogue t quotas = [] →
      existing.scheduled = before.scheduled ∧ ofType lower catalogue t changes = [])
    (hchanges : ofType lower catalogue t changes' =
      if q.limit ≠ existing.scheduled ∧ q.limit ≠ existing.monthlyQuota then
        [⟨q.modelTaskType, existing.monthlyQuota, q.limit⟩]
      else if q.limit = existing.monthlyQuota then []
      else ofType lower catalogue t changes) :
    Exact lower catalogue t before (existing.schedule q.limit updatedBy) (quotas ++ [q])
      changes' := by
  have hmonthly := hexact.monthly
  have hnone : (entriesOf lower catalogue t (quotas ++ [q])).length ≤ 1 →
      existing.scheduled = before.scheduled ∧ ofType lower catalogue t changes = [] := by
    intro hlength
    refine hfirst (List.length_eq_zero_iff.mp ?_)
    rw [hentries, List.length_append, List.length_singleton] at hlength
    omega
  by_cases hnew : q.limit ≠ existing.scheduled ∧ q.limit ≠ existing.monthlyQuota
  · -- the entry is a change
    rw [if_pos hnew] at hchanges
    refine ⟨hmonthly, ?_, fun c hc => ?_, fun _ _ => ?_, fun hlength _ => ?_⟩
    · rw [hchanges]
      exact Nat.le_refl 1
    · rw [hchanges, List.mem_singleton] at hc
      subst hc
      exact ⟨hmonthly, rfl, hmonthly ▸ hnew.2⟩
    · rw [hchanges]
      exact List.cons_ne_nil _ _
    · exact (hnone hlength).1 ▸ hnew.1
  · rw [if_neg hnew] at hchanges
    by_cases hback : q.limit = existing.monthlyQuota
    · -- back to the quota in force
      rw [if_pos hback] at hchanges
      refine ⟨hmonthly, ?_, fun c hc => ?_, fun _ hne => ?_, fun _ hsome => ?_⟩
      · rw [hchanges]
        exact Nat.zero_le 1
      · rw [hchanges] at hc
        cases hc
      · exact absurd (hback.trans hmonthly) hne
      · exact absurd hchanges hsome
    · -- scheduled already
      rw [if_neg hback] at hchanges
      have hsame : (q.limit : ℚ) = existing.scheduled := by
        by_contra hlimit
        exact hnew ⟨hlimit, hback⟩
      refine ⟨hmonthly, ?_, ?_, ?_, fun hlength hsome => ?_⟩
      · rw [hchanges]
        exact hexact.once
      · rw [hchanges]
        show ∀ c ∈ ofType lower catalogue t changes, _ ∧ c.current = (q.limit : ℚ) ∧
          (q.limit : ℚ) ≠ _
        rw [hsame]
        exact hexact.final
      · rw [hchanges]
        show (q.limit : ℚ) ≠ _ → (q.limit : ℚ) ≠ _ → _
        rw [hsame]
        exact hexact.reported
      · exact absurd (hchanges.trans (hnone hlength).2) hsome

/-- An entry of another task type changes nothing. -/
theorem Exact.other {before now : TierQuota} {quotas quotas' : List TierQuotaIn}
    (hexact : Exact lower catalogue t before now quotas changes)
    (hentries : entriesOf lower catalogue t quotas' = entriesOf lower catalogue t quotas)
    (hchanges : ofType lower catalogue t changes' = ofType lower catalogue t changes) :
    Exact lower catalogue t before now quotas' changes' := by
  refine ⟨hexact.monthly, ?_, ?_, ?_, ?_⟩
  · rw [hchanges]
    exact hexact.once
  · rw [hchanges]
    exact hexact.final
  · rw [hchanges]
    exact hexact.reported
  · rw [hentries, hchanges]
    exact hexact.changed

/-- **An entry keeps what the changes say exact**, of its own task type and of the others. -/
theorem Exact.step (hids : (catalogue.map Prod.snd).Nodup) {before now : TierQuota}
    {quotas : List TierQuotaIn} {state' : List TierQuota × List QuotaChange}
    (hexact : Exact lower catalogue t before now quotas changes)
    (hnone : entriesOf lower catalogue t quotas = [] →
      now.scheduled = before.scheduled ∧ ofType lower catalogue t changes = [])
    (hnow : Table.get TierQuota.inferenceTypeId rows t = some now)
    (h : upsertQuota lower catalogue updatedBy (rows, changes) q = .ok state') :
    ∃ now', Table.get TierQuota.inferenceTypeId state'.1 t = some now' ∧
      Exact lower catalogue t before now' (quotas ++ [q]) state'.2 ∧
      (entriesOf lower catalogue t (quotas ++ [q]) = [] →
        now'.scheduled = before.scheduled ∧ ofType lower catalogue t state'.2 = []) := by
  obtain ⟨t', existing, ht', hexisting, rfl⟩ := upsertQuota_ok h
  have hentries : entriesOf lower catalogue t (quotas ++ [q]) =
      entriesOf lower catalogue t quotas ++ entriesOf lower catalogue t [q] := List.filter_append ..
  have hget : Table.get TierQuota.inferenceTypeId (Table.modify TierQuota.inferenceTypeId rows t'
      (.schedule q.limit updatedBy)) t = _ := get_schedule q.limit
  rw [hnow] at hget
  by_cases hne : t = t'
  · subst hne
    obtain rfl := Option.some.inj (hexisting.symm.trans hnow)
    have hq : entriesOf lower catalogue t [q] = [q] := List.filter_cons_of_pos (decide_eq_true ht')
    rw [hq] at hentries
    refine ⟨_, hget.trans (congrArg some (if_pos rfl)),
      hexact.own hentries hnone (ofType_noteChange hids ht'), fun hempty => ?_⟩
    rw [hentries] at hempty
    exact absurd hempty (by simp)
  · have hq : entriesOf lower catalogue t [q] = [] := by
      refine List.filter_cons_of_neg fun heq => hne ?_
      exact Option.some.inj ((of_decide_eq_true heq).symm.trans ht')
    have hchanges : ofType lower catalogue t (noteChange lower q existing changes) =
        ofType lower catalogue t changes := ofType_noteChange_of_ne ht' hne
    rw [hq, List.append_nil] at hentries
    refine ⟨now, hget.trans (congrArg some (if_neg hne)), hexact.other hentries hchanges, ?_⟩
    rw [hentries, hchanges]
    exact hnone

/-- Every change is one of a task type that the tier has. -/
theorem named_step {state' : List TierQuota × List QuotaChange}
    (hnamed : ∀ c ∈ changes, ∃ t now, getIdByName lower catalogue c.inferenceName = some t ∧
      Table.get TierQuota.inferenceTypeId rows t = some now)
    (h : upsertQuota lower catalogue updatedBy (rows, changes) q = .ok state') :
    ∀ c ∈ state'.2, ∃ t now, getIdByName lower catalogue c.inferenceName = some t ∧
      Table.get TierQuota.inferenceTypeId state'.1 t = some now := by
  obtain ⟨t', existing, ht', hexisting, rfl⟩ := upsertQuota_ok h
  have hkept : ∀ {t now}, Table.get TierQuota.inferenceTypeId rows t = some now → ∃ now',
      Table.get TierQuota.inferenceTypeId (Table.modify TierQuota.inferenceTypeId rows t'
        (.schedule q.limit updatedBy)) t = some now' := by
    intro t now hnow
    rw [get_schedule, hnow]
    exact ⟨_, rfl⟩
  intro c hc
  have hcases : c ∈ changes ∨ c.inferenceName = q.modelTaskType := by
    unfold noteChange without at hc
    split at hc
    · rcases List.mem_append.mp hc with hc | hc
      · exact .inl (List.mem_of_mem_filter hc)
      · exact .inr (List.mem_singleton.mp hc ▸ rfl)
    · split at hc
      · exact .inl (List.mem_of_mem_filter hc)
      · exact .inl hc
  rcases hcases with hc | hname
  · obtain ⟨t, now, ht, hnow⟩ := hnamed c hc
    obtain ⟨now', hnow'⟩ := hkept hnow
    exact ⟨t, now', ht, hnow'⟩
  · obtain ⟨now', hnow'⟩ := hkept hexisting
    exact ⟨t', now', hname ▸ ht', hnow'⟩

theorem Exact.run (hids : (catalogue.map Prod.snd).Nodup) {before now : TierQuota}
    {done quotas : List TierQuotaIn}
    (hexact : Exact lower catalogue t before now done changes)
    (hnone : entriesOf lower catalogue t done = [] →
      now.scheduled = before.scheduled ∧ ofType lower catalogue t changes = [])
    (hnow : Table.get TierQuota.inferenceTypeId rows t = some now)
    (h : quotas.foldlM (upsertQuota lower catalogue updatedBy) (rows, changes) =
      .ok (rows', changes')) :
    ∃ now', Table.get TierQuota.inferenceTypeId rows' t = some now' ∧
      Exact lower catalogue t before now' (done ++ quotas) changes' := by
  induction quotas generalizing rows changes now done with
  | nil =>
    obtain ⟨rfl, rfl⟩ := Prod.mk.inj (Except.ok.inj h)
    rw [List.append_nil]
    exact ⟨now, hnow, hexact⟩
  | cons q quotas ih =>
    rw [List.foldlM_cons] at h
    obtain ⟨state', hstep, h⟩ := bind_ok h
    obtain ⟨now', hnow', hexact', hnone'⟩ := hexact.step hids hnone hnow hstep
    have hrest := ih hexact' hnone' hnow' h
    rw [List.append_assoc] at hrest
    exact hrest

end Changes

/-- **The changes are exact** for the limits that are scheduled and are not the quota in force: each
task type of the tier is reported at most once, with its final limit; it is reported when the
scheduled limit is another one than before the call, unless it is the monthly quota in force, and
never when it is that quota; and a type that is named once, as in every accepted body, is not
reported when its scheduled limit is the one of before. -/
theorem changes_are_exact (lower : String → String) (catalogue : List (String × Nat))
    (updatedBy : Option String) (rows rows' : List TierQuota) (quotas : List TierQuotaIn)
    (changes : List QuotaChange) (hids : (catalogue.map Prod.snd).Nodup)
    (h : upsertQuotas lower catalogue updatedBy rows quotas = .ok (rows', changes)) :
    (∀ c ∈ changes, ∃ t now, getIdByName lower catalogue c.inferenceName = some t ∧
      Table.get TierQuota.inferenceTypeId rows' t = some now) ∧
    ∀ t before, Table.get TierQuota.inferenceTypeId rows t = some before →
      ∃ now, Table.get TierQuota.inferenceTypeId rows' t = some now ∧
        Exact lower catalogue t before now quotas changes := by
  constructor
  · have hnamed : ∀ c ∈ (rows', changes).2, ∃ t now,
        getIdByName lower catalogue c.inferenceName = some t ∧
          Table.get TierQuota.inferenceTypeId (rows', changes).1 t = some now :=
      foldlM_ok (P := fun state => ∀ c ∈ state.2, ∃ t now,
        getIdByName lower catalogue c.inferenceName = some t ∧
          Table.get TierQuota.inferenceTypeId state.1 t = some now)
        (fun _ _ _ _ hnamed hstep => named_step hnamed hstep) h
        fun c hc => absurd hc List.not_mem_nil
    exact hnamed
  · intro t before hbefore
    have hstart : Exact lower catalogue t before before [] [] :=
      ⟨rfl, Nat.zero_le 1, fun c hc => absurd hc List.not_mem_nil, fun hne => absurd rfl hne,
        fun _ hsome => absurd rfl hsome⟩
    exact hstart.run hids (fun _ => ⟨rfl, rfl⟩) hbefore h

/-- Two task types. -/
def sampleCatalogue : List (String × Nat) := [("asr", 2), ("nmt", 3)]

/-- A tier whose recognition quota is to rise. -/
def sampleRows : List TierQuota := [⟨2, 1000, some 2000, none⟩, ⟨3, 500, none, none⟩]

theorem changes_are_exact_for_two_types :
    ∃ rows' changes,
      upsertQuotas id sampleCatalogue none sampleRows [⟨"asr", 3000⟩, ⟨"nmt", 500⟩] =
        .ok (rows', changes) ∧
      changes = [⟨"asr", 1000, 3000⟩] ∧
      ((∀ c ∈ changes, ∃ t now, getIdByName id sampleCatalogue c.inferenceName = some t ∧
        Table.get TierQuota.inferenceTypeId rows' t = some now) ∧
      ∀ t before, Table.get TierQuota.inferenceTypeId sampleRows t = some before →
        ∃ now, Table.get TierQuota.inferenceTypeId rows' t = some now ∧
          Exact id sampleCatalogue t before now [⟨"asr", 3000⟩, ⟨"nmt", 500⟩] changes) :=
  ⟨[⟨2, 1000, some 3000, none⟩, ⟨3, 500, some 500, none⟩], _, rfl, rfl,
    changes_are_exact id sampleCatalogue none sampleRows _ _ _ (by decide) rfl⟩

/-- Going back on the announced limit is not reported. And with two entries for one type, a limit
that stays scheduled is. -/
theorem withdrawn_limit_is_not_reported :
    (∃ rows', upsertQuotas id sampleCatalogue none sampleRows [⟨"asr", 1000⟩] = .ok (rows', []) ∧
      (Table.get TierQuota.inferenceTypeId sampleRows 2).map TierQuota.scheduled = some 2000 ∧
      (Table.get TierQuota.inferenceTypeId rows' 2).map TierQuota.scheduled = some 1000) ∧
    ∃ rows', upsertQuotas id sampleCatalogue none sampleRows [⟨"asr", 3000⟩, ⟨"asr", 2000⟩] =
        .ok (rows', [⟨"asr", 1000, 2000⟩]) ∧
      (Table.get TierQuota.inferenceTypeId rows' 2).map TierQuota.scheduled = some 2000 := by
  refine ⟨⟨[⟨2, 1000, some 1000, none⟩, ⟨3, 500, none, none⟩], rfl, rfl, rfl⟩,
    [⟨2, 1000, some 2000, none⟩, ⟨3, 500, none, none⟩], rfl, rfl⟩

end Ai4iCore.Tier.QuotaChanges
