import Ai4iCore.Allocation.Frame

/-!
# Flags when the usage cannot be read

`fetch_budget_usage` answers a failed query with an empty map, which downstream reads as
"nothing was spent". The three allocation endpoints decide the `budget-exhausted` flag of
every key whose ceiling they move from that map, so each such key is cleared. The tenant
budget revision asks for the error (`raise_on_error=True`) and leaves the flags alone.

`ceilings` lists the ceilings a revision asks for, before any of its checks. The main
result says exactly when no flag is lost: no key with a flag is given a ceiling other
than the one it has.
-/

namespace Ai4iCore.Allocation

open Checked Transaction Transaction.Txn

/-! ## The ceilings a revision asks for -/

/-- The ceilings the rows give to keys of an Application with the budget `parent`. -/
def keyCeilings (parent : ℚ) (rows : List APIKeyAllocationRow) : List (Nat × ℚ) :=
  (explicitById (rows.map (·.explicit))).filterMap fun e =>
    (convert e.2 parent).toOption.map fun c => (e.1, c.1)

def Revision.ceilings (t : Tables) : Revision → List (Nat × ℚ)
  | .tenantApplications tenantId rows =>
    (((t.tenant tenantId).bind (·.allocatedBudget)).elim [] fun budget =>
      (requestRowById rows).flatMap fun e =>
        (convert (explicitInput e.1 e.2.allocation) budget).toOption.elim [] fun c =>
          keyCeilings c.1 e.2.apiKeys)
  | .applicationKeys applicationId _ _ apiKeys =>
    ((t.application applicationId).bind (·.allocatedBudget)).elim [] fun budget =>
      keyCeilings budget apiKeys
  | .singleKey keyId _ allocation =>
    ((t.key keyId).bind fun k => (t.application k.applicationId).bind (·.allocatedBudget)).elim []
      fun budget => keyCeilings budget [⟨keyId, allocation⟩]
  | .tenantBudget .. => []

theorem mem_keyCeilings {parent : ℚ} {rows : List APIKeyAllocationRow} {id : Nat} {amount : ℚ} :
    (id, amount) ∈ keyCeilings parent rows ↔
      ∃ e percentage, (id, e) ∈ explicitById (rows.map (·.explicit)) ∧
        convert e parent = .ok (amount, percentage) := by
  unfold keyCeilings
  rw [List.mem_filterMap]
  constructor
  · rintro ⟨⟨id', e⟩, he, hsome⟩
    obtain ⟨⟨amount', percentage⟩, hconvert, hpair⟩ := Option.map_eq_some_iff.mp hsome
    obtain ⟨rfl, rfl⟩ := Prod.mk.inj hpair
    cases hc : convert e parent with
    | error err =>
      rw [hc] at hconvert
      cases hconvert
    | ok c =>
      rw [hc] at hconvert
      exact ⟨e, percentage, he, by rw [hc]; exact congrArg _ (Option.some.inj hconvert)⟩
  · rintro ⟨e, percentage, he, hconvert⟩
    exact ⟨(id, e), he, by rw [hconvert]; rfl⟩

/-! ## The snapshots an accepted revision writes -/

/-- The ceilings that are written: those of `ceilings` that move a key, all positive. -/
structure Written (t : Tables) (ceilings snapshots : List (Nat × ℚ)) : Prop where
  sound : ∀ e ∈ snapshots, 0 < e.2 ∧ e ∈ ceilings ∧ ∃ k ∈ t.keys, k.id = e.1 ∧ e.2 ≠ k.amount
  complete : ∀ e ∈ ceilings, ∀ k ∈ t.keys, k.id = e.1 → e.2 ≠ k.amount →
    e.1 ∈ snapshots.map Prod.fst

section Written

variable {t : Tables} {ceilings ceilings' snapshots writes : List (Nat × ℚ)}

theorem Written.empty : Written t [] [] := ⟨nofun, nofun⟩

/-- `snapshot_writes.update(writes)`. -/
theorem Written.setAll (h : Written t ceilings snapshots) (h' : Written t ceilings' writes) :
    Written t (ceilings ++ ceilings') (Dict.setAll snapshots writes) := by
  constructor
  · intro e he
    obtain he | he := Dict.mem_setAll he
    · obtain ⟨hpos, hceil, hkey⟩ := h'.sound e he
      exact ⟨hpos, List.mem_append_right _ hceil, hkey⟩
    · obtain ⟨hpos, hceil, hkey⟩ := h.sound e he
      exact ⟨hpos, List.mem_append_left _ hceil, hkey⟩
  · intro e he k hk hid hmoved
    rw [Dict.mem_map_fst_setAll]
    obtain he | he := List.mem_append.mp he
    · exact .inr (h.complete e he k hk hid hmoved)
    · exact .inl (h'.complete e he k hk hid hmoved)

theorem Written.congr (h : Written t ceilings snapshots)
    (hmem : ∀ e, e ∈ ceilings ↔ e ∈ ceilings') : Written t ceilings' snapshots := by
  refine ⟨fun e he => ?_, fun e he => h.complete e ((hmem e).mpr he)⟩
  obtain ⟨hpos, hceil, hkey⟩ := h.sound e he
  exact ⟨hpos, (hmem e).mp hceil, hkey⟩

end Written

/-- One resolution of keys writes the ceilings its rows ask for. -/
theorem written_resolution {t t₀ : Tables} {applicationId : Nat} {parent : ℚ}
    {usage : List BudgetUsage} {rows : List APIKeyAllocationRow} {resolved : List ResolvedRow}
    (hkeys : (t₀.keys.map (·.id)).Nodup)
    (hsame : t.keysOf applicationId = t₀.keysOf applicationId)
    (hpositive : ∀ row ∈ rows, checkPositive parent row = .ok ())
    (hres : Resolution parent (keyRows usage (active (t.keysOf applicationId)))
      (rows.map (·.explicit)) resolved) :
    Written t₀ (keyCeilings parent rows) (snapshotWrites resolved) := by
  constructor
  · intro w hw
    obtain ⟨r, hr, rfl⟩ := List.mem_map.mp hw
    obtain ⟨hr, hchanged⟩ := List.mem_filter.mp hr
    obtain ⟨e, he, hconvert⟩ := (hres.rows r hr).converted
    obtain ⟨k, hk, hid, hmoved⟩ := resolved_key hres hr
    refine ⟨?_, mem_keyCeilings.mpr ⟨e, _, he, hconvert⟩, k, ?_, hid, hmoved.mp hchanged⟩
    · obtain ⟨row, hrow, rfl⟩ := List.mem_map.mp (explicitById_entry he).1
      obtain ⟨-, amount, percentage, hrowconvert, hamount, -⟩ := checkPositive_ok (hpositive row hrow)
      rw [hconvert] at hrowconvert
      obtain ⟨rfl, -⟩ := Prod.mk.inj (Except.ok.inj hrowconvert)
      exact hamount
    · rw [hsame] at hk
      exact (mem_active_keysOf.mp hk).1
  · rintro ⟨id, amount⟩ hw k hk rfl hmoved
    obtain ⟨e, percentage, he, hconvert⟩ := mem_keyCeilings.mp hw
    obtain ⟨r, hr, hid⟩ := (hres.listed k.id).mpr (List.mem_map_of_mem (f := Prod.fst) he)
    obtain ⟨e', he', hconvert'⟩ := (hres.rows r hr).converted
    rw [hid] at he'
    obtain rfl := explicitById_unique he he'
    rw [hconvert] at hconvert'
    obtain ⟨rfl, rfl⟩ := Prod.mk.inj (Except.ok.inj hconvert')
    obtain ⟨b, hb, hbid, hchanged⟩ := resolved_key hres hr
    rw [hsame] at hb
    obtain rfl := List.inj_on_of_nodup_map hkeys (mem_active_keysOf.mp hb).1 hk (hbid.trans hid)
    refine List.mem_map.mpr ⟨(r.id, r.amount), List.mem_map.mpr ⟨r, ?_, rfl⟩, hid⟩
    exact List.mem_filter.mpr ⟨hr, hchanged.mpr hmoved⟩

/-! ## Staging moves shares only -/

/-- A key without its share. -/
def APIKey.noShare (k : APIKey) : APIKey := { k with toShare := ⟨none, none⟩ }

theorem mapKeys_noShare (t : Tables) (f : Nat → Share → Share) :
    (t.mapKeys f).keys.map (·.noShare) = t.keys.map (·.noShare) := by
  unfold Tables.mapKeys
  rw [List.map_map]
  rfl

theorem ids_of_noShare {t t' : Tables}
    (h : t'.keys.map (·.noShare) = t.keys.map (·.noShare)) :
    t'.keys.map (·.id) = t.keys.map (·.id) := by
  have hids : ∀ l : List APIKey, l.map (·.id) = (l.map (·.noShare)).map (·.id) := by
    intro l
    rw [List.map_map]
    rfl
  rw [hids, hids t.keys, h]

section Staging

variable {t₀ : Tables} (hkeys : (t₀.keys.map (·.id)).Nodup)

include hkeys

/-- The loop over the resolved Applications, from Applications whose keys are still as they
were. -/
theorem written_cascades {rows : List ApplicationAllocationRow} {usage : List BudgetUsage}
    {l : List ResolvedRow} (hnodup : (l.map (·.id)).Nodup) {s s' : Session Tables Outside}
    {snapshots out : Dict Nat ℚ} {ceilings : List (Nat × ℚ)}
    (hsame : ∀ r ∈ l, s.staged.keysOf r.id = t₀.keysOf r.id)
    (hflags : s.staged.keys.map (·.noShare) = t₀.keys.map (·.noShare))
    (hwritten : Written t₀ ceilings snapshots)
    (h : l.foldlM (cascadeResolved rows usage) snapshots s = (.ok out, s')) :
    Written t₀ (ceilings ++ l.flatMap fun r => keyCeilings r.amount (nestedApiKeys rows r.id))
        out ∧ s'.staged.keys.map (·.noShare) = t₀.keys.map (·.noShare) := by
  induction l generalizing s snapshots ceilings with
  | nil =>
    obtain ⟨rfl, rfl⟩ := pure_accepted h
    rw [List.flatMap_nil, List.append_nil]
    exact ⟨hwritten, hflags⟩
  | cons r l ih =>
    rw [List.foldlM_cons] at h
    obtain ⟨next, m, hm, h⟩ := bind_accepted h
    rw [List.map_cons, List.nodup_cons] at hnodup
    rw [List.flatMap_cons, ← List.append_assoc]
    unfold cascadeResolved at hm
    split at hm
    · obtain ⟨writes, m', hm', hm⟩ := bind_accepted hm
      obtain ⟨rfl, rfl⟩ := pure_accepted hm
      obtain ⟨resolved, hpositive, hresolve, rfl, rfl⟩ := cascadeIntoKeys_accepted hm'
      have hstaged : (s.staged.keys.map (·.id)).Nodup := ids_of_noShare hflags ▸ hkeys
      have hres := resolveLevel_ok (keyRows_nodup hstaged usage r.id) hresolve
      refine ih hnodup.2 (fun r' hr' => ?_) ?_ (hwritten.setAll
        (written_resolution hkeys (hsame r List.mem_cons_self) hpositive hres)) h
      · have hne : r'.id ≠ r.id := fun heq => hnodup.1 (heq ▸ List.mem_map_of_mem hr')
        exact (cascaded_keysOf_of_ne hres hstaged _ hne).trans
          (hsame r' (List.mem_cons_of_mem r hr'))
      · exact (mapKeys_noShare _ _).trans hflags
    · rename_i hidle
      obtain ⟨rfl, rfl⟩ := pure_accepted hm
      have hnone : nestedApiKeys rows r.id = [] := by simp_all
      rw [hnone]
      refine ih hnodup.2 (fun r' hr' => hsame r' (List.mem_cons_of_mem r hr')) hflags ?_ h
      rw [show keyCeilings r.amount [] = [] from rfl, List.append_nil]
      exact hwritten

end Staging

/-! ## What the three endpoints hand over -/

/-- Application by Application, the resolved amounts are the ones the rows convert to. -/
theorem mem_tenant_ceilings {t : Tables} {tenantId : Nat} {rows : List ApplicationAllocationRow}
    {tenant : Tenant} {budget : ℚ} {children : List AllocationRow} {resolved : List ResolvedRow}
    (htenant : t.tenant tenantId = some tenant) (hbudget : tenant.allocatedBudget = some budget)
    (hres : Resolution budget children
      (rows.map fun row => explicitInput row.applicationId row.allocation) resolved)
    (e : Nat × ℚ) :
    e ∈ resolved.flatMap (fun r => keyCeilings r.amount (nestedApiKeys rows r.id)) ↔
      e ∈ (Revision.tenantApplications tenantId rows).ceilings t := by
  have hceilings : (Revision.tenantApplications tenantId rows).ceilings t =
      (requestRowById rows).flatMap fun e =>
        (convert (explicitInput e.1 e.2.allocation) budget).toOption.elim [] fun c =>
          keyCeilings c.1 e.2.apiKeys := by
    show ((t.tenant tenantId).bind _).elim _ _ = _
    rw [htenant, Option.bind_some, hbudget]
    rfl
  rw [hceilings, List.mem_flatMap, List.mem_flatMap]
  constructor
  · rintro ⟨r, hr, he⟩
    obtain ⟨x, hx, hid, hconvert⟩ := row_of_resolved hres hr
    refine ⟨x, hx, ?_⟩
    rw [hconvert, ← nestedApiKeys_of_mem hx, hid]
    exact he
  · rintro ⟨x, hx, he⟩
    obtain ⟨r, hr, hid, hconvert⟩ := resolved_of_row hres hx
    refine ⟨r, hr, ?_⟩
    rw [hid, nestedApiKeys_of_mem hx]
    rw [hconvert] at he
    exact he

/-- The platform-core database is not configured or its queries fail. -/
def Down (db : Option Connection) : Prop := ∀ c, db = some c → c.readFails = true

theorem fetchBudgetUsage_down {db : Option Connection} (hdb : Down db) {ids : List Nat}
    {s s' : Session Tables Outside} {usage : List BudgetUsage}
    (h : fetchBudgetUsage ids db s = (.ok usage, s')) : usage = [] ∧ s' = s := by
  refine ⟨?_, fetchBudgetUsage_accepted h⟩
  unfold fetchBudgetUsage fetchBudgetUsageOrRaise at h
  obtain ⟨u, m, hm, h⟩ := bind_accepted h
  obtain ⟨rfl, -⟩ := pure_accepted h
  cases db with
  | none =>
    obtain ⟨rfl, -⟩ := pure_accepted hm
    rfl
  | some c =>
    dsimp only at hm
    rw [if_pos (hdb c rfl)] at hm
    split at hm
    · obtain ⟨rfl, -⟩ := pure_accepted hm
      rfl
    · obtain ⟨rfl, -⟩ := pure_accepted hm
      rfl

/-- What an accepted staging handler hands over when the usage could not be read. -/
structure Handed (t₀ : Tables) (ceilings : List (Nat × ℚ)) (out : Dict Nat ℚ × List BudgetUsage)
    (t : Tables) : Prop where
  written : Written t₀ ceilings out.1
  usage : out.2 = []
  flags : t.keys.map (·.noShare) = t₀.keys.map (·.noShare)

section Endpoints

variable {s s' : Session Tables Outside} {db : Option Connection} (hdb : Down db)
  {out : Dict Nat ℚ × List BudgetUsage} (hkeys : (s.staged.keys.map (·.id)).Nodup)

include hdb hkeys

theorem handed_stageKeyAllocations {applicationId : Nat} {budget : ℚ}
    {rows : List APIKeyAllocationRow}
    (h : stageKeyAllocations applicationId budget rows db s = (.ok out, s')) :
    Handed s.staged (keyCeilings budget rows) out s'.staged := by
  unfold stageKeyAllocations at h
  rw [read_bind] at h
  obtain ⟨usage, m, hm, h⟩ := bind_accepted h
  obtain ⟨rfl, rfl⟩ := fetchBudgetUsage_down hdb hm
  obtain ⟨resolved, m', hm', h⟩ := bind_accepted h
  obtain ⟨hpositive, hresolve, rfl⟩ := resolveAndPersistKeys_accepted hm'
  obtain ⟨rfl, rfl⟩ := pure_accepted h
  have hres := resolveLevel_ok (keyRows_nodup hkeys [] applicationId) hresolve
  refine ⟨?_, rfl, mapKeys_noShare _ _⟩
  exact Written.empty.setAll (written_resolution hkeys rfl hpositive hres)

theorem handed_stageApplicationKeyAllocations {applicationId bodyApplicationId : Nat}
    {allocation : AllocationValue} {apiKeys : List APIKeyAllocationRow}
    (h : stageApplicationKeyAllocations applicationId bodyApplicationId allocation apiKeys db s =
      (.ok out, s')) :
    Handed s.staged ((Revision.applicationKeys applicationId bodyApplicationId allocation
      apiKeys).ceilings s.staged) out s'.staged := by
  obtain ⟨application, budget, happlication, hbudget, h⟩ :=
    stageApplicationKeyAllocations_accepted h
  have hceilings : (Revision.applicationKeys applicationId bodyApplicationId allocation
      apiKeys).ceilings s.staged = keyCeilings budget apiKeys := by
    show ((s.staged.application applicationId).bind _).elim _ _ = _
    rw [happlication, Option.bind_some, hbudget]
    rfl
  rw [hceilings]
  exact handed_stageKeyAllocations hdb hkeys h

theorem handed_stageSingleApiKeyAllocation {keyId bodyKeyId : Nat} {allocation : AllocationValue}
    (h : stageSingleApiKeyAllocation keyId bodyKeyId allocation db s = (.ok out, s')) :
    Handed s.staged ((Revision.singleKey keyId bodyKeyId allocation).ceilings s.staged) out
      s'.staged := by
  obtain ⟨key, application, budget, hkey, -, happlication, hbudget, h⟩ :=
    stageSingleApiKeyAllocation_accepted h
  have hceilings : (Revision.singleKey keyId bodyKeyId allocation).ceilings s.staged =
      keyCeilings budget [⟨keyId, allocation⟩] := by
    show ((s.staged.key keyId).bind _).elim _ _ = _
    rw [hkey, Option.bind_some, happlication, Option.bind_some, hbudget]
    rfl
  rw [hceilings]
  exact handed_stageKeyAllocations hdb hkeys h

theorem handed_stageTenantApplicationAllocations {tenantId : Nat}
    {rows : List ApplicationAllocationRow}
    (happs : (s.staged.applications.map (·.id)).Nodup)
    (h : stageTenantApplicationAllocations tenantId rows db s = (.ok out, s')) :
    Handed s.staged ((Revision.tenantApplications tenantId rows).ceilings s.staged) out
      s'.staged := by
  unfold stageTenantApplicationAllocations at h
  rw [read_bind] at h
  obtain ⟨tenant, htenant, h⟩ := check_bind h
  obtain ⟨budget, hbudget, h⟩ := check_bind h
  obtain ⟨_, -, h⟩ := check_bind h
  obtain ⟨_, -, h⟩ := check_bind h
  obtain ⟨usage, m, hm, h⟩ := bind_accepted h
  obtain ⟨rfl, rfl⟩ := fetchBudgetUsage_down hdb hm
  obtain ⟨resolved, m', hm', h⟩ := bind_accepted h
  obtain ⟨hresolve, rfl⟩ := resolveAndPersistApplications_accepted hm'
  obtain ⟨snapshots, m'', hm'', h⟩ := bind_accepted h
  obtain ⟨rfl, rfl⟩ := pure_accepted h
  have hres := resolveLevel_ok (applicationRows_nodup happs [] tenantId) hresolve
  obtain ⟨hwritten, hflags⟩ := written_cascades
    (s := { m with staged := m.staged.mapApplications fun id share => share.resolve resolved id })
    hkeys hres.ids (fun _ _ => rfl) rfl Written.empty hm''
  refine ⟨hwritten.congr fun e => ?_, rfl, hflags⟩
  exact mem_tenant_ceilings (orRaise_ok htenant) (orRaise_ok hbudget) hres e

end Endpoints

/-! ## After the commit -/

/-- The keys `set_budget_exhausted_for_keys` reaches. -/
def touched (t : Tables) (ids : List Nat) : List Nat :=
  (t.keys.filter fun k => k.id ∈ ids ∧ k.patchable).map (·.id)

def Tables.patchFlags (t : Tables) (ids : List Nat) (value : Bool) : Tables :=
  { t with keys := t.keys.map (patchFlag ids value) }

theorem patchFlags_nil (t : Tables) (value : Bool) : t.patchFlags [] value = t := by
  have hkeys : t.keys.map (patchFlag [] value) = t.keys := by
    conv_rhs => rw [← List.map_id t.keys]
    refine List.map_congr_left fun k _ => ?_
    rw [patchFlag, if_neg (by simp)]
    rfl
  unfold Tables.patchFlags
  rw [hkeys]

theorem patchRedis_nil (value : Bool) (redis : List (Nat × Bool)) :
    patchRedis [] value redis = redis := by
  unfold patchRedis
  simp

theorem setBudgetExhaustedForKeys_run (ids : List Nat) (value : Bool) (t : Tables)
    (o : Outside) :
    setBudgetExhaustedForKeys ids value ⟨t, t, o⟩ =
      (.ok (), ⟨t.patchFlags ids value, t.patchFlags ids value,
        { o with redis := patchRedis (touched t ids) value o.redis }⟩) := by
  unfold setBudgetExhaustedForKeys
  split
  · rename_i hnone
    subst hnone
    have htouched : touched t [] = [] := by
      unfold touched
      simp
    rw [patchFlags_nil, htouched, patchRedis_nil]
    rfl
  · rfl

theorem writeBudgetSnapshot_run (snapshots : Dict Nat ℚ) (db : Option Connection)
    (s : Session Tables Outside) :
    ∃ ledger, writeBudgetSnapshot snapshots db s =
      (.ok (), { s with outside := { s.outside with budgetUsage := ledger } }) := by
  unfold writeBudgetSnapshot
  split
  · exact ⟨s.outside.budgetUsage, rfl⟩
  · split
    · exact ⟨s.outside.budgetUsage, rfl⟩
    · exact ⟨_, rfl⟩

/-- With the usage unread, every key with a positive new ceiling is cleared. -/
theorem finalize_unread {snapshots : Dict Nat ℚ} (hpositive : ∀ e ∈ snapshots, 0 < e.2)
    (db : Option Connection) (s : Session Tables Outside) :
    ∃ ledger, finalize snapshots [] db s =
      (.ok (), ⟨s.staged.patchFlags (snapshots.map Prod.fst) false,
        s.staged.patchFlags (snapshots.map Prod.fst) false,
        ⟨ledger, patchRedis (touched s.staged (snapshots.map Prod.fst)) false
          s.outside.redis⟩⟩) := by
  obtain ⟨ledger, hwrite⟩ := writeBudgetSnapshot_run snapshots db { s with committed := s.staged }
  have hexhausted : (snapshots.filter fun e => e.2 ≤ (usageOf [] e.1).1) = [] := by
    refine List.filter_eq_nil_iff.mpr fun e he => ?_
    have hpos : ¬ e.2 ≤ 0 := not_le.mpr (hpositive e he)
    simp [usageOf, hpos]
  have hclear : (snapshots.filter fun e => !(e.2 ≤ (usageOf [] e.1).1)) = snapshots := by
    refine List.filter_eq_self.mpr fun e he => ?_
    have hpos : ¬ e.2 ≤ 0 := not_le.mpr (hpositive e he)
    simp [usageOf, hpos]
  refine ⟨ledger, ?_⟩
  unfold finalize syncKeyExhaustionFlags
  rw [commit_bind, bind_of_ok hwrite, hexhausted, hclear]
  exact setBudgetExhaustedForKeys_run (snapshots.map Prod.fst) false s.staged
    { s.outside with budgetUsage := ledger }

/-! ## When no flag is lost -/

/-- Every key whose `budget-exhausted` flag was set, in its snapshot or in a hash in Redis,
has it still. -/
def KeepsFlags (w w' : World) : Prop :=
  (∀ id k, w.1.key id = some k → k.cachedFlag = some true →
    ∃ k', w'.1.key id = some k' ∧ k'.cachedFlag = some true) ∧
  ∀ e ∈ w.2.redis, e.2 = true → e ∈ w'.2.redis

/-- No ceiling moves a key that has the flag and that the sync would reach. -/
def Unflagged (w : World) (ceilings : List (Nat × ℚ)) : Prop :=
  ∀ e ∈ ceilings, ∀ k, w.1.key e.1 = some k → e.2 ≠ k.amount → k.patchable = true →
    k.cachedFlag ≠ some true ∧ (e.1, true) ∉ w.2.redis

section Flags

variable {w : World} (hkeys : (w.1.keys.map (·.id)).Nodup) {t : Tables}
  (hflags : t.keys.map (·.noShare) = w.1.keys.map (·.noShare))

include hflags in
/-- Staging did not touch what the sync looks at. -/
theorem key_staged {id : Nat} {k : APIKey} (hk : w.1.key id = some k) :
    ∃ k', t.key id = some k' ∧ k'.noShare = k.noShare := by
  have hlookup : ∀ keys : List APIKey, (Table.get (·.id) keys id).map (·.noShare) =
      Table.get (·.id) (keys.map (·.noShare)) id := by
    intro keys
    rw [Table.get_map (by intro r; rfl)]
  have hsame : (t.key id).map (·.noShare) = (w.1.key id).map (·.noShare) := by
    unfold Tables.key
    rw [hlookup, hlookup, hflags]
  rw [hk] at hsame
  obtain ⟨k', hk', hno⟩ := Option.map_eq_some_iff.mp hsame
  exact ⟨k', hk', hno⟩

theorem patchable_of_noShare {k k' : APIKey} (h : k'.noShare = k.noShare) :
    k'.patchable = k.patchable := by
  show k'.noShare.patchable = k.noShare.patchable
  rw [h]

theorem cachedFlag_of_noShare {k k' : APIKey} (h : k'.noShare = k.noShare) :
    k'.cachedFlag = k.cachedFlag := by
  show k'.noShare.cachedFlag = k.noShare.cachedFlag
  rw [h]

include hkeys hflags in
/-- The sync reaches a key when its id is among the ids and the row is patchable. -/
theorem mem_touched {ids : List Nat} {id : Nat} :
    id ∈ touched t ids ↔ id ∈ ids ∧ ∃ k, w.1.key id = some k ∧ k.patchable = true := by
  have hstaged : (t.keys.map (·.id)).Nodup := ids_of_noShare hflags ▸ hkeys
  unfold touched
  rw [List.mem_map]
  constructor
  · rintro ⟨k', hk', rfl⟩
    obtain ⟨hmem, hcond⟩ := List.mem_filter.mp hk'
    obtain ⟨hid, hpatch⟩ := of_decide_eq_true hcond
    have hfound : ∃ k, w.1.key k'.id = some k ∧ k'.noShare = k.noShare := by
      have hno : k'.noShare ∈ w.1.keys.map (·.noShare) := hflags ▸ List.mem_map_of_mem hmem
      obtain ⟨k, hk, hkno⟩ := List.mem_map.mp hno
      have hkid : k.id = k'.id := by
        show k.noShare.id = k'.noShare.id
        rw [hkno]
      exact ⟨k, hkid ▸ Table.get_of_mem hkeys hk, hkno.symm⟩
    obtain ⟨k, hk, hno⟩ := hfound
    exact ⟨hid, k, hk, patchable_of_noShare hno ▸ hpatch⟩
  · rintro ⟨hid, k, hk, hpatch⟩
    obtain ⟨k', hk', hno⟩ := key_staged hflags hk
    have hkid : k'.id = id := Table.key_of_get hk'
    refine ⟨k', List.mem_filter.mpr ⟨Table.mem_of_get hk', ?_⟩, hkid⟩
    rw [decide_eq_true_iff, hkid, patchable_of_noShare hno]
    exact ⟨hid, hpatch⟩

include hkeys in
/-- The keys whose snapshot is written are those with a ceiling that moves them. -/
theorem Written.mem_iff {ceilings snapshots : List (Nat × ℚ)}
    (hwritten : Written w.1 ceilings snapshots) {id : Nat} {k : APIKey} (hk : w.1.key id = some k) :
    id ∈ snapshots.map Prod.fst ↔ ∃ amount, (id, amount) ∈ ceilings ∧ amount ≠ k.amount := by
  have hkid : k.id = id := Table.key_of_get hk
  constructor
  · intro hid
    obtain ⟨e, he, rfl⟩ := List.mem_map.mp hid
    obtain ⟨-, hceil, k', hk', hk'id, hmoved⟩ := hwritten.sound e he
    obtain rfl := List.inj_on_of_nodup_map hkeys hk' (Table.mem_of_get hk) (hk'id.trans hkid.symm)
    exact ⟨e.2, hceil, hmoved⟩
  · rintro ⟨amount, hceil, hmoved⟩
    exact hwritten.complete (id, amount) hceil k (Table.mem_of_get hk) hkid hmoved

theorem key_patchFlags {ids : List Nat} {value : Bool} {id : Nat} {k : APIKey}
    (hk : t.key id = some k) : (t.patchFlags ids value).key id = some (patchFlag ids value k) := by
  unfold Tables.key Tables.patchFlags
  rw [Table.get_map (by intro k; unfold patchFlag; split <;> rfl)]
  exact congrArg _ hk

include hkeys hflags in
/-- The flags survive the sync exactly when it reaches no key that has one. -/
theorem keepsFlags_iff {ceilings snapshots : List (Nat × ℚ)}
    (hwritten : Written w.1 ceilings snapshots) (ledger : List BudgetUsage) :
    KeepsFlags w (t.patchFlags (snapshots.map Prod.fst) false,
        ⟨ledger, patchRedis (touched t (snapshots.map Prod.fst)) false w.2.redis⟩) ↔
      Unflagged w ceilings := by
  constructor
  · rintro ⟨hcached, hredis⟩ e he k hk hmoved hpatch
    have hid : e.1 ∈ snapshots.map Prod.fst := (hwritten.mem_iff hkeys hk).mpr ⟨e.2, he, hmoved⟩
    obtain ⟨k₁, hk₁, hno⟩ := key_staged hflags hk
    constructor
    · intro htrue
      obtain ⟨k', hk', hflag⟩ := hcached e.1 k hk htrue
      have hafter := (key_patchFlags hk₁).symm.trans hk'
      obtain rfl := Option.some.inj hafter
      have hkid : k₁.id = e.1 := Table.key_of_get hk₁
      rw [patchFlag, if_pos ⟨hkid ▸ hid, (patchable_of_noShare hno).trans hpatch⟩] at hflag
      cases hflag
    · intro hmem
      obtain ⟨x, hx, heq⟩ := List.mem_map.mp (hredis (e.1, true) hmem rfl)
      split at heq
      · cases (Prod.mk.inj heq).2
      · rename_i hnot
        subst heq
        exact hnot ((mem_touched hkeys hflags).mpr ⟨hid, k, hk, hpatch⟩)
  · intro hun
    refine ⟨fun id k hk htrue => ?_, fun e he htrue => ?_⟩
    · obtain ⟨k₁, hk₁, hno⟩ := key_staged hflags hk
      have hkid : k₁.id = id := Table.key_of_get hk₁
      refine ⟨_, key_patchFlags hk₁, ?_⟩
      unfold patchFlag
      split
      · rename_i hcond
        obtain ⟨amount, hceil, hmoved⟩ := (hwritten.mem_iff hkeys hk).mp (hkid ▸ hcond.1)
        have hpatch := (patchable_of_noShare hno).symm.trans hcond.2
        exact absurd htrue (hun (id, amount) hceil k hk hmoved hpatch).1
      · exact (cachedFlag_of_noShare hno).trans htrue
    · by_cases htouched : e.1 ∈ touched t (snapshots.map Prod.fst)
      · obtain ⟨hid, k, hk, hpatch⟩ := (mem_touched hkeys hflags).mp htouched
        obtain ⟨amount, hceil, hmoved⟩ := (hwritten.mem_iff hkeys hk).mp hid
        have hmem : (e.1, true) ∈ w.2.redis := htrue ▸ he
        exact absurd hmem (hun (e.1, amount) hceil k hk hmoved hpatch).2
      · exact List.mem_map.mpr ⟨e, he, if_neg htouched⟩

end Flags

/-! ## The four requests -/

/-- An endpoint that stages, commits and syncs the flags. -/
theorem endpoint_keepsFlags_iff {w : World} (hkeys : (w.1.keys.map (·.id)).Nodup)
    {p : Handler (Dict Nat ℚ × List BudgetUsage)} {db : Option Connection}
    {ceilings : List (Nat × ℚ)} (hstages : Stages p)
    (hhanded : ∀ out s', p ⟨w.1, w.1, w.2⟩ = (.ok out, s') → Handed w.1 ceilings out s'.staged)
    {u : Unit} (h : (call (p >>= fun r => finalize r.1 r.2 db) w).1 = .ok u) :
    KeepsFlags w (call (p >>= fun r => finalize r.1 r.2 db) w).2 ↔ Unflagged w ceilings := by
  have houtside := (hstages ⟨w.1, w.1, w.2⟩).2
  unfold call at h ⊢
  cases hrun : p ⟨w.1, w.1, w.2⟩ with
  | mk r m =>
    rw [hrun] at houtside
    cases r with
    | error e =>
      rw [bind_of_error hrun] at h
      cases h
    | ok out =>
      rw [bind_of_ok hrun]
      obtain ⟨hwritten, husage, hflags⟩ := hhanded out m hrun
      obtain ⟨ledger, hfinal⟩ :=
        finalize_unread (fun e he => (hwritten.sound e he).1) db m
      rw [husage, hfinal]
      have hredis : m.outside.redis = w.2.redis := congrArg Outside.redis houtside
      rw [hredis]
      exact keepsFlags_iff hkeys hflags hwritten ledger

theorem setBudgetExhaustedForTenant_none {t : Tables} {tenantId : Nat}
    (hnone : t.keysOfTenant tenantId = []) (value : Bool) (o : Outside) :
    setBudgetExhaustedForTenant tenantId value ⟨t, t, o⟩ = (.ok (), ⟨t, t, o⟩) := by
  have hrun : setBudgetExhaustedForTenant tenantId value ⟨t, t, o⟩ =
      (.ok (), ⟨t.patchFlags [] value, t.patchFlags [] value,
        { o with redis := patchRedis [] value o.redis }⟩) := by
    unfold setBudgetExhaustedForTenant
    rw [read_bind, hnone]
    rfl
  rw [hrun, patchFlags_nil, patchRedis_nil]

/-- The revision's sync does nothing when the usage cannot be read. -/
theorem syncPpuWalletAndExhaustion_down {c : Connection} (hc : c.readFails = true)
    (tenantId : Nat) (budget : ℚ) (t : Tables) (o : Outside) :
    syncPpuWalletAndExhaustion tenantId budget (some c) ⟨t, t, o⟩ = (.ok (), ⟨t, t, o⟩) := by
  unfold syncPpuWalletAndExhaustion
  rw [read_bind]
  by_cases hnone : (t.keysOfTenant tenantId).map (·.id) = []
  · have hread : fetchBudgetUsageOrRaise ((t.keysOfTenant tenantId).map (·.id)) (some c)
        ⟨t, t, o⟩ = (.ok (some []), ⟨t, t, o⟩) := by
      unfold fetchBudgetUsageOrRaise
      rw [hnone]
      rfl
    rw [bind_of_ok hread]
    show syncFromUsage tenantId budget ((t.keysOfTenant tenantId).map (·.id)) [] ⟨t, t, o⟩ = _
    unfold syncFromUsage
    split
    · exact setBudgetExhaustedForTenant_none (List.map_eq_nil_iff.mp hnone) true o
    · rw [hnone]
      rfl
  · have hread : fetchBudgetUsageOrRaise ((t.keysOfTenant tenantId).map (·.id)) (some c)
        ⟨t, t, o⟩ = (.ok none, ⟨t, t, o⟩) := by
      unfold fetchBudgetUsageOrRaise
      dsimp only
      rw [if_neg hnone, if_pos hc]
      rfl
    rw [bind_of_ok hread]
    rfl

theorem KeepsFlags.of_keys {w w' : World} (hkeys : w'.1.keys = w.1.keys)
    (hredis : w'.2.redis = w.2.redis) : KeepsFlags w w' := by
  refine ⟨fun id k hk htrue => ⟨k, ?_, htrue⟩, fun e he _ => hredis ▸ he⟩
  unfold Tables.key at hk ⊢
  rw [hkeys]
  exact hk

/-- The revision of a tenant's budget keeps every flag. -/
theorem reviseTenantBudget_keepsFlags {w : World} {db : Option Connection} (hdb : Down db)
    {tenantId : Nat} {topUp : Option TopUp} {u : Unit}
    (h : (call (reviseTenantBudget tenantId topUp db) w).1 = .ok u) :
    KeepsFlags w (call (reviseTenantBudget tenantId topUp db) w).2 := by
  have houtside := (stages_stageTenantBudget tenantId topUp db ⟨w.1, w.1, w.2⟩).2
  have hkeys : Keeps (fun t => t.keys = w.1.keys) (stageTenantBudget tenantId topUp db) := by
    unfold stageTenantBudget cascadeTenantBudgetRevision
    refine keeps_bind (keeps_read _) fun t => keeps_bind (keeps_check _) fun tenant => ?_
    refine keeps_bind (keeps_check _) fun budget => keeps_bind ?_ fun _ => ?_
    · refine keeps_bind (keeps_read _) fun t => ?_
      dsimp only
      split
      · exact keeps_pure _
      · refine keeps_bind (keeps_fetchBudgetUsage _ _) fun usage => ?_
        exact keeps_bind (keeps_check _) fun _ => keeps_stage fun t ht => ht
    · exact keeps_bind (keeps_stage fun t ht => ht) fun _ => keeps_pure _
  unfold call reviseTenantBudget at h ⊢
  cases hrun : stageTenantBudget tenantId topUp db ⟨w.1, w.1, w.2⟩ with
  | mk r m =>
    rw [hrun] at houtside
    cases r with
    | error e =>
      rw [bind_of_error hrun] at h
      cases h
    | ok budget =>
      rw [bind_of_ok hrun]
      have hstaged := (hkeys _ _ _ ⟨rfl, rfl⟩ hrun).2
      have hafter : afterBudgetRevision tenantId budget db m =
          (.ok (), { m with committed := m.staged }) := by
        unfold afterBudgetRevision
        rw [commit_bind]
        cases db with
        | none => rfl
        | some c => exact syncPpuWalletAndExhaustion_down (hdb c rfl) tenantId budget _ _
      rw [hafter]
      exact KeepsFlags.of_keys hstaged (congrArg Outside.redis houtside)

/-- **Flags during an outage.** When the usage cannot be read, a rejected request keeps
every flag, and an accepted one does exactly when it gives no new ceiling to a key with
the flag that the sync reaches. -/
theorem flags_survive_outage {w : World} (hkeys : (w.1.keys.map (·.id)).Nodup)
    (happs : (w.1.applications.map (·.id)).Nodup) {db : Option Connection} (hdb : Down db)
    (revision : Revision) :
    (∀ e, (call (revision.handler db) w).1 = .error e →
      KeepsFlags w (call (revision.handler db) w).2) ∧
    ∀ u, (call (revision.handler db) w).1 = .ok u →
      (KeepsFlags w (call (revision.handler db) w).2 ↔
        Unflagged w (revision.ceilings w.1)) := by
  constructor
  · intro e herror
    rw [atomic_revision revision db w e herror]
    exact KeepsFlags.of_keys rfl rfl
  · intro u hok
    cases revision with
    | tenantApplications tenantId rows =>
      change (call (updateTenantApplicationAllocations tenantId rows db) w).1 = _ at hok
      show KeepsFlags w (call (updateTenantApplicationAllocations tenantId rows db) w).2 ↔ _
      unfold updateTenantApplicationAllocations at hok ⊢
      refine endpoint_keepsFlags_iff hkeys (stages_stageTenantApplicationAllocations _ _ _)
        (fun out s' hrun => ?_) hok
      exact handed_stageTenantApplicationAllocations hdb hkeys happs hrun
    | applicationKeys applicationId bodyApplicationId allocation apiKeys =>
      change (call (updateApplicationKeyAllocations applicationId bodyApplicationId allocation
        apiKeys db) w).1 = _ at hok
      show KeepsFlags w (call (updateApplicationKeyAllocations applicationId bodyApplicationId
        allocation apiKeys db) w).2 ↔ _
      unfold updateApplicationKeyAllocations at hok ⊢
      refine endpoint_keepsFlags_iff hkeys (stages_stageApplicationKeyAllocations _ _ _ _ _)
        (fun out s' hrun => ?_) hok
      exact handed_stageApplicationKeyAllocations hdb hkeys hrun
    | singleKey keyId bodyKeyId allocation =>
      change (call (updateSingleApiKeyAllocation keyId bodyKeyId allocation db) w).1 = _ at hok
      show KeepsFlags w (call (updateSingleApiKeyAllocation keyId bodyKeyId allocation db) w).2 ↔ _
      unfold updateSingleApiKeyAllocation at hok ⊢
      refine endpoint_keepsFlags_iff hkeys (stages_stageSingleApiKeyAllocation _ _ _ _)
        (fun out s' hrun => ?_) hok
      exact handed_stageSingleApiKeyAllocation hdb hkeys hrun
    | tenantBudget tenantId topUp =>
      refine ⟨fun _ e he => absurd he List.not_mem_nil, fun _ => ?_⟩
      exact reviseTenantBudget_keepsFlags hdb hok

/-! ## A key that has overspent -/

/-- The platform-core database is configured and does not answer. -/
def unreachable : Option Connection := some ⟨true, true⟩

theorem down_unreachable : Down unreachable := by
  rintro c hc
  obtain rfl := Option.some.inj hc
  rfl

/-- Two keys with ₹50 and ₹20 of an Application with ₹100. The first has spent ₹55 and is
flagged, in its snapshot and in Redis. -/
def overspent : World :=
  (⟨[⟨1, some 1000⟩], [⟨⟨some 10, some 100⟩, 1, 1, .active⟩],
    [⟨⟨some 50, some 50⟩, 1, 1, true, false, some true⟩,
     ⟨⟨some 20, some 20⟩, 2, 1, true, false, some false⟩]⟩,
   ⟨upsertSnapshot [⟨1, 55, some 50, by norm_num⟩] (2, 20), [(1, true), (2, false)]⟩)

/-- ₹40 for the key that may hold it. -/
def forty (keyId : Nat) : Revision := .singleKey keyId keyId ⟨.fixed, 40, by norm_num, nofun⟩

/-- An edit of the second key leaves the flag of the first. -/
theorem flags_survive_outage_sample :
    KeepsFlags overspent (call ((forty 2).handler unreachable) overspent).2 := by
  have hceilings : (forty 2).ceilings overspent.1 = [(2, 40)] := by decide +kernel
  have haccepted : (call ((forty 2).handler unreachable) overspent).1 = .ok () := by
    decide +kernel
  refine ((flags_survive_outage (by decide +kernel) (by decide +kernel) down_unreachable
    (forty 2)).2 () haccepted).mpr fun e he k hk _ _ => ?_
  rw [hceilings, List.mem_singleton] at he
  subst he
  obtain rfl := Option.some.inj hk
  decide +kernel

/-- An edit of the key that has spent ₹55, down to ₹40, clears its flags. -/
theorem overspent_key_cleared :
    Down unreachable ∧ (call ((forty 1).handler unreachable) overspent).1 = .ok () ∧
      ¬ KeepsFlags overspent (call ((forty 1).handler unreachable) overspent).2 := by
  refine ⟨down_unreachable, by decide +kernel, fun h => ?_⟩
  have hkept := h.2 (1, true) (by decide +kernel) rfl
  exact absurd hkept (by decide +kernel)

end Ai4iCore.Allocation
