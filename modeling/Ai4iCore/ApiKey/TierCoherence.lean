import Ai4iCore.ApiKey.Tenant

/-!
# When the forwarded tier is the tenant's tier

The tier a request is forwarded under comes from the hash or the `cached_data` of
its key, and only the fan-out of `assign_tenant_tier` and `unassign_tenant_tier`
brings a change of `tenants.tier_id` there. The fan-out visits the keys that are
active, unexpired and have a snapshot. Two kinds of key escape it and can be
served later:

* a key created while its tenant is suspended has no snapshot, so the refresh on
  reactivation writes a hash without any tier (`forwards_no_tier`);
* a key that is expired during the fan-out keeps the old tier and serves it once
  its expiry is extended.

`tier_coherent` shows that there are no others: in every run in which keys are
created under an active application and tenant and no active key is expired
during a fan-out, what is forwarded is the tenant's tier.

The invariant is `Coherent`: every snapshot of an active key and every hash that
would be served carries the tenant's tier, and every such hash is *supported* by an
active row that outlives it, so that the fan-out reaches it. A handler breaks the
support of some values for a moment and then rewrites or deletes their hashes;
`CoherentUpTo` allows that.
-/

namespace Ai4iCore.ApiKey

open Concurrent StepSystem

/-! ## The invariant -/

/-- The tier as it is cached: the empty text when there is none. -/
def tierText (tierId : Option TierId) : String := (tierId.map Subtype.val).getD ""

/-- The record carries the tier `tier`. -/
def HasTier (tier : String) (d : Record Field) : Prop :=
  d.lookup tierIdField = some (.str tier)

/-- The row is active, lives at least until `deadline`, and has `v` as a value that
authenticates until then. -/
structure Supports (row : Row) (v : KeyValue) (deadline : Time) : Prop where
  active : row.isActive = true
  expiry : ∀ t, row.expiresAt = some t → deadline ≤ t
  value : v = row.apiKey ∨
    (row.rotatedKey = some v ∧ ∃ t, row.rotatedKeyExpiresAt = some t ∧ deadline ≤ t)

/-- A row as `create_api_key` and its successors leave it. -/
structure RowOk (tier : String) (row : Row) : Prop where
  expires : row.expiresAt.isSome
  snapshot : row.isActive = true → ∃ d, row.cachedData = some d ∧ HasTier tier d

/-- Coherence, with the support of the values in `W` suspended. -/
structure CoherentUpTo (tier : String) (W : KeyValue → Prop) (k : TenantKeys) : Prop where
  hashes : ∀ v e, k.redis v = some e → k.now < e.expiresAt →
    isCacheEntryInvalid e.fields = false →
    HasTier tier e.fields ∧ (W v ∨ ∃ row ∈ k.rows, Supports row v e.expiresAt)
  rows : ∀ row ∈ k.rows, RowOk tier row

/-- Every hash that would be served and every snapshot of an active key carries `tier`. -/
def Coherent (tier : String) (k : TenantKeys) : Prop := CoherentUpTo tier (fun _ => False) k

variable {tier : String} {W W' : KeyValue → Prop} {k : TenantKeys}

theorem CoherentUpTo.weaken (h : CoherentUpTo tier W k) (hW : ∀ v, W v → W' v) :
    CoherentUpTo tier W' k where
  hashes v e he hlive hvalid := by
    obtain ⟨htier, hsupport⟩ := h.hashes v e he hlive hvalid
    exact ⟨htier, hsupport.imp (hW v) id⟩
  rows := h.rows

/-! ## Payloads carry the tier -/

theorem hasTier_mergeFields {data : Payload} (old : Hash) (h : HasTier tier data) :
    HasTier tier (Redis.mergeFields old data) := by
  have hoverlay : HasTier tier (Record.overlay old (data.mapValues Field.cached)) := by
    rw [HasTier, Record.lookup_overlay, Record.lookup_mapValues, h]
    rfl
  unfold Redis.mergeFields
  dsimp only
  split
  · exact hoverlay
  · rw [HasTier, AList.lookup_erase_ne (by decide)]
    exact hoverlay

theorem lookup_billingFields (d : Record Field) :
    (billingFields d).lookup tierIdField = none :=
  Record.lookup_filterKeys_of_false d (by decide)

theorem hasTier_overlay_of_none {old new : Record Field} (hold : HasTier tier old)
    (hnew : new.lookup tierIdField = none) : HasTier tier (old.overlay new) := by
  rw [HasTier, Record.lookup_overlay, hnew]
  exact hold

theorem hasTier_overlay {old new : Record Field} (hnew : HasTier tier new) :
    HasTier tier (old.overlay new) := by
  rw [HasTier, Record.lookup_overlay, hnew]
  rfl

theorem hasTier_preservedTierId {row : Row} {d : Payload} (hd : row.cachedData = some d)
    (h : HasTier tier d) : HasTier tier (preservedTierId row) := by
  have hlookup : (row.cachedData.getD ∅).lookup tierIdField = some (.str tier) := by
    rw [hd]
    exact h
  rw [HasTier, preservedTierId, hlookup]
  rfl

/-- A rebuilt payload keeps the tier of the snapshot. -/
theorem hasTier_buildCachePayload {row : Row} {tenantId : Option Nat}
    {budgetEffectiveTo : Option Time} {extra : Payload} (h : HasTier tier extra) :
    HasTier tier (buildCachePayload row tenantId budgetEffectiveTo extra) :=
  hasTier_overlay h

/-! ## TTLs end with the row -/

/-- A positive TTL of at most the whole seconds left does not run past the end. -/
theorem add_ttl_le {now t n : Nat} (hn : n ≤ (t - now) / second) (hpos : 0 < n) :
    now + n * second ≤ t := by
  have hmul : n * second ≤ t - now :=
    Nat.le_trans (Nat.mul_le_mul_right second hn) (Nat.div_mul_le_self (t - now) second)
  have hsecond : 0 < n * second := Nat.mul_pos hpos (by decide)
  omega

/-- The TTL of a value is at most that of the key. -/
theorem cacheTtlFor_le (settings : Settings) (row : Row) (v : KeyValue) (now : Time) :
    cacheTtlFor settings row v now ≤ computeCacheTtl settings row now := by
  unfold cacheTtlFor
  split
  · split
    · exact Nat.zero_le _
    · exact Nat.min_le_right _ _
  · exact Nat.le_refl _

/-- A hash written with the TTL of a live value is supported by its row. -/
theorem supports_of_ttl {settings : Settings} {row : Row} {v : KeyValue} {now : Time}
    (hactive : row.isActive = true) (hv : v ∈ row.cacheKeyValues now)
    (httl : 0 < cacheTtlFor settings row v now) :
    Supports row v (now + cacheTtlFor settings row v now * second) := by
  have hcompute := cacheTtlFor_le settings row v now
  refine ⟨hactive, fun t ht => ?_, ?_⟩
  · rw [computeCacheTtl, ht] at hcompute
    exact add_ttl_le hcompute httl
  · by_cases hne : v = row.apiKey
    · exact .inl hne
    · obtain hself | hrotated := List.mem_cons.mp hv
      · exact absurd hself hne
      · right
        rw [Option.mem_toList, Row.liveRotatedKey] at hrotated
        cases hexp : row.rotatedKeyExpiresAt with
        | none =>
          rw [hexp] at hrotated
          cases hrotated
        | some t =>
          rw [hexp] at hrotated
          dsimp only at hrotated
          split at hrotated
          · refine ⟨hrotated, t, rfl, add_ttl_le ?_ httl⟩
            rw [cacheTtlFor, if_pos ⟨hne, hrotated⟩, hexp]
            exact Nat.min_le_left _ _
          · cases hrotated

/-! ## What single operations do to coherence -/

namespace CoherentUpTo

/-- Writing a hash for a value of a row that supports it settles that value. -/
theorem setApiKeyCache (h : CoherentUpTo tier W k) {v : KeyValue} {ttl : Nat} {data : Payload}
    (hdata : HasTier tier data) {row : Row} (hrow : row ∈ k.rows)
    (hsupport : Supports row v (k.now + ttl * second)) :
    CoherentUpTo tier (fun u => W u ∧ u ≠ v)
      { k with redis := k.redis.setApiKeyCache k.now v ttl data } where
  hashes u e he hlive hvalid := by
    by_cases hu : u = v
    · subst hu
      obtain rfl := Option.some.inj ((Function.update_self u _ _).symm.trans he)
      exact ⟨hasTier_mergeFields _ hdata, .inr ⟨row, hrow, hsupport⟩⟩
    · obtain ⟨htier, hsup⟩ :=
        h.hashes u e ((Function.update_of_ne hu _ _).symm.trans he) hlive hvalid
      exact ⟨htier, hsup.imp (fun hW => ⟨hW, hu⟩) id⟩
  rows := h.rows

/-- A tombstone is never served. -/
theorem tombstone (h : CoherentUpTo tier W k) (v : KeyValue) (ttl : Nat) :
    CoherentUpTo tier W
      { k with redis := k.redis.setApiKeyCache k.now v ttl ApiKey.tombstone } where
  hashes u e he hlive hvalid := by
    by_cases hu : u = v
    · subst hu
      obtain rfl := Option.some.inj ((Function.update_self u _ _).symm.trans he)
      rw [Redis.isCacheEntryInvalid_merge_tombstone] at hvalid
      cases hvalid
    · exact h.hashes u e ((Function.update_of_ne hu _ _).symm.trans he) hlive hvalid
  rows := h.rows

/-- Deleting a hash settles its value. -/
theorem deleteApiKeyCache (h : CoherentUpTo tier W k) (v : KeyValue) :
    CoherentUpTo tier (fun u => W u ∧ u ≠ v)
      { k with redis := k.redis.deleteApiKeyCache v } where
  hashes u e he hlive hvalid := by
    by_cases hu : u = v
    · subst hu
      cases (Function.update_self u _ _).symm.trans he
    · obtain ⟨htier, hsup⟩ :=
        h.hashes u e ((Function.update_of_ne hu _ _).symm.trans he) hlive hvalid
      exact ⟨htier, hsup.imp (fun hW => ⟨hW, hu⟩) id⟩
  rows := h.rows

/-- Changing row `i` suspends the values that it supported and no longer does. -/
theorem setRow (h : CoherentUpTo tier W k) {i : Nat} {row row' : Row}
    (hi : k.rows[i]? = some row) (hok : RowOk tier row')
    (hW : ∀ v, W v → W' v)
    (hsupport : ∀ v deadline, k.now < deadline → Supports row v deadline →
      W' v ∨ Supports row' v deadline) :
    CoherentUpTo tier W' { k with rows := k.rows.set i row' } where
  hashes v e he hlive hvalid := by
    obtain ⟨htier, hsup⟩ := h.hashes v e he hlive hvalid
    refine ⟨htier, ?_⟩
    obtain hWv | ⟨r, hr, hsupports⟩ := hsup
    · exact .inl (hW v hWv)
    · have hlt : i < k.rows.length := (List.getElem?_eq_some_iff.mp hi).1
      obtain ⟨j, hj⟩ := List.mem_iff_getElem?.mp hr
      by_cases hij : i = j
      · subst hij
        rw [hi] at hj
        obtain rfl := Option.some.inj hj
        obtain hpending | hstill := hsupport v _ hlive hsupports
        · exact .inl hpending
        · exact .inr ⟨row', List.mem_set hlt row', hstill⟩
      · refine .inr ⟨r, List.mem_iff_getElem?.mpr ⟨j, ?_⟩, hsupports⟩
        rw [List.getElem?_set_ne hij]
        exact hj
  rows r hr := by
    obtain hr | rfl := List.mem_or_eq_of_mem_set hr
    · exact h.rows r hr
    · exact hok

end CoherentUpTo

/-- Time only lets hashes expire. -/
theorem Coherent.tick (h : Coherent tier k) (elapsed : Time) :
    Coherent tier { k with now := k.now + elapsed } where
  hashes v e he hlive hvalid :=
    h.hashes v e he (Nat.lt_of_le_of_lt (Nat.le_add_right _ _) hlive) hvalid
  rows := h.rows

/-- Evicting the hashes of rows settles all their values. -/
theorem CoherentUpTo.deleteCachesOf (h : CoherentUpTo tier W k) (rows : List Row) :
    CoherentUpTo tier (fun v => W v ∧ v ∉ rows.flatMap Row.values) (k.deleteCachesOf rows) := by
  unfold TenantKeys.deleteCachesOf
  generalize rows.flatMap Row.values = vs
  induction vs generalizing k W with
  | nil => exact h.weaken fun v hv => ⟨hv, List.not_mem_nil⟩
  | cons value vs ih =>
    refine (ih (h.deleteApiKeyCache value)).weaken ?_
    rintro v ⟨⟨hv, hne⟩, hnotin⟩
    exact ⟨hv, fun hmem => (List.mem_cons.mp hmem).elim hne hnotin⟩

theorem Coherent.deleteCachesOf (h : Coherent tier k) (rows : List Row) :
    Coherent tier (k.deleteCachesOf rows) :=
  (CoherentUpTo.deleteCachesOf h rows).weaken fun _ hW => hW.1

/-! ## Frame -/

/-- A guarded `UPDATE` touches the rows only. -/
theorem updateRow_frame (k : TenantKeys) (i : Nat) (f : Row → Option Row) :
    (k.updateRow i f).1.now = k.now ∧ (k.updateRow i f).1.tenant = k.tenant ∧
      (k.updateRow i f).1.applications = k.applications := by
  unfold TenantKeys.updateRow
  split <;> exact ⟨rfl, rfl, rfl⟩

/-- No operation touches the clock, the tenant or its applications. -/
theorem execAt_frame (i : Nat) (o : Op) (k : TenantKeys) :
    (execAt i o k).1.now = k.now ∧ (execAt i o k).1.tenant = k.tenant ∧
      (execAt i o k).1.applications = k.applications := by
  cases o with
  | rotate current new expiresAt now => exact updateRow_frame k i _
  | endRotation rotated now => exact updateRow_frame k i _
  | extendRotation rotated new now => exact updateRow_frame k i _
  | _ => exact ⟨rfl, rfl, rfl⟩

/-- So no handler does. -/
theorem handle_frame {α : Type} (p : Handler α) (i : Nat) (k : TenantKeys) :
    (k.handle i p).now = k.now ∧ (k.handle i p).tenant = k.tenant ∧
      (k.handle i p).applications = k.applications := by
  induction p generalizing k with
  | ret a => exact ⟨rfl, rfl, rfl⟩
  | raise e => exact ⟨rfl, rfl, rfl⟩
  | op o rest ih =>
    obtain ⟨hnow, htenant, happs⟩ := execAt_frame i o k
    obtain ⟨hnow', htenant', happs'⟩ := ih (some (execAt i o k).2) (execAt i o k).1
    exact ⟨hnow'.trans hnow, htenant'.trans htenant, happs'.trans happs⟩

/-! ## Handlers at work on a row -/

theorem modify_eq_set_of_getElem? {l : List Row} {i : Nat} {row : Row} (f : Row → Row)
    (h : l[i]? = some row) : l.modify i f = l.set i (f row) := by
  refine List.ext_getElem? fun j => ?_
  by_cases hij : i = j
  · subst hij
    have hlt : i < l.length := (List.getElem?_eq_some_iff.mp h).1
    rw [List.getElem?_modify_eq, h, List.getElem?_set_self hlt]
    rfl
  · rw [List.getElem?_modify_ne f l hij, List.getElem?_set_ne hij]

/-- A handler is at work on row `i` at the instant `now`, its copy `row` is up to date, and
the values in `W` are still to be settled. -/
structure Working (tier : String) (W : KeyValue → Prop) (now : Time) (i : Nat) (row : Row)
    (k : TenantKeys) : Prop where
  coherent : CoherentUpTo tier W k
  now : k.now = now
  row : k.rows[i]? = some row

variable {now : Time} {i : Nat} {row : Row} {settings : Settings}

theorem Working.mem (h : Working tier W now i row k) : row ∈ k.rows :=
  List.mem_iff_getElem?.mpr ⟨i, h.row⟩

theorem Working.rowOk (h : Working tier W now i row k) : RowOk tier row :=
  h.coherent.rows row h.mem

theorem Working.weaken (h : Working tier W now i row k) (hW : ∀ v, W v → W' v) :
    Working tier W' now i row k :=
  ⟨h.coherent.weaken hW, h.now, h.row⟩

/-- Replacing the row the handler works on. -/
theorem Working.setRow (h : Working tier W now i row k) {row' : Row} (hok : RowOk tier row')
    (hW : ∀ v, W v → W' v)
    (hsupport : ∀ v deadline, now < deadline → Supports row v deadline →
      W' v ∨ Supports row' v deadline) :
    Working tier W' now i row' { k with rows := k.rows.set i row' } where
  coherent := h.coherent.setRow h.row hok hW (h.now ▸ hsupport)
  now := h.now
  row := List.getElem?_set_self (List.getElem?_eq_some_iff.mp h.row).1

/-- `UPDATE` of columns of the row, as an operation. -/
theorem Working.update (h : Working tier W now i row k) {u : RowUpdate}
    (hok : RowOk tier (row.apply u)) (hW : ∀ v, W v → W' v)
    (hsupport : ∀ v deadline, now < deadline → Supports row v deadline →
      W' v ∨ Supports (row.apply u) v deadline) :
    Working tier W' now i (row.apply u) (execAt i (.update (u.dirty row)) k).1 := by
  have hset : (execAt i (.update (u.dirty row)) k).1 =
      { k with rows := k.rows.set i (row.apply u) } := by
    rw [← Row.apply_dirty row u]
    simp only [execAt]
    rw [modify_eq_set_of_getElem? _ h.row]
  rw [hset]
  exact h.setRow hok hW hsupport

/-- Deleting the hashes of `vs` settles them. -/
theorem deleteEach_yields (vs : List KeyValue) (h : Working tier W now i row k) :
    Prog.Yields (execAt i)
      (fun r k' => r = .ok () ∧ Working tier (fun v => W v ∧ v ∉ vs) now i row k')
      (Prog.each (fun v => perform (.deleteApiKeyCache v)) vs) k := by
  induction vs generalizing k W with
  | nil => exact ⟨rfl, h.weaken fun v hv => ⟨hv, List.not_mem_nil⟩⟩
  | cons value vs ih =>
    refine Prog.yields_perform ?_
    have hdeleted : Working tier (fun v => W v ∧ v ≠ value) now i row
        (execAt i (.deleteApiKeyCache value) k).1 :=
      ⟨h.coherent.deleteApiKeyCache value, h.now, h.row⟩
    refine (ih hdeleted).mono fun r k' hr => ⟨hr.1, hr.2.weaken ?_⟩
    rintro v ⟨⟨hv, hne⟩, hnotin⟩
    exact ⟨hv, fun hmem => (List.mem_cons.mp hmem).elim hne hnotin⟩

/-- A snapshot changes nothing but the snapshot. -/
theorem persistCacheSnapshot_yields {payload : Payload} (h : Working tier W now i row k)
    (hpayload : row.isActive = true → HasTier tier payload) :
    Prog.Yields (execAt i)
      (fun r k' => ∃ d, r = .ok { row with cachedData := some d } ∧
        Working tier W now i { row with cachedData := some d } k')
      (persistCacheSnapshot row payload) k := by
  refine Prog.yields_perform ?_
  refine ⟨(preservedBillingFields row).overlay payload, rfl, ?_⟩
  refine Working.update (u := { cachedData := some _ }) h
    ⟨h.rowOk.expires, fun hactive => ⟨_, rfl, ?_⟩⟩ (fun v hv => hv) ?_
  · exact hasTier_overlay (hpayload hactive)
  · intro v deadline _ hsupports
    exact .inr ⟨hsupports.active, hsupports.expiry, hsupports.value⟩

/-- One write of `_refresh_redis_cache` settles its value, if the TTL is positive. -/
theorem writeValue_yields {payload : Payload} (hpayload : HasTier tier payload)
    (hactive : row.isActive = true) {value : KeyValue} (hvalue : value ∈ row.cacheKeyValues now)
    (h : Working tier W now i row k) :
    Prog.Yields (execAt i)
      (fun r k' => r = .ok () ∧
        Working tier (fun v => W v ∧ ¬ (v = value ∧ 0 < cacheTtlFor settings row v now)) now i row k')
      (writeValue settings row payload value) k := by
  refine Prog.yields_perform ?_
  have hnow : (execAt i .now k).2 = now := h.now
  rw [hnow]
  dsimp only
  by_cases hzero : cacheTtlFor settings row value now = 0
  · -- nothing is written for a value about to end
    rw [if_pos hzero]
    refine ⟨rfl, h.weaken fun v hv => ⟨hv, ?_⟩⟩
    rintro ⟨rfl, hpos⟩
    exact absurd hzero (Nat.ne_of_gt hpos)
  · rw [if_neg hzero]
    have hsupports : Supports row value (now + cacheTtlFor settings row value now * second) :=
      supports_of_ttl hactive hvalue (Nat.pos_of_ne_zero hzero)
    have hwritten : Working tier (fun v => W v ∧ v ≠ value) now i row
        (execAt i (.setApiKeyCache value (cacheTtlFor settings row value now) payload) k).1 :=
      ⟨h.coherent.setApiKeyCache hpayload h.mem (h.now ▸ hsupports), h.now, h.row⟩
    exact ⟨rfl, hwritten.weaken fun v hv => ⟨hv.1, fun heq => hv.2 heq.1⟩⟩

/-- The write loop settles all its values with a positive TTL. -/
theorem writeEach_yields {payload : Payload} (hpayload : HasTier tier payload)
    (hactive : row.isActive = true) (vs : List KeyValue)
    (hvs : ∀ v ∈ vs, v ∈ row.cacheKeyValues now) (h : Working tier W now i row k) :
    Prog.Yields (execAt i)
      (fun r k' => r = .ok () ∧
        Working tier (fun v => W v ∧ ¬ (v ∈ vs ∧ 0 < cacheTtlFor settings row v now)) now i row k')
      (Prog.each (writeValue settings row payload) vs) k := by
  induction vs generalizing k W with
  | nil => exact ⟨rfl, h.weaken fun v hv => ⟨hv, fun hmem => List.not_mem_nil hmem.1⟩⟩
  | cons value vs ih =>
    refine Prog.yields_bind ((writeValue_yields  hpayload hactive
      (hvs value List.mem_cons_self) h).mono ?_)
    rintro r k' ⟨rfl, hk'⟩
    refine (ih (fun v hv => hvs v (List.mem_cons_of_mem value hv)) hk').mono ?_
    rintro r k'' ⟨rfl, hk''⟩
    refine ⟨rfl, hk''.weaken ?_⟩
    rintro v ⟨⟨hv, hne⟩, hnot⟩
    refine ⟨hv, fun ⟨hmem, hpos⟩ => ?_⟩
    obtain rfl | hmem := List.mem_cons.mp hmem
    · exact hne ⟨rfl, hpos⟩
    · exact hnot ⟨hmem, hpos⟩

/-- **`_refresh_redis_cache`** settles every live value with a positive TTL and changes
nothing of the row but its snapshot. -/
theorem refreshRedisCache_yields {tenantId : Option Nat} {budgetEffectiveTo : Option Time}
    (hactive : row.isActive = true) (h : Working tier W now i row k) :
    Prog.Yields (execAt i)
      (fun r k' => ∃ d, r = .ok { row with cachedData := d } ∧
        Working tier (fun v => W v ∧
          ¬ (v ∈ row.cacheKeyValues now ∧ 0 < cacheTtlFor settings row v now))
          now i { row with cachedData := d } k')
      (refreshRedisCache settings row tenantId budgetEffectiveTo) k := by
  refine Prog.yields_perform ?_
  have hnow : (execAt i .now k).2 = now := h.now
  rw [hnow]
  by_cases hzero : computeCacheTtl settings row now = 0
  · rw [if_pos hzero]
    refine ⟨row.cachedData, rfl, h.weaken fun v hv => ⟨hv, fun hmem => ?_⟩⟩
    have hle := cacheTtlFor_le settings row v now
    rw [hzero] at hle
    exact absurd hle (Nat.not_le_of_gt hmem.2)
  · rw [if_neg hzero]
    refine Prog.yields_perform (Prog.yields_perform ?_)
    dsimp only
    obtain ⟨d, hd, htier⟩ := h.rowOk.snapshot hactive
    have hpayload : HasTier tier (buildCachePayload row tenantId budgetEffectiveTo
        ((preservedTierId row).overlay ((preservedBillingFields row).overlay
          (billingFields ((k.redis.getApiKeyCache k.now row.apiKey).getD ∅))))) := by
      refine hasTier_buildCachePayload
        (hasTier_overlay_of_none (hasTier_preservedTierId hd htier) ?_)
      rw [Record.lookup_overlay, lookup_billingFields, preservedBillingFields,
        lookup_billingFields]
      rfl
    refine Prog.yields_bind ((writeEach_yields  hpayload hactive
      (row.cacheKeyValues k.now) (fun v hv => h.now ▸ hv) h).mono ?_)
    rintro r k' ⟨rfl, hk'⟩
    refine (persistCacheSnapshot_yields hk' fun _ => hpayload).mono ?_
    rintro r k'' ⟨d', rfl, hk''⟩
    rw [h.now] at hk''
    exact ⟨some d', rfl, hk''⟩

/-! ## The handlers keep coherence -/

/-- Whatever a handler answers, the state is coherent. -/
def StaysCoherent (tier : String) {α : Type} (_ : Except ServiceError α) (k : TenantKeys) : Prop :=
  Coherent tier k

/-- Reading the clock. -/
theorem now_yields {α : Type} {Q : Except ServiceError α → TenantKeys → Prop}
    {f : Time → Handler α} (h : Prog.Yields (execAt i) Q (f k.now) k) :
    Prog.Yields (execAt i) Q ((perform .now).bind f) k :=
  h

/-- Loading the application and the tenant, whatever they are. -/
theorem owners_yields {α : Type} {Q : Except ServiceError α → TenantKeys → Prop}
    {f : Option Application × Option Tenant → Handler α}
    (h : ∀ owners, Prog.Yields (execAt i) Q (f owners) k) :
    Prog.Yields (execAt i) Q ((perform .applicationAndTenant).bind f) k :=
  h _

/-- Loading row `i`. -/
theorem loadRow_yields {α : Type} {Q : Except ServiceError α → TenantKeys → Prop}
    {f : Row → Handler α}
    (hsome : ∀ row, k.rows[i]? = some row → Prog.Yields (execAt i) Q (f row) k)
    (hnone : Q (.error .entityNotFound) k) :
    Prog.Yields (execAt i) Q (loadRow.bind f) k := by
  refine Prog.yields_bind (Prog.yields_perform ?_)
  have hselect : (execAt i .selectRow k).2 = k.rows[i]? := rfl
  rw [hselect]
  cases hrow : k.rows[i]? with
  | some row => exact hsome row hrow
  | none => exact hnone

/-- Loading the row a handler already works on. -/
theorem Working.loadRow_yields {α : Type} {Q : Except ServiceError α → TenantKeys → Prop}
    {f : Row → Handler α} (h : Working tier W now i row k)
    (hrest : Prog.Yields (execAt i) Q (f row) k) :
    Prog.Yields (execAt i) Q (loadRow.bind f) k := by
  refine Prog.yields_bind (Prog.yields_perform ?_)
  have hselect : (execAt i .selectRow k).2 = some row := h.row
  rw [hselect]
  exact hrest

theorem Working.settled (h : Working tier W now i row k) (hW : ∀ v, ¬ W v) :
    Coherent tier k :=
  h.coherent.weaken fun v hv => hW v hv

theorem Coherent.working (h : Coherent tier k) (hrow : k.rows[i]? = some row) :
    Working tier (fun _ => False) k.now i row k :=
  ⟨h, rfl, hrow⟩

/-- A row supports only its own values. -/
theorem Supports.mem_values {v : KeyValue} {deadline : Time} (h : Supports row v deadline) :
    v ∈ row.values := by
  obtain rfl | ⟨hrotated, -⟩ := h.value
  · exact List.mem_cons_self
  · refine List.mem_cons_of_mem _ ?_
    rw [hrotated]
    exact List.mem_singleton_self v

/-- `revoke_by_obj`: the row supports nothing any more, and all its hashes go. -/
theorem revoke_stays (h : Coherent tier k) :
    Prog.Yields (execAt i) (StaysCoherent tier) (code settings .revoke) k := by
  refine loadRow_yields (fun row hrow => ?_) h
  have hwork := h.working hrow
  refine Prog.yields_perform ?_
  have hset : (execAt i .revoke k).1 =
      { k with rows := k.rows.set i { row with isActive := false } } := by
    simp only [execAt]
    rw [modify_eq_set_of_getElem? _ hrow]
  have hrevoked : Working tier (fun v => v ∈ row.values) k.now i { row with isActive := false }
      (execAt i .revoke k).1 := by
    rw [hset]
    exact hwork.setRow ⟨hwork.rowOk.expires, fun hactive => nomatch hactive⟩
      (fun v hv => hv.elim) fun v deadline _ hsupports => .inl hsupports.mem_values
  refine hrevoked.loadRow_yields ?_
  refine Prog.yields_bind ((deleteEach_yields row.values hrevoked).mono ?_)
  rintro r k' ⟨rfl, hk'⟩
  exact hk'.settled fun v hv => hv.2 hv.1

theorem updateRow_of_some {f : Row → Option Row} {row' : Row} (hrow : k.rows[i]? = some row)
    (hf : f row = some row') :
    k.updateRow i f = ({ k with rows := k.rows.set i row' }, true) := by
  rw [TenantKeys.updateRow, hrow, Option.bind_some, hf]

theorem updateRow_of_none {f : Row → Option Row} (hrow : k.rows[i]? = some row)
    (hf : f row = none) : k.updateRow i f = (k, false) := by
  rw [TenantKeys.updateRow, hrow, Option.bind_some, hf]

/-- What `end_rotation` leaves: the old value alone loses its support. -/
theorem Row.endRotation_spec {old : KeyValue} {row' : Row}
    (h : row.endRotation old now = some row') :
    (RowOk tier row → RowOk tier row') ∧
      ∀ v deadline, Supports row v deadline → v = old ∨ Supports row' v deadline := by
  unfold Row.endRotation at h
  split at h
  · rename_i hcond
    obtain rfl := Option.some.inj h
    refine ⟨fun hok => ⟨hok.expires, hok.snapshot⟩, fun v deadline hsupports => ?_⟩
    obtain hkey | ⟨hrotated, -⟩ := hsupports.value
    · exact .inr ⟨hsupports.active, hsupports.expiry, .inl hkey⟩
    · exact .inl (Option.some.inj (hrotated.symm.trans hcond.1))
  · cases h

/-- What `extend_rotation` leaves: the row supports all it did. -/
theorem Row.extendRotation_spec {old : KeyValue} {newExpiresAt : Time} {row' : Row}
    (h : row.extendRotation old newExpiresAt now = some row') :
    (RowOk tier row → RowOk tier row') ∧
      ∀ v deadline, Supports row v deadline → Supports row' v deadline := by
  unfold Row.extendRotation at h
  split at h
  · rename_i hcond
    obtain rfl := Option.some.inj h
    obtain ⟨-, hlater, -, -⟩ := hcond
    refine ⟨fun hok => ⟨hok.expires, hok.snapshot⟩, fun v deadline hsupports =>
      ⟨hsupports.active, hsupports.expiry, ?_⟩⟩
    obtain hkey | ⟨hrotated, t, ht, hle⟩ := hsupports.value
    · exact .inl hkey
    · refine .inr ⟨hrotated, newExpiresAt, rfl, ?_⟩
      rw [ht] at hlater
      simp only [Option.any_some, Bool.and_eq_true, decide_eq_true_eq] at hlater
      exact Nat.le_trans hle (Nat.le_of_lt hlater.2)
  · cases h

/-- `end_rotation_by_obj`: the old value loses its support and its hash. -/
theorem endRotation_stays (h : Coherent tier k) :
    Prog.Yields (execAt i) (StaysCoherent tier) (code settings .endRotation) k := by
  refine loadRow_yields (fun row hrow => ?_) h
  have hwork := h.working hrow
  refine Prog.yields_perform ?_
  split
  · rename_i oldValue _ _
    refine Prog.yields_perform ?_
    change Prog.Yields _ _ (if (k.updateRow i fun row => row.endRotation oldValue k.now).2 then _
      else _) (k.updateRow i fun row => row.endRotation oldValue k.now).1
    cases hend : row.endRotation oldValue k.now with
    | none =>
      rw [updateRow_of_none hrow hend]
      exact h
    | some row' =>
      rw [updateRow_of_some hrow hend]
      obtain ⟨hok, hsupports⟩ := Row.endRotation_spec hend
      have hended := hwork.setRow (hok hwork.rowOk) (fun v hv => hv.elim)
        fun v deadline _ => hsupports v deadline
      refine hended.loadRow_yields ?_
      refine Prog.yields_bind (Prog.yields_tryCatch ?_)
      exact (hended.coherent.deleteApiKeyCache oldValue).weaken fun v hv => hv.2 hv.1
  · exact h

/-- The cache part of `extend_rotation_by_obj`. -/
theorem extendCaches_yields (h : Working tier W now i row k) :
    Prog.Yields (execAt i) (fun r k' => r = .ok () ∧ CoherentUpTo tier W k')
      (extendCaches settings row) k := by
  refine Prog.yields_perform (Prog.yields_perform ?_)
  dsimp only
  split
  · rename_i hactive
    have hrow : row.isActive = true := by
      simp only [effectiveIsActive, Bool.and_eq_true] at hactive
      exact hactive.2.1.1
    refine Prog.yields_bind ((refreshRedisCache_yields hrow h).mono ?_)
    rintro r k' ⟨d, rfl, hk'⟩
    exact ⟨rfl, hk'.coherent.weaken fun v hv => hv.1⟩
  · exact ⟨rfl, h.coherent⟩

/-- `extend_rotation_by_obj`: the support of the old value only grows. -/
theorem extendRotation_stays (h : Coherent tier k) (newExpiresAt : Time) :
    Prog.Yields (execAt i) (StaysCoherent tier) (code settings (.extendRotation newExpiresAt)) k := by
  refine loadRow_yields (fun row hrow => ?_) h
  have hwork := h.working hrow
  refine Prog.yields_perform ?_
  split
  · rename_i currentEnd oldValue _ _
    split
    · exact h
    split
    · exact h
    refine Prog.yields_perform ?_
    change Prog.Yields _ _
      (if (k.updateRow i fun row => row.extendRotation oldValue newExpiresAt k.now).2 then _
        else _) (k.updateRow i fun row => row.extendRotation oldValue newExpiresAt k.now).1
    cases hext : row.extendRotation oldValue newExpiresAt k.now with
    | none =>
      rw [updateRow_of_none hrow hext]
      exact h
    | some row' =>
      rw [updateRow_of_some hrow hext]
      obtain ⟨hok, hsupports⟩ := Row.extendRotation_spec hext
      have hextended := hwork.setRow (hok hwork.rowOk) (fun v hv => hv)
        fun v deadline _ hsup => .inr (hsupports v deadline hsup)
      refine hextended.loadRow_yields ?_
      refine Prog.yields_bind (Prog.yields_tryCatch ((extendCaches_yields hextended).mono ?_))
      rintro r k' ⟨rfl, hk'⟩
      exact hk'
  · exact h

/-- A live rotated value is one of the values to keep in step. -/
theorem Row.mem_cacheKeyValues_of_rotated {v : KeyValue} {t : Time}
    (hrotated : row.rotatedKey = some v) (ht : row.rotatedKeyExpiresAt = some t)
    (hlive : now < t) : v ∈ row.cacheKeyValues now := by
  refine List.mem_cons_of_mem _ ?_
  rw [Option.mem_toList, Row.liveRotatedKey, ht]
  dsimp only
  rw [if_pos hlive]
  exact hrotated

/-- The current value's TTL is the key's. -/
theorem cacheTtlFor_apiKey (settings : Settings) (row : Row) (now : Time) :
    cacheTtlFor settings row row.apiKey now = computeCacheTtl settings row now :=
  if_neg fun h => h.1 rfl

/-- A rotated value other than the current one has the shorter TTL of both ends. -/
theorem cacheTtlFor_rotated {v : KeyValue} {t : Time} (hne : v ≠ row.apiKey)
    (hrotated : row.rotatedKey = some v) (ht : row.rotatedKeyExpiresAt = some t) :
    cacheTtlFor settings row v now =
      min ((t - now) / second) (computeCacheTtl settings row now) := by
  rw [cacheTtlFor, if_pos ⟨hne, hrotated⟩, ht]

/-- The whole seconds until `n` seconds from now. -/
theorem seconds_until (now n : Nat) : (now + n * second - now) / second = n := by
  rw [Nat.add_sub_cancel_left]
  exact Nat.mul_div_cancel n (by decide)

/-- A key that ends `n` seconds from now, whose rotated value ends then too, has a positive
TTL for every value. -/
theorem cacheTtlFor_pos {v : KeyValue} {n : Nat} (hn : 0 < n)
    (hexpires : ∃ t, row.expiresAt = some t ∧ now + n * second ≤ t)
    (hv : v = row.apiKey ∨ row.rotatedKey = some v ∧
      row.rotatedKeyExpiresAt = some (now + n * second)) :
    0 < cacheTtlFor settings row v now := by
  obtain ⟨t, ht, hle⟩ := hexpires
  have hcompute : n ≤ computeCacheTtl settings row now := by
    rw [computeCacheTtl, ht]
    calc n = (now + n * second - now) / second := (seconds_until now n).symm
      _ ≤ (t - now) / second := Nat.div_le_div_right (Nat.sub_le_sub_right hle now)
  by_cases hkey : v = row.apiKey
  · subst hkey
    rw [cacheTtlFor_apiKey]
    exact Nat.lt_of_lt_of_le hn hcompute
  · obtain ⟨hrotated, hend⟩ := hv.resolve_left hkey
    rw [cacheTtlFor_rotated hkey hrotated hend, seconds_until]
    exact Nat.lt_min.mpr ⟨hn, Nat.lt_of_lt_of_le hn hcompute⟩

/-- An extension that ends before the rotated value's window cuts the window. -/
theorem rotatedKeyExpiresAt_updateColumns (row : Row) (permissions : Option (List Nat))
    (days : Int) {t : Time} (ht : row.rotatedKeyExpiresAt = some t) :
    (row.apply (updateColumns row permissions (some days) now)).rotatedKeyExpiresAt =
      some (if now + daySeconds days.toNat * second < t then now + daySeconds days.toNat * second
        else t) := by
  generalize hend : now + daySeconds days.toNat * second = newEnd
  show ((if row.rotatedKeyExpiresAt.any (fun t => now + daySeconds days.toNat * second < t)
    then some (now + daySeconds days.toNat * second) else none).orElse
      fun _ => row.rotatedKeyExpiresAt) = _
  rw [hend, ht, Option.any_some]
  by_cases hshort : newEnd < t
  · rw [if_pos (decide_eq_true hshort), if_pos hshort]
    rfl
  · rw [if_neg (by simpa using hshort), if_neg hshort]
    rfl

/-- What an update of the columns leaves: a value whose support is lost gets a positive
TTL, so the refresh rewrites its hash. -/
theorem updateColumns_supports (settings : Settings) {permissions : Option (List Nat)} {expiresDays : Option Int}
    (hdays : expiresDays.any (fun days => days < 1) = false) {v : KeyValue} {deadline : Time}
    (h : Supports row v deadline) :
    (v ∈ (row.apply (updateColumns row permissions expiresDays now)).cacheKeyValues now ∧
      0 < cacheTtlFor settings (row.apply (updateColumns row permissions expiresDays now)) v now) ∨
    Supports (row.apply (updateColumns row permissions expiresDays now)) v deadline := by
  cases expiresDays with
  | none =>
    -- neither end moves
    exact .inr ⟨h.active, h.expiry, h.value⟩
  | some days =>
    have hpos : 0 < daySeconds days.toNat := by
      simp only [Option.any_some, decide_eq_false_iff_not] at hdays
      unfold daySeconds
      omega
    have hend : ∃ t, (row.apply (updateColumns row permissions (some days) now)).expiresAt =
        some t ∧ now + daySeconds days.toNat * second ≤ t := ⟨_, rfl, Nat.le_refl _⟩
    obtain hkey | ⟨hrotated, t, ht, hle⟩ := h.value
    · exact .inl ⟨hkey ▸ List.mem_cons_self, cacheTtlFor_pos hpos hend (.inl hkey)⟩
    · by_cases hshort : now + daySeconds days.toNat * second < t
      · -- the rotated value is cut to the new end
        have hrot : (row.apply (updateColumns row permissions (some days)
            now)).rotatedKeyExpiresAt = some (now + daySeconds days.toNat * second) := by
          rw [rotatedKeyExpiresAt_updateColumns row permissions days ht, if_pos hshort]
        refine .inl ⟨Row.mem_cacheKeyValues_of_rotated hrotated hrot ?_,
          cacheTtlFor_pos hpos hend (.inr ⟨hrotated, hrot⟩)⟩
        exact Nat.lt_add_of_pos_right (Nat.mul_pos hpos (by decide))
      · -- the rotated value ends first, as before
        have hrot : (row.apply (updateColumns row permissions (some days)
            now)).rotatedKeyExpiresAt = some t := by
          rw [rotatedKeyExpiresAt_updateColumns row permissions days ht, if_neg hshort]
        refine .inr ⟨h.active, fun t' ht' => ?_, .inr ⟨hrotated, t, hrot, hle⟩⟩
        obtain rfl := Option.some.inj ht'
        exact Nat.le_trans hle (Nat.le_of_not_lt hshort)

/-- The columns an update sets leave the row in order. -/
theorem updateColumns_rowOk {permissions : Option (List Nat)} {expiresDays : Option Int}
    (h : RowOk tier row) : RowOk tier (row.apply (updateColumns row permissions expiresDays now)) := by
  cases expiresDays with
  | none => exact ⟨h.expires, h.snapshot⟩
  | some days => exact ⟨rfl, h.snapshot⟩

/-- **`update_key_by_obj`** rewrites or deletes the hashes of the row. -/
theorem update_stays (h : Coherent tier k) (permissions : Option (List Nat))
    (expiresDays : Option Int) :
    Prog.Yields (execAt i) (StaysCoherent tier)
      (code settings (.update permissions expiresDays)) k := by
  refine loadRow_yields (fun row hrow => ?_) h
  have hwork := h.working hrow
  show Prog.Yields _ _ (updateKeyByObj settings row permissions expiresDays) k
  unfold updateKeyByObj
  by_cases hdays : expiresDays.any (fun days => days < 1) = true
  · rw [if_pos hdays]
    exact h
  · rw [if_neg hdays]
    refine now_yields (Prog.yields_perform ?_)
    have hdays' : expiresDays.any (fun days => days < 1) = false := Bool.eq_false_iff.mpr hdays
    have hupdated := Working.update (u := updateColumns row permissions expiresDays k.now) hwork
      (updateColumns_rowOk hwork.rowOk) (fun v hv => hv.elim)
      fun v deadline _ hsup => updateColumns_supports settings hdays' hsup
    refine owners_yields fun owners => now_yields ?_
    generalize row.apply (updateColumns row permissions expiresDays k.now) = row' at hupdated ⊢
    dsimp only
    split
    · rename_i hactive
      have hrow' : row'.isActive = true := by
        simp only [effectiveIsActive, Bool.and_eq_true] at hactive
        exact hactive.2.1.1
      refine Prog.yields_bind ((refreshRedisCache_yields hrow' hupdated).mono ?_)
      rintro r k' ⟨d, rfl, hk'⟩
      exact hk'.loadRow_yields (hk'.settled fun v hv => hv.2 hv.1)
    · refine Prog.yields_bind ((deleteEach_yields row'.values hupdated).mono ?_)
      rintro r k' ⟨rfl, hk'⟩
      refine Prog.yields_bind ((persistCacheSnapshot_yields hk' ?_).mono ?_)
      · intro hactive
        obtain ⟨d, hd, htier⟩ := hk'.rowOk.snapshot hactive
        exact hasTier_buildCachePayload (hasTier_preservedTierId hd htier)
      · rintro r k'' ⟨d, rfl, hk''⟩
        exact hk''.loadRow_yields (hk''.settled fun v hv =>
          hv.2 (Row.cacheKeyValues_subset row' _ hv.1.1))

/-- What `rotate` leaves: the new value, and the old one until the end of its window. -/
theorem Row.rotate_spec {current new : KeyValue} {expiresAt : Time} {row' : Row}
    (h : row.rotate current new expiresAt now = some row') :
    (RowOk tier row → RowOk tier row') ∧ row'.isActive = true ∧
      row'.rotatedKey = some current ∧ row'.rotatedKeyExpiresAt = some expiresAt ∧
      row'.expiresAt = row.expiresAt ∧
      ∀ v deadline, now < deadline → Supports row v deadline → v = current := by
  unfold Row.rotate at h
  split at h
  · rename_i hcond
    obtain rfl := Option.some.inj h
    obtain ⟨rfl, hactive, hwindow⟩ := hcond
    have hisActive : row.isActive = true := by
      simp only [Row.activeConditions, Bool.and_eq_true] at hactive
      exact hactive.1
    refine ⟨fun hok => ⟨hok.expires, fun _ => ?_⟩, hisActive, rfl, rfl, rfl,
      fun v deadline hlive hsupports => ?_⟩
    · obtain ⟨d, hd, htier⟩ := hok.snapshot hisActive
      refine ⟨d.insert "api_key" (.str new.1), by rw [hd]; rfl, ?_⟩
      rw [HasTier, AList.lookup_insert_ne (by decide)]
      exact htier
    · obtain hkey | ⟨hrotated, t, ht, hle⟩ := hsupports.value
      · exact hkey
      · -- the previous window is over, so nothing under that value was still live
        obtain hnone | hover := hwindow
        · rw [hnone] at hrotated
          cases hrotated
        · rw [ht, Option.all_some, decide_eq_true_eq] at hover
          exact absurd (Nat.lt_of_lt_of_le hlive (Nat.le_trans hle hover)) (Nat.lt_irrefl _)
  · cases h

theorem generateUnusedKey_yields (draws : List KeyValue) :
    Prog.Yields (execAt i) (fun _ k' => k' = k) (generateUnusedKey draws) k := by
  induction draws with
  | nil => rfl
  | cons value draws ih =>
    refine Prog.yields_perform ?_
    split
    · exact ih
    · rfl

/-- After the refresh the old value is settled, or its window is over and its hash is
deleted. -/
theorem dropEndedValue_yields {old : KeyValue} {n : Nat} {d : Option Payload}
    (hrotated : row.rotatedKey = some old)
    (hwindow : row.rotatedKeyExpiresAt = some (now + n * second))
    (hexpires : ∃ t, row.expiresAt = some t ∧ now + n * second ≤ t)
    (h : Working tier (fun v => v = old ∧
      ¬ (v ∈ row.cacheKeyValues now ∧ 0 < cacheTtlFor settings row v now)) now i
      { row with cachedData := d } k) :
    Prog.Yields (execAt i)
      (fun r k' => r = .ok () ∧ Working tier (fun _ => False) now i { row with cachedData := d } k')
      (dropEndedValue { row with cachedData := d } old) k := by
  refine now_yields ?_
  rw [h.now]
  by_cases hlive : now < now + n * second
  · have hn : 0 < n := by
      rcases Nat.eq_zero_or_pos n with rfl | hpos
      · simp at hlive
      · exact hpos
    have hsome : ({ row with cachedData := d } : Row).liveRotatedKey now = some old := by
      simp [Row.liveRotatedKey, hwindow, hlive, hrotated]
    rw [hsome]
    refine ⟨rfl, h.weaken ?_⟩
    rintro v ⟨rfl, hnot⟩
    exact hnot ⟨Row.mem_cacheKeyValues_of_rotated hrotated hwindow hlive,
      cacheTtlFor_pos hn hexpires (.inr ⟨hrotated, hwindow⟩)⟩
  · have hnone : ({ row with cachedData := d } : Row).liveRotatedKey now = none := by
      simp [Row.liveRotatedKey, hwindow, hlive]
    rw [hnone]
    refine ⟨rfl, ⟨(h.coherent.deleteApiKeyCache old).weaken ?_, h.now, h.row⟩⟩
    rintro v ⟨⟨rfl, -⟩, hne⟩
    exact hne rfl

/-- The cache part of `rotate_by_obj` settles the old value: its hash is rewritten for the
window, or deleted when there is no window. -/
theorem rotateCaches_yields {old : KeyValue} {n : Nat} {owners : Option Application × Option Tenant}
    (hactive : row.isActive = true) (hrotated : row.rotatedKey = some old)
    (hwindow : row.rotatedKeyExpiresAt = some (now + n * second))
    (hexpires : ∃ t, row.expiresAt = some t ∧ now + n * second ≤ t)
    (h : Working tier (fun v => v = old) now i row k) :
    Prog.Yields (execAt i) (fun r k' => r = .ok () ∧ Coherent tier k')
      (rotateCaches settings row old owners.1 owners.2) k := by
  refine Prog.yields_bind ((refreshRedisCache_yields hactive h).mono ?_)
  rintro r k₁ ⟨d, rfl, hk₁⟩
  refine Prog.yields_bind ((dropEndedValue_yields hrotated hwindow hexpires hk₁).mono ?_)
  rintro r k₂ ⟨rfl, hk₂⟩
  refine hk₂.loadRow_yields (owners_yields fun _ => now_yields ?_)
  split
  · refine (deleteEach_yields _ hk₂).mono ?_
    rintro r k₃ ⟨rfl, hk₃⟩
    exact ⟨rfl, hk₃.settled fun v hv => hv.1⟩
  · exact ⟨rfl, hk₂.coherent⟩

/-- **`rotate_by_obj`** keeps coherence. -/
theorem rotate_stays (h : Coherent tier k) (graceDays : Nat) (draws : List KeyValue) :
    Prog.Yields (execAt i) (StaysCoherent tier) (code settings (.rotate graceDays draws)) k := by
  refine loadRow_yields (fun row hrow => ?_) h
  have hwork := h.working hrow
  refine owners_yields fun owners => now_yields ?_
  dsimp only
  split
  · exact h
  split
  · exact h
  by_cases hgrace : (row.expiresAt.any fun t => t < k.now + daySeconds graceDays * second) = true
  · rw [if_pos hgrace]
    exact h
  rw [if_neg hgrace]
  refine Prog.yields_bind ((generateUnusedKey_yields (draws.take 3)).mono ?_)
  rintro r k' rfl
  cases r with
  | error e => exact h
  | ok newValue =>
    refine now_yields (Prog.yields_perform ?_)
    change Prog.Yields _ _ (if (k'.updateRow i fun r => r.rotate row.apiKey newValue
      (k'.now + daySeconds graceDays * second) k'.now).2 then _ else _)
      (k'.updateRow i fun r => r.rotate row.apiKey newValue
        (k'.now + daySeconds graceDays * second) k'.now).1
    cases hrot : row.rotate row.apiKey newValue (k'.now + daySeconds graceDays * second) k'.now with
    | none =>
      rw [updateRow_of_none hrow hrot]
      exact h
    | some row' =>
      rw [updateRow_of_some hrow hrot]
      obtain ⟨hok, hactive, hrotated, hwindow, hexpiresAt, hsupports⟩ := Row.rotate_spec hrot
      have hrotatedRow := hwork.setRow (hok hwork.rowOk) (fun v hv => hv.elim)
        fun v deadline hlive hsup => .inl (hsupports v deadline hlive hsup)
      have hexpires : ∃ t, row'.expiresAt = some t ∧
          k'.now + daySeconds graceDays * second ≤ t := by
        obtain ⟨t, ht⟩ := Option.isSome_iff_exists.mp hwork.rowOk.expires
        refine ⟨t, hexpiresAt.trans ht, ?_⟩
        rw [ht, Option.any_some, decide_eq_true_eq] at hgrace
        exact Nat.le_of_not_lt hgrace
      refine hrotatedRow.loadRow_yields ?_
      refine Prog.yields_bind (Prog.yields_tryCatch
        ((rotateCaches_yields hactive hrotated hwindow hexpires hrotatedRow).mono ?_))
      rintro r k'' ⟨rfl, hk''⟩
      exact hk''

/-! ## Validation -/

/-- A row found valid for `v` is active and has `v` among its live values. -/
theorem Row.matchesIfValid_spec {v : KeyValue} (h : row.matchesIfValid v now = true) :
    row.isActive = true ∧ v ∈ row.cacheKeyValues now := by
  simp only [Row.matchesIfValid, Row.activeConditions, Bool.and_eq_true, Bool.or_eq_true,
    decide_eq_true_eq] at h
  obtain ⟨hvalue, hactive, -⟩ := h
  refine ⟨hactive, ?_⟩
  obtain hkey | ⟨hrotated, hwindow⟩ := hvalue
  · exact hkey ▸ List.mem_cons_self
  · cases ht : row.rotatedKeyExpiresAt with
    | none =>
      rw [ht] at hwindow
      cases hwindow
    | some t =>
      rw [ht, Option.any_some, decide_eq_true_eq] at hwindow
      exact Row.mem_cacheKeyValues_of_rotated hrotated ht hwindow

/-- `_rehydrate_cache_from_db` writes and answers the snapshot. -/
theorem rehydrate_yields (h : Coherent tier k) {v : KeyValue} (hrow : row ∈ k.rows)
    (hmatch : row.matchesIfValid v k.now = true) :
    Prog.Yields (execAt i)
      (fun r k' => Coherent tier k' ∧ ∀ payload, r = .ok payload → HasTier tier payload)
      (rehydrateCacheFromDb settings row v) k := by
  obtain ⟨hactive, hvalue⟩ := Row.matchesIfValid_spec hmatch
  obtain ⟨d, hd, htier⟩ := (h.rows row hrow).snapshot hactive
  unfold rehydrateCacheFromDb
  rw [hd]
  dsimp only
  split
  · exact ⟨h, fun payload hr => nomatch hr⟩
  · refine now_yields ?_
    by_cases hzero : cacheTtlFor settings row v k.now = 0
    · rw [if_pos hzero]
      refine ⟨h, fun payload hr => ?_⟩
      cases hr
      exact htier
    · rw [if_neg hzero]
      refine Prog.yields_perform ⟨?_, fun payload hr => ?_⟩
      · have hsupports := supports_of_ttl hactive hvalue (Nat.pos_of_ne_zero hzero)
        exact (CoherentUpTo.setApiKeyCache h htier hrow hsupports).weaken fun _ hW => hW.1
      · cases hr
        exact htier

/-- **`validate_api_key`** keeps coherence, and what it accepts carries the tier. -/
theorem validate_yields (h : Coherent tier k) (token : String) :
    Prog.Yields (execAt i)
      (fun r k' => Coherent tier k' ∧ ∀ result, r = .ok (.valid result) → HasTier tier result)
      (validateApiKey settings token) k := by
  unfold validateApiKey
  split
  · rename_i htoken
    refine Prog.yields_perform ?_
    split
    · rename_i cached hcached
      obtain ⟨e, hentry, hlive, rfl⟩ := Redis.entry_of_getApiKeyCache hcached
      split
      · exact ⟨h, fun result hr => nomatch hr⟩
      · rename_i hvalid
        refine ⟨h, fun result hr => ?_⟩
        cases hr
        exact (h.hashes _ e hentry hlive (by simpa using hvalid)).1
    · have hresolve : Prog.Yields (execAt i)
          (fun r k' => Coherent tier k' ∧ ∀ payload, r = .ok payload → HasTier tier payload)
          (resolveFromDbOrTombstone settings ⟨token, htoken⟩) k := by
        refine now_yields (Prog.yields_perform ?_)
        split
        · exact ⟨h.tombstone _ _, fun payload hr => nomatch hr⟩
        · rename_i row application tenant hfound
          split
          · have hmem : (row, application, tenant) ∈
                (execAt i (.getByApiKeyIfValid ⟨token, htoken⟩ k.now) k).2 := by
              rw [hfound]
              exact List.mem_singleton_self _
            obtain ⟨row', hrow', heq⟩ := List.mem_map.mp hmem
            obtain ⟨rfl, -⟩ := Prod.mk.inj heq
            exact rehydrate_yields h (List.mem_filter.mp hrow').1 (List.mem_filter.mp hrow').2
          · exact ⟨h.tombstone _ _, fun payload hr => nomatch hr⟩
        · exact ⟨h, fun payload hr => nomatch hr⟩
      refine Prog.yields_bind (hresolve.mono ?_)
      rintro r k' ⟨hk', hpayload⟩
      cases r with
      | error e => exact ⟨hk', fun result hr => nomatch hr⟩
      | ok payload =>
        refine ⟨hk', fun result hr => ?_⟩
        cases hr
        exact hpayload payload rfl
  · exact ⟨h, fun result hr => nomatch hr⟩

/-- **Every request** keeps coherence. -/
theorem request_stays (h : Coherent tier k) (r : Request) :
    Coherent tier (k.handle i (code settings r)) := by
  cases r with
  | validate token => exact (validate_yields h token).1
  | revoke => exact revoke_stays h
  | update permissions expiresDays => exact update_stays h permissions expiresDays
  | rotate graceDays draws => exact rotate_stays h graceDays draws
  | endRotation => exact endRotation_stays h
  | extendRotation newExpiresAt => exact extendRotation_stays h newExpiresAt

/-! ## The tenant's own requests -/

/-- Adding a row that is in order. -/
theorem Coherent.append (h : Coherent tier k) {row : Row} (hrow : RowOk tier row) :
    Coherent tier { k with rows := k.rows ++ [row] } where
  hashes v e he hlive hvalid := by
    obtain ⟨htier, hsup⟩ := h.hashes v e he hlive hvalid
    obtain hfalse | ⟨r, hr, hsupports⟩ := hsup
    · exact hfalse.elim
    · exact ⟨htier, .inr ⟨r, List.mem_append_left _ hr, hsupports⟩⟩
  rows r hr := by
    obtain hr | hr := List.mem_append.mp hr
    · exact h.rows r hr
    · rw [List.mem_singleton.mp hr]
      exact hrow

/-- The state `create_api_key` leaves when it caches the new key. -/
theorem handle_cacheNewKey (c : TenantKeys.NewKey) (row : Row) (tierId : TierId) :
    TenantKeys.handle { k with rows := k.rows ++ [row] } k.rows.length
        (TenantKeys.cacheNewKey settings c row k.tenant tierId) =
      { k with
        rows := k.rows ++ [row.apply { cachedData := some ((preservedBillingFields row).overlay
          (buildCachePayload row (some k.tenant.id) k.tenant.budgetEffectiveTo
            (AList.singleton tierIdField (.str tierId.1)))) }]
        redis := k.redis.setApiKeyCache k.now c.value
          (daySeconds ((c.expiresDays.map Int.toNat).getD settings.apiKeyExpireDays))
          (buildCachePayload row (some k.tenant.id) k.tenant.budgetEffectiveTo
            (AList.singleton tierIdField (.str tierId.1))) } := by
  have hlast : (k.rows ++ [row])[k.rows.length]? = some row := by simp
  rw [← Row.apply_dirty]
  have hset : ∀ u : RowUpdate,
      (k.rows ++ [row]).modify k.rows.length (fun r => r.apply u) = k.rows ++ [row.apply u] := by
    intro u
    rw [modify_eq_set_of_getElem? _ hlast]
    simp
  rw [← hset]
  rfl

/-- **`create_api_key`** under an active application and tenant writes the tenant's tier. -/
theorem createApiKey_stays (c : TenantKeys.NewKey) (h : Coherent (tierText k.tenant.tierId) k)
    (hmay : ∀ application, k.application c.applicationId = some application →
      applicationMayUseApiKeys (some application) (some k.tenant) = true) :
    Coherent (tierText k.tenant.tierId) (k.createApiKey settings c) := by
  unfold TenantKeys.createApiKey
  split
  · rename_i application tierId happ htier
    split
    · exact h
    · dsimp only
      rw [if_pos (hmay application happ), handle_cacheNewKey]
      have hpayload : ∀ row, HasTier (tierText k.tenant.tierId)
          (buildCachePayload row (some k.tenant.id) k.tenant.budgetEffectiveTo
            (AList.singleton tierIdField (.str tierId.1))) := by
        intro row
        refine hasTier_buildCachePayload ?_
        rw [htier]
        rfl
      refine ((h.append ⟨rfl, fun _ => ⟨_, rfl, hasTier_overlay (hpayload _)⟩⟩).setApiKeyCache
        (hpayload _) (List.mem_append_right _ (List.mem_singleton_self _)) ?_).weaken
        fun _ hW => hW.1
      -- the hash ends exactly with the key
      refine ⟨rfl, fun t ht => ?_, .inl rfl⟩
      obtain rfl := Option.some.inj ht
      exact Nat.le_refl _
  · exact h

/-! ### The fan-out -/

/-- What patching a field leaves of an entry: the entry itself, or the entry with the
field set. -/
structure Patched (field value : String) (e₀ e : CacheEntry) : Prop where
  expiresAt : e.expiresAt = e₀.expiresAt
  fields : e.fields = e₀.fields ∨ e.fields = e₀.fields.insert field (.str value)

theorem Patched.trans {field value : String} {e₀ e₁ e₂ : CacheEntry}
    (h₁ : Patched field value e₀ e₁) (h₂ : Patched field value e₁ e₂) :
    Patched field value e₀ e₂ := by
  refine ⟨h₂.expiresAt.trans h₁.expiresAt, ?_⟩
  obtain h₂ | h₂ := h₂.fields
  · rw [h₂]
    exact h₁.fields
  · obtain h₁ | h₁ := h₁.fields
    · exact .inr (by rw [h₂, h₁])
    · exact .inr (by rw [h₂, h₁, AList.insert_insert])

/-- Other fields are as they were. -/
theorem Patched.lookup_of_ne {field value name : String} {e₀ e : CacheEntry}
    (h : Patched field value e₀ e) (hne : name ≠ field) :
    e.fields.lookup name = e₀.fields.lookup name := by
  obtain h | h := h.fields
  · rw [h]
  · rw [h, AList.lookup_insert_ne hne]

/-- A field that is set stays set. -/
theorem Patched.lookup_self {field value : String} {e₀ e : CacheEntry}
    (h : Patched field value e₀ e) (hset : e₀.fields.lookup field = some (.str value)) :
    e.fields.lookup field = some (.str value) := by
  obtain h | h := h.fields
  · rw [h, hset]
  · rw [h, AList.lookup_insert]

namespace Redis

variable {r : Redis} {field value : String} {onlyIfPresent : Bool} {u v : KeyValue}
  {e : CacheEntry}

/-- One patch: what it leaves, and that it sets the field of the hash it is about. -/
theorem patchField_spec (he : r.patchField now field value onlyIfPresent u v = some e) :
    ∃ e₀, r v = some e₀ ∧ Patched field value e₀ e ∧
      (v = u → now < e₀.expiresAt → (onlyIfPresent = true → (e₀.fields.lookup field).isSome) →
        e.fields.lookup field = some (.str value)) := by
  by_cases hv : v = u
  · subst hv
    unfold patchField at he
    cases hentry : r.entryAt now v with
    | none =>
      rw [hentry] at he
      dsimp only at he
      refine ⟨e, he, ⟨rfl, .inl rfl⟩, fun _ hlive => ?_⟩
      rw [entryAt, he, Option.filter_some, if_pos (by simpa using hlive)] at hentry
      cases hentry
    | some e₀ =>
      obtain ⟨hr, -⟩ := Option.filter_eq_some_iff.mp hentry
      rw [hentry] at he
      dsimp only at he
      by_cases hskip : (onlyIfPresent && (e₀.fields.lookup field).isNone) = true
      · rw [if_pos hskip, hr] at he
        obtain rfl := Option.some.inj he
        refine ⟨e₀, hr, ⟨rfl, .inl rfl⟩, fun _ _ hpresent => ?_⟩
        rw [Bool.and_eq_true] at hskip
        have hsome := hpresent hskip.1
        rw [Option.isNone_iff_eq_none.mp hskip.2] at hsome
        cases hsome
      · rw [if_neg hskip, Function.update_self] at he
        obtain rfl := Option.some.inj he
        exact ⟨e₀, hr, ⟨rfl, .inr rfl⟩, fun _ _ _ => AList.lookup_insert _⟩
  · refine ⟨e, ?_, ⟨rfl, .inl rfl⟩, fun h => absurd h hv⟩
    rw [← he]
    unfold patchField
    cases r.entryAt now u with
    | none => rfl
    | some e₀ =>
      dsimp only
      split
      · rfl
      · exact (Function.update_of_ne hv _ _).symm

/-- All patches of a fan-out. -/
theorem patchEach_spec (vs : List KeyValue)
    (he : vs.foldl (fun r v => r.patchField now field value onlyIfPresent v) r v = some e) :
    ∃ e₀, r v = some e₀ ∧ Patched field value e₀ e ∧
      (v ∈ vs → now < e₀.expiresAt → (onlyIfPresent = true → (e₀.fields.lookup field).isSome) →
        e.fields.lookup field = some (.str value)) := by
  induction vs generalizing r with
  | nil => exact ⟨e, he, ⟨rfl, .inl rfl⟩, fun hmem => absurd hmem List.not_mem_nil⟩
  | cons u vs ih =>
    obtain ⟨e₁, he₁, hpatched₁, hset₁⟩ := ih he
    obtain ⟨e₀, he₀, hpatched₀, hset₀⟩ := patchField_spec he₁
    refine ⟨e₀, he₀, hpatched₀.trans hpatched₁, fun hmem hlive hpresent => ?_⟩
    obtain rfl | hmem := List.mem_cons.mp hmem
    · exact hpatched₁.lookup_self (hset₀ rfl hlive hpresent)
    · refine hset₁ hmem (hpatched₀.expiresAt ▸ hlive) fun hif => ?_
      obtain h | h := hpatched₀.fields
      · rw [h]
        exact hpresent hif
      · rw [h, AList.lookup_insert]
        rfl

/-- `HDEL` of fields leaves the others. -/
theorem deleteEach_spec (fields : List String) (vs : List KeyValue)
    (he : vs.foldl (fun r v => r.deleteFields fields v) r v = some e) :
    ∃ e₀, r v = some e₀ ∧ e.expiresAt = e₀.expiresAt ∧
      ∀ name, name ∉ fields → e.fields.lookup name = e₀.fields.lookup name := by
  induction vs generalizing r with
  | nil => exact ⟨e, he, rfl, fun _ _ => rfl⟩
  | cons u vs ih =>
    obtain ⟨e₁, he₁, hexp₁, hlookup₁⟩ := ih he
    by_cases hv : v = u
    · subst hv
      change Function.update r v _ v = some e₁ at he₁
      rw [Function.update_self] at he₁
      obtain ⟨e₀, he₀, rfl⟩ := Option.map_eq_some_iff.mp he₁
      refine ⟨e₀, he₀, hexp₁, fun name hname => (hlookup₁ name hname).trans ?_⟩
      exact Record.lookup_filterKeys_of_true _ (by simpa using hname)
    · change Function.update r u _ v = some e₁ at he₁
      rw [Function.update_of_ne hv] at he₁
      exact ⟨e₁, he₁, hexp₁, hlookup₁⟩

end Redis

/-- The fan-out reaches every hash that would be served. -/
theorem Supports.mem_fanOutValues {v : KeyValue} {deadline : Time} (hrow : row ∈ k.rows)
    (h : Supports row v deadline) (hlive : k.now < deadline) : v ∈ k.fanOutValues := by
  refine List.mem_flatMap.mpr ⟨row, List.mem_filter.mpr ⟨hrow, ?_⟩, ?_⟩
  · rw [Row.activeConditions, h.active, Bool.true_and, Option.all_eq_true]
    intro t ht
    exact decide_eq_true (Nat.lt_of_lt_of_le hlive (h.expiry t ht))
  · obtain rfl | ⟨hrotated, t, ht, hle⟩ := h.value
    · exact List.mem_cons_self
    · exact Row.mem_cacheKeyValues_of_rotated hrotated ht (Nat.lt_of_lt_of_le hlive hle)

/-- Rows that differ only in their snapshot support the same. -/
theorem Supports.of_map {f : Row → Row} {v : KeyValue} {deadline : Time}
    (hf : ∃ d, f row = { row with cachedData := d }) (h : Supports row v deadline) :
    Supports (f row) v deadline := by
  obtain ⟨d, hd⟩ := hf
  rw [hd]
  exact ⟨h.active, h.expiry, h.value⟩

theorem patchRow_eq (now : Time) (field value : String) (onlyIfPresent : Bool) (row : Row) :
    ∃ d, TenantKeys.patchRow now field value onlyIfPresent row = { row with cachedData := d } := by
  unfold TenantKeys.patchRow
  split
  · split
    · exact ⟨_, rfl⟩
    · exact ⟨row.cachedData, rfl⟩
  · exact ⟨row.cachedData, rfl⟩

theorem removeFields_eq (now : Time) (fields : List String) (row : Row) :
    ∃ d, TenantKeys.removeFields now fields row = { row with cachedData := d } := by
  unfold TenantKeys.removeFields
  split
  · exact ⟨_, rfl⟩
  · exact ⟨row.cachedData, rfl⟩

/-- **The fan-out**: when no active key is expired, it takes a coherent state from one tier to
the other. -/
theorem Coherent.patchAll (h : Coherent tier k) (newTier : String) (onlyIfPresent : Bool)
    (hreach : ∀ row ∈ k.rows, row.isActive = true → row.activeConditions k.now = true) :
    Coherent newTier (k.patchAllTenantKeyCaches tierIdField newTier onlyIfPresent) where
  hashes v e he hlive hvalid := by
    obtain ⟨e₀, he₀, hpatched, hset⟩ := Redis.patchEach_spec _ he
    change k.now < e.expiresAt at hlive
    rw [hpatched.expiresAt] at hlive ⊢
    have hvalid₀ : isCacheEntryInvalid e₀.fields = false := by
      rw [isCacheEntryInvalid, ← hpatched.lookup_of_ne (by decide)]
      exact hvalid
    obtain ⟨htier, hsup⟩ := h.hashes v e₀ he₀ hlive hvalid₀
    obtain hfalse | ⟨row, hrow, hsupports⟩ := hsup
    · exact hfalse.elim
    · refine ⟨hset (hsupports.mem_fanOutValues hrow hlive) hlive fun _ => ?_,
        .inr ⟨_, List.mem_map_of_mem hrow, hsupports.of_map (patchRow_eq _ _ _ _ row)⟩⟩
      rw [htier]
      rfl
  rows row' hrow' := by
    obtain ⟨row, hrow, rfl⟩ := List.mem_map.mp hrow'
    obtain ⟨d', hd'⟩ := patchRow_eq k.now tierIdField newTier onlyIfPresent row
    refine ⟨?_, fun hactive => ?_⟩
    · rw [hd']
      exact (h.rows row hrow).expires
    · have hrowActive : row.isActive = true := by
        rw [hd'] at hactive
        exact hactive
      obtain ⟨d, hd, htier⟩ := (h.rows row hrow).snapshot hrowActive
      refine ⟨d.insert tierIdField (.str newTier), ?_, AList.lookup_insert _⟩
      rw [TenantKeys.patchRow, hd]
      dsimp only
      rw [if_pos]
      rw [hreach row hrow hrowActive, htier]
      simp

/-- Clearing the quota flags leaves the tier alone. -/
theorem Coherent.clearQuotaFlags (h : Coherent tier k) (catalogue : List String) :
    Coherent tier (k.clearQuotaFlags catalogue) := by
  have hname : ∀ name, name = tierIdField ∨ name = alreadyInvalid →
      name ∉ TenantKeys.quotaFieldNames catalogue := by
    intro name hcase hmem
    obtain ⟨c, -, hc⟩ := List.mem_map.mp hmem
    have hhead : name.toList.head? = some 'q' := by
      rw [← hc, String.toList_append]
      rfl
    rcases hcase with rfl | rfl
    · exact absurd hhead (by decide)
    · exact absurd hhead (by decide)
  unfold TenantKeys.clearQuotaFlags
  split
  · exact h
  · refine { hashes := fun v e he hlive hvalid => ?_, rows := fun row' hrow' => ?_ }
    · obtain ⟨e₀, he₀, hexp, hlookup⟩ := Redis.deleteEach_spec _ _ he
      change k.now < e.expiresAt at hlive
      rw [hexp] at hlive ⊢
      have hvalid₀ : isCacheEntryInvalid e₀.fields = false := by
        rw [isCacheEntryInvalid, ← hlookup _ (hname _ (.inr rfl))]
        exact hvalid
      obtain ⟨htier, hsup⟩ := h.hashes v e₀ he₀ hlive hvalid₀
      obtain hfalse | ⟨row, hrow, hsupports⟩ := hsup
      · exact hfalse.elim
      · refine ⟨(hlookup _ (hname _ (.inl rfl))).trans htier,
          .inr ⟨_, List.mem_map_of_mem hrow, hsupports.of_map (removeFields_eq _ _ row)⟩⟩
    · obtain ⟨row, hrow, rfl⟩ := List.mem_map.mp hrow'
      unfold TenantKeys.removeFields
      split
      · refine ⟨(h.rows row hrow).expires, fun hactive => ?_⟩
        obtain ⟨d, hd, htier⟩ := (h.rows row hrow).snapshot hactive
        refine ⟨d.filterKeys _, by rw [hd]; rfl, ?_⟩
        rw [HasTier, Record.lookup_filterKeys_of_true _ (by simpa using hname _ (.inl rfl))]
        exact htier
      · exact h.rows row hrow

/-- Clearing the quota flags touches neither the clock nor the tenant, nor who is active
and until when. -/
theorem clearQuotaFlags_frame (k : TenantKeys) (catalogue : List String) :
    (k.clearQuotaFlags catalogue).now = k.now ∧ (k.clearQuotaFlags catalogue).tenant = k.tenant ∧
      ∀ row' ∈ (k.clearQuotaFlags catalogue).rows, ∃ row ∈ k.rows,
        ∃ d, row' = { row with cachedData := d } := by
  unfold TenantKeys.clearQuotaFlags
  split
  · exact ⟨rfl, rfl, fun row hrow => ⟨row, hrow, row.cachedData, rfl⟩⟩
  · refine ⟨rfl, rfl, fun row' hrow' => ?_⟩
    obtain ⟨row, hrow, rfl⟩ := List.mem_map.mp hrow'
    exact ⟨row, hrow, removeFields_eq _ _ row⟩

/-- **`assign_tenant_tier`**: the quota flags are cleared, then the fan-out. -/
theorem assignTenantTier_stays (tierId : TierId) (catalogue : List String)
    (h : Coherent (tierText k.tenant.tierId) k)
    (hreach : ∀ row ∈ k.rows, row.isActive = true → row.activeConditions k.now = true) :
    Coherent (tierText (k.assignTenantTier tierId catalogue).tenant.tierId)
      (k.assignTenantTier tierId catalogue) := by
  unfold TenantKeys.assignTenantTier
  split
  · exact h
  · have hset : Coherent (tierText k.tenant.tierId)
        { k with tenant := { k.tenant with tierId := some tierId } } := ⟨h.hashes, h.rows⟩
    obtain ⟨hnow, htenant, hrows⟩ :=
      clearQuotaFlags_frame { k with tenant := { k.tenant with tierId := some tierId } } catalogue
    have hpatched := (hset.clearQuotaFlags catalogue).patchAll tierId.1 false ?_
    · have htier : tierText (TenantKeys.patchAllTenantKeyCaches (TenantKeys.clearQuotaFlags
          { k with tenant := { k.tenant with tierId := some tierId } } catalogue) tierIdField
          tierId.1 false).tenant.tierId = tierId.1 := by
        show tierText (TenantKeys.clearQuotaFlags _ catalogue).tenant.tierId = tierId.1
        rw [htenant]
        rfl
      rw [htier]
      exact hpatched
    · intro row' hrow' hactive
      obtain ⟨row, hrow, d, rfl⟩ := hrows row' hrow'
      rw [hnow]
      exact hreach row hrow hactive

/-! ### Tenant status -/

/-- Only the tenant's row changes. -/
theorem Coherent.setTenant (h : Coherent tier k) (tenant : Tenant) :
    Coherent tier { k with tenant := tenant } :=
  ⟨h.hashes, h.rows⟩

/-- Revoking all keys of the tenant: the revoked rows lose their support, and all their
hashes are deleted. -/
theorem Coherent.revokeKeysForTenant (h : Coherent tier k) :
    Coherent tier k.revokeKeysForTenant := by
  have hrevoked : CoherentUpTo tier (fun v => v ∈ (k.rows.filter k.revocable).flatMap Row.values)
      { k with rows := k.rows.map fun row =>
          if k.revocable row then { row with isActive := false } else row } := by
    refine { hashes := fun v e he hlive hvalid => ?_, rows := fun row' hrow' => ?_ }
    · obtain ⟨htier, hsup⟩ := h.hashes v e he hlive hvalid
      obtain hfalse | ⟨row, hrow, hsupports⟩ := hsup
      · exact hfalse.elim
      · refine ⟨htier, ?_⟩
        by_cases hrev : k.revocable row = true
        · exact .inl (List.mem_flatMap.mpr
            ⟨row, List.mem_filter.mpr ⟨hrow, hrev⟩, hsupports.mem_values⟩)
        · exact .inr ⟨row, List.mem_map.mpr ⟨row, hrow, if_neg hrev⟩, hsupports⟩
    · obtain ⟨row, hrow, rfl⟩ := List.mem_map.mp hrow'
      split
      · exact ⟨(h.rows row hrow).expires, fun hactive => nomatch hactive⟩
      · exact h.rows row hrow
  exact (hrevoked.deleteCachesOf _).weaken fun v hv => hv.2 hv.1

/-- One key of the refresh. -/
theorem Coherent.refreshKey (h : Coherent tier k) (a : TenantApplication) (j : Nat) :
    Coherent tier (TenantKeys.refreshKey settings a k j) := by
  unfold TenantKeys.refreshKey
  split
  · rename_i row hrow
    split
    · rename_i hcond
      obtain ⟨d, -, hk'⟩ := refreshRedisCache_yields hcond.2.1 (h.working hrow)
      exact hk'.settled fun v hv => hv.1
    · exact h
  · exact h

theorem refreshKey_tenant (a : TenantApplication) (j : Nat) :
    (TenantKeys.refreshKey settings a k j).tenant = k.tenant := by
  unfold TenantKeys.refreshKey
  split
  · split
    · exact (handle_frame _ _ _).2.1
    · rfl
  · rfl

/-- The refresh on reactivation keeps coherence and the tenant. -/
theorem Coherent.refreshKeysCacheForTenant (h : Coherent tier k) :
    Coherent tier (k.refreshKeysCacheForTenant settings) ∧
      (k.refreshKeysCacheForTenant settings).tenant = k.tenant := by
  refine List.foldlRecOn (motive := fun k' => Coherent tier k' ∧ k'.tenant = k.tenant)
    k.applications _ ⟨h, rfl⟩ fun k₁ ⟨hk₁, htenant₁⟩ a _ => ?_
  unfold TenantKeys.refreshKeysCacheForApplication
  split
  · refine List.foldlRecOn (motive := fun k' => Coherent tier k' ∧ k'.tenant = k.tenant)
      (List.range k₁.rows.length) _ ⟨hk₁, htenant₁⟩ fun k₂ ⟨hk₂, htenant₂⟩ j _ => ?_
    exact ⟨hk₂.refreshKey a j, (refreshKey_tenant a j).trans htenant₂⟩
  · exact ⟨hk₁.deleteCachesOf _, htenant₁⟩

/-- **`update_tenant_status`** keeps coherence, and the tier. -/
theorem updateTenantStatus_stays (h : Coherent tier k) (status : TenantStatus) :
    Coherent tier (k.updateTenantStatus settings status) ∧
      (k.updateTenantStatus settings status).tenant.tierId = k.tenant.tierId := by
  unfold TenantKeys.updateTenantStatus
  split
  · have hset := h.setTenant { k.tenant with status := status }
    cases status with
    | suspended => exact ⟨hset.deleteCachesOf _, rfl⟩
    | deactivated => exact ⟨hset.revokeKeysForTenant, rfl⟩
    | active =>
      obtain ⟨hcoherent, htenant⟩ := hset.refreshKeysCacheForTenant
      refine ⟨hcoherent, ?_⟩
      dsimp only
      rw [htenant]
    | pending => exact ⟨hset, rfl⟩
  · exact ⟨h, rfl⟩

/-! ## Runs -/

/-- The condition: a key is created under an active application and tenant, and no active
key of the tenant is expired when its tier changes. -/
def ReachesAllKeys (k : TenantKeys) : TenantKeys.Action → Prop
  | .createApiKey c => ∀ application, k.application c.applicationId = some application →
      applicationMayUseApiKeys (some application) (some k.tenant) = true
  | .assignTenantTier _ _ | .unassignTenantTier =>
    ∀ row ∈ k.rows, row.isActive = true → row.activeConditions k.now = true
  | _ => True

theorem createApiKey_tenant (k : TenantKeys) (c : TenantKeys.NewKey) :
    (k.createApiKey settings c).tenant = k.tenant := by
  unfold TenantKeys.createApiKey
  split
  · split
    · rfl
    · dsimp only
      split
      · exact (handle_frame _ _ _).2.1
      · rfl
  · rfl

/-- One action. -/
theorem step_coherent {a : TenantKeys.Action} {k' : TenantKeys}
    (h : Coherent (tierText k.tenant.tierId) k) (ha : ReachesAllKeys k a)
    (hstep : k.step settings a = some k') : Coherent (tierText k'.tenant.tierId) k' := by
  cases a with
  | tick elapsed =>
    obtain rfl := Option.some.inj hstep
    exact h.tick elapsed
  | evict value =>
    obtain rfl := Option.some.inj hstep
    exact (CoherentUpTo.deleteApiKeyCache h value).weaken fun _ hW => hW.1
  | createApiKey c =>
    obtain rfl := Option.some.inj hstep
    rw [createApiKey_tenant]
    exact createApiKey_stays c h ha
  | assignTenantTier tierId catalogue =>
    obtain rfl := Option.some.inj hstep
    exact assignTenantTier_stays tierId catalogue h ha
  | unassignTenantTier =>
    obtain rfl := Option.some.inj hstep
    exact (h.setTenant { k.tenant with tierId := none }).patchAll "" true ha
  | updateTenantStatus status =>
    obtain rfl := Option.some.inj hstep
    obtain ⟨hcoherent, htier⟩ := updateTenantStatus_stays h status
    rw [htier]
    exact hcoherent
  | request i r =>
    obtain rfl := Option.some.inj hstep
    rw [(handle_frame _ _ _).2.1]
    exact request_stays h r

/-- What the gateway forwards in a coherent state is the tenant's tier. -/
theorem forwardedTier_of_coherent {otherChecks : Record Field → Bool} {token x : String}
    (h : Coherent (tierText k.tenant.tierId) k)
    (hx : k.forwardedTier settings otherChecks token = some x) :
    k.tenant.tierId.map Subtype.val = some x := by
  unfold TenantKeys.forwardedTier at hx
  split at hx
  · rename_i result hresult
    split at hx
    · have htier : HasTier (tierText k.tenant.tierId) result :=
        (validate_yields (i := 0) h token).2 result hresult
      rw [HasTier] at htier
      rw [htier] at hx
      cases hid : k.tenant.tierId with
      | none =>
        rw [hid] at hx
        cases hx
      | some tierId =>
        rw [hid] at hx
        change (if tierId.1 = "" then none else some tierId.1) = some x at hx
        rw [if_neg tierId.2] at hx
        exact hx
    · cases hx
  · cases hx

/-- **Tier coherence** in every run that reaches all keys: whatever request the gateway
accepts for a key of the tenant is forwarded under the tenant's current tier; without a
tier none is accepted. -/
theorem tier_coherent (settings : Settings) (now : Time) (tenant : Tenant)
    (applications : List TenantApplication) (actions : List TenantKeys.Action) (k : TenantKeys)
    (hrun : Run (TenantKeys.step settings) (TenantKeys.initial now tenant applications) actions k)
    (hreach : Guarded (TenantKeys.step settings) ReachesAllKeys
      (TenantKeys.initial now tenant applications) actions)
    (otherChecks : Record Field → Bool) (token x : String)
    (hx : k.forwardedTier settings otherChecks token = some x) :
    k.tenant.tierId.map Subtype.val = some x := by
  refine forwardedTier_of_coherent ?_ hx
  refine Run.guardedInvariant (G := ReachesAllKeys)
    (P := fun k => Coherent (tierText k.tenant.tierId) k)
    (fun s a s' hs ha hstep => step_coherent hs ha hstep) hrun hreach ?_
  exact ⟨fun v e he => (nomatch he), fun row hrow => absurd hrow List.not_mem_nil⟩

/-! ### Two runs of one tenant -/

/-- An active tenant on the tier `gold` with one active application. -/
def goldTenant : TenantKeys :=
  TenantKeys.initial 0 ⟨1, .active, some goldTier, none⟩ [⟨3, .active⟩]

def sampleNewKey : TenantKeys.NewKey where
  id := 7
  applicationId := 3
  value := sampleKey
  permissions := [1]
  expiresDays := some 30
  createdBy := "admin"

/-- `ReachesAllKeys` as a check. -/
def reachesAllKeysCheck (k : TenantKeys) : TenantKeys.Action → Bool
  | .createApiKey c => (k.application c.applicationId).all fun application =>
      applicationMayUseApiKeys (some application) (some k.tenant)
  | .assignTenantTier _ _ | .unassignTenantTier =>
    k.rows.all fun row => !row.isActive || row.activeConditions k.now
  | _ => true

theorem reachesAllKeys_of_check (k : TenantKeys) (a : TenantKeys.Action)
    (h : reachesAllKeysCheck k a = true) : ReachesAllKeys k a := by
  have hrows : (k.rows.all fun row => !row.isActive || row.activeConditions k.now) = true →
      ∀ row ∈ k.rows, row.isActive = true → row.activeConditions k.now = true := by
    intro hall row hrow hactive
    have hthis := List.all_eq_true.mp hall row hrow
    rw [hactive] at hthis
    exact hthis
  cases a with
  | createApiKey c =>
    intro application happlication
    rw [reachesAllKeysCheck, happlication] at h
    exact h
  | assignTenantTier tierId catalogue => exact hrows h
  | unassignTenantTier => exact hrows h
  | _ => trivial

/-- The tenant moves to `silver` under a live key, and is suspended and reactivated. -/
def silverActions : List TenantKeys.Action :=
  [.createApiKey sampleNewKey, .assignTenantTier ⟨"silver", by decide⟩ ["asr"],
    .updateTenantStatus .suspended, .updateTenantStatus .active]

theorem tier_coherent_silver :
    ∃ k, Run (TenantKeys.step ⟨365, 86400⟩) goldTenant silverActions k ∧
      k.forwardedTier ⟨365, 86400⟩ (fun _ => true) sampleNewKey.value.1 = some "silver" ∧
      k.tenant.tierId.map Subtype.val = some "silver" := by
  obtain ⟨k, hrun, hk⟩ := exists_run_of_map (TenantKeys.step ⟨365, 86400⟩) goldTenant
    silverActions
    (fun k => k.forwardedTier ⟨365, 86400⟩ (fun _ => true) sampleNewKey.value.1)
    (x := some "silver") (by decide +kernel)
  refine ⟨k, hrun, hk, ?_⟩
  exact tier_coherent _ _ _ _ _ k hrun
    (guarded_of_check reachesAllKeys_of_check (by decide +kernel)) (fun _ => true) _ _ hk

/-- The key is created while the tenant is suspended; after the reactivation its requests
are forwarded without a tier, although the tenant is on `gold`. -/
theorem forwards_no_tier :
    ∃ k, Run (TenantKeys.step ⟨365, 86400⟩) goldTenant
        [.updateTenantStatus .suspended, .createApiKey sampleNewKey, .updateTenantStatus .active] k ∧
      k.forwardedTier ⟨365, 86400⟩ (fun _ => true) sampleNewKey.value.1 = some "" ∧
      k.tenant.tierId.map Subtype.val = some "gold" := by
  obtain ⟨k, hrun, hk⟩ := exists_run_of_map (TenantKeys.step ⟨365, 86400⟩) goldTenant
    [.updateTenantStatus .suspended, .createApiKey sampleNewKey, .updateTenantStatus .active]
    (fun k => (k.forwardedTier ⟨365, 86400⟩ (fun _ => true) sampleNewKey.value.1,
      k.tenant.tierId.map Subtype.val)) (x := (some "", some "gold")) (by decide +kernel)
  exact ⟨k, hrun, congrArg Prod.fst hk, congrArg Prod.snd hk⟩

end Ai4iCore.ApiKey
