import Ai4iCore.ApiKey.Tenant

/-!
# The Redis commands behind an API key's hash

`cache_service.py`, command by command: `set_api_key_cache` is one `MULTI` of `HSET`, `HDEL`
and `EXPIRE`; deletion is a `DEL`, the quota reset an `HDEL`, and
`patch_api_key_cache_field_if_present` one script. `patch_api_key_cache_field` is two
commands, an `EXISTS` and an `HSET`, and anything may come between them.

A hash is to be a tombstone or a whole payload, and to expire. `hashes_well_formed` says so
of every run in which the `HSET` of a patch still finds the hash that its `EXISTS` found;
when it does not, `HSET` makes a new hash of the one field, which never expires
(`patch_recreates_hash`). The comment at `_HSET_IF_FIELD_EXISTS` names that very state.
-/

namespace Ai4iCore.ApiKey.Commands

open StepSystem

/-! ## Payloads -/

/-- The fields `_build_cache_payload` always writes. -/
def payloadFields : List String :=
  ["id", "api_key", "permissions", "application_id", "tenant_id", "user_id",
    "budget_effective_to"]

/-- All of them are there. -/
def Complete (fields : Record Field) : Prop :=
  ∀ name ∈ payloadFields, (fields.lookup name).isSome = true

instance (fields : Record Field) : Decidable (Complete fields) :=
  inferInstanceAs (Decidable (∀ name ∈ payloadFields, _))

/-- What `set_api_key_cache` is called with, tombstones apart. -/
structure FullPayload where
  data : Payload
  complete : Complete data
  valid : data.lookup alreadyInvalid = none

theorem complete_overlay {old new : Record Field} (h : Complete old ∨ Complete new) :
    Complete (Record.overlay old new) := by
  intro name hname
  rw [Record.lookup_overlay, Option.isSome_or, Bool.or_eq_true]
  exact (h.imp (fun h => h name hname) fun h => h name hname).symm

theorem complete_mapValues {fields : Record Field} (h : Complete fields) (f : Field → Field) :
    Complete (fields.mapValues f) := by
  intro name hname
  rw [Record.lookup_mapValues, Option.isSome_map]
  exact h name hname

theorem complete_insert {fields : Record Field} (h : Complete fields) (name : String) (v : Field) :
    Complete (fields.insert name v) := by
  intro other hother
  by_cases heq : other = name
  · rw [heq, AList.lookup_insert]
    rfl
  · rw [AList.lookup_insert_ne heq]
    exact h other hother

theorem complete_erase {fields : Record Field} (h : Complete fields) {name : String}
    (hname : name ∉ payloadFields) : Complete (fields.erase name) := by
  intro other hother
  have hne : other ≠ name := by
    rintro rfl
    exact hname hother
  rw [AList.lookup_erase_ne hne]
  exact h other hother

theorem complete_filterKeys {fields : Record Field} (h : Complete fields) {p : String → Bool}
    (hp : ∀ name ∈ payloadFields, p name = true) : Complete (fields.filterKeys p) := by
  intro name hname
  rw [Record.lookup_filterKeys_of_true _ (hp name hname)]
  exact h name hname

/-- `_build_cache_payload` with the extra fields of any of its callers. -/
def FullPayload.build (row : Row) (tenantId : Option Nat) (budgetEffectiveTo : Option Time)
    (extraFields : Payload) (hextra : extraFields.lookup alreadyInvalid = none) : FullPayload where
  data := buildCachePayload row tenantId budgetEffectiveTo extraFields
  complete := complete_overlay (.inl fun _ hname => Record.isSome_lookup_ofList hname)
  valid := by
    refine (Record.lookup_overlay ..).trans ?_
    rw [hextra]
    rfl

/-- The extra fields of `_refresh_redis_cache` hold no tombstone marker. -/
theorem lookup_alreadyInvalid_extra (row : Row) (existing : Hash) :
    ((preservedTierId row).overlay ((preservedBillingFields row).overlay
      (billingFields existing))).lookup alreadyInvalid = none := by
  have htier : (preservedTierId row).lookup alreadyInvalid = none := by
    unfold preservedTierId
    split <;> rfl
  have hbilling (d : Record Field) : (billingFields d).lookup alreadyInvalid = none :=
    Record.lookup_filterKeys_of_false d rfl
  rw [Record.lookup_overlay, Record.lookup_overlay, preservedBillingFields, hbilling, hbilling,
    htier]
  rfl

/-- The payload of `_refresh_redis_cache`. -/
def FullPayload.refreshed (row : Row) (tenantId : Option Nat) (budgetEffectiveTo : Option Time)
    (existing : Hash) : FullPayload :=
  .build row tenantId budgetEffectiveTo _ (lookup_alreadyInvalid_extra row existing)

/-! ## The store -/

/-- A hash under an API key; `HSET` alone leaves it without a TTL. -/
structure Stored where
  fields : Hash
  expiresAt : Option Time
  deriving DecidableEq

/-- The fields `patch_api_key_cache_field` is called with. -/
inductive PatchField
  | tierId
  | budgetEffectiveTo
  | budgetExhausted
  | quota (inferenceName : String)
  deriving DecidableEq, Repr

def PatchField.name : PatchField → String
  | .tierId => tierIdField
  | .budgetEffectiveTo => "budget_effective_to"
  | .budgetExhausted => "budget-exhausted"
  | .quota inferenceName => "quota-" ++ inferenceName

/-- A call of `patch_api_key_cache_field`. -/
structure Patch where
  key : KeyValue
  field : PatchField
  text : String
  deriving DecidableEq

structure Store where
  now : Time
  hash : KeyValue → Option Stored
  /-- the patches whose `EXISTS` has answered 1 and whose `HSET` is next -/
  patches : List Patch

/-- The hash as a command finds it. -/
def Store.live (s : Store) (key : KeyValue) : Option Stored :=
  (s.hash key).filter fun e => e.expiresAt.all fun t => s.now < t

def Store.put (s : Store) (key : KeyValue) (o : Option Stored) : Store :=
  { s with hash := Function.update s.hash key o }

/-- `set_api_key_cache`: `MULTI`, `HSET`, `HDEL`, `EXPIRE`, `EXEC`. -/
def Store.setApiKeyCache (s : Store) (key : KeyValue) (ttlSeconds : Nat) (data : Payload) : Store :=
  let fields := Redis.mergeFields ((s.live key).elim ∅ Stored.fields) data
  s.put key (some ⟨fields, some (s.now + ttlSeconds * second)⟩)

/-- `HSET key field value`. -/
def Store.hset (s : Store) (p : Patch) : Store :=
  match s.live p.key with
  | some e => s.put p.key (some { e with fields := e.fields.insert p.field.name (.str p.text) })
  | none => s.put p.key (some ⟨AList.singleton p.field.name (.str p.text), none⟩)

/-- `HDEL key field …`; a hash that loses its last field is gone. -/
def Store.hdel (s : Store) (key : KeyValue) (names : List String) : Store :=
  match s.live key with
  | some e =>
    let fields := e.fields.filterKeys fun name => !names.contains name
    s.put key (if fields.entries.isEmpty then none else some { e with fields })
  | none => s

/-- The script `_HSET_IF_FIELD_EXISTS`. -/
def Store.hsetIfFieldExists (s : Store) (p : Patch) : Store :=
  match s.live p.key with
  | some e => if (e.fields.lookup p.field.name).isSome then s.hset p else s
  | none => s

inductive Action
  | setApiKeyCache (key : KeyValue) (ttlSeconds : Nat) (payload : FullPayload)
  /-- `_tombstone_invalid_token` -/
  | tombstone (key : KeyValue) (ttlSeconds : Nat)
  /-- `delete_api_key_cache` -/
  | delete (key : KeyValue)
  /-- `delete_api_key_cache_fields` with the quota fields of a catalogue -/
  | deleteFields (key : KeyValue) (catalogue : List String)
  /-- the `EXISTS` of `patch_api_key_cache_field` -/
  | check (p : Patch)
  /-- its `HSET` -/
  | write (i : Nat)
  /-- `patch_api_key_cache_field_if_present` -/
  | patchIfPresent (p : Patch)
  /-- a patch is given up between its two commands -/
  | drop (i : Nat)
  | tick (d : Nat)

/-- One Redis command, or time passing. -/
def step (s : Store) : Action → Option Store
  | .setApiKeyCache key ttlSeconds payload => some (s.setApiKeyCache key ttlSeconds payload.data)
  | .tombstone key ttlSeconds => some (s.setApiKeyCache key ttlSeconds ApiKey.tombstone)
  | .delete key => some (s.put key none)
  | .deleteFields key catalogue => some (s.hdel key (TenantKeys.quotaFieldNames catalogue))
  | .check p =>
    some (if (s.live p.key).isSome then { s with patches := s.patches ++ [p] } else s)
  | .write i => s.patches[i]?.map fun p => { s.hset p with patches := s.patches.eraseIdx i }
  | .patchIfPresent p => some (s.hsetIfFieldExists p)
  | .drop i => some { s with patches := s.patches.eraseIdx i }
  | .tick d => some { s with now := s.now + d }

/-! ## The invariant -/

/-- A tombstone or a whole payload, with an expiry. -/
structure WellFormed (e : Stored) : Prop where
  expires : e.expiresAt.isSome = true
  fields : isCacheEntryInvalid e.fields = true ∨ Complete e.fields

/-- A name no payload field and no marker has. -/
def Harmless (name : String) : Prop := name ∉ payloadFields ∧ name ≠ alreadyInvalid

theorem harmless_quota (inferenceName : String) : Harmless ("quota-" ++ inferenceName) := by
  have hbilling : isPreservedBillingField ("quota-" ++ inferenceName) = true := by
    simp [isPreservedBillingField]
  have hother : ∀ name ∈ alreadyInvalid :: payloadFields, isPreservedBillingField name = false := by
    decide
  refine ⟨fun hmem => ?_, fun heq => ?_⟩
  · rw [hother _ (List.mem_cons_of_mem _ hmem)] at hbilling
    cases hbilling
  · rw [heq, hother _ List.mem_cons_self] at hbilling
    cases hbilling

theorem PatchField.name_ne_alreadyInvalid (field : PatchField) : field.name ≠ alreadyInvalid := by
  cases field with
  | tierId => decide
  | budgetEffectiveTo => decide
  | budgetExhausted => decide
  | quota inferenceName => exact (harmless_quota inferenceName).2

theorem isCacheEntryInvalid_congr {fields fields' : Hash}
    (h : fields'.lookup alreadyInvalid = fields.lookup alreadyInvalid) :
    isCacheEntryInvalid fields' = isCacheEntryInvalid fields := by
  rw [isCacheEntryInvalid, h]
  rfl

theorem wellFormed_insert {e : Stored} (h : WellFormed e) (field : PatchField) (v : Field) :
    WellFormed { e with fields := e.fields.insert field.name v } := by
  refine ⟨h.expires, h.fields.imp (fun hinvalid => ?_) fun hcomplete => ?_⟩
  · rw [← hinvalid]
    exact isCacheEntryInvalid_congr (AList.lookup_insert_ne field.name_ne_alreadyInvalid.symm)
  · exact complete_insert hcomplete _ v

theorem wellFormed_hdel {e : Stored} (h : WellFormed e) {names : List String}
    (hnames : ∀ name ∈ names, Harmless name) :
    WellFormed { e with fields := e.fields.filterKeys fun name => !names.contains name } := by
  refine ⟨h.expires, h.fields.imp (fun hinvalid => ?_) fun hcomplete => ?_⟩
  · rw [← hinvalid]
    refine isCacheEntryInvalid_congr (Record.lookup_filterKeys_of_true _ ?_)
    simpa using fun hmem => (hnames _ hmem).2 rfl
  · refine complete_filterKeys hcomplete fun name hname => ?_
    simpa using fun hmem => (hnames _ hmem).1 hname

theorem wellFormed_set (old : Hash) (payload : FullPayload) (t : Time) :
    WellFormed ⟨Redis.mergeFields old payload.data, some t⟩ := by
  refine ⟨rfl, .inr ?_⟩
  show Complete (Redis.mergeFields old payload.data)
  rw [Redis.mergeFields, payload.valid]
  refine complete_erase (complete_overlay (.inr ?_)) (by decide)
  exact complete_mapValues payload.complete _

theorem wellFormed_tombstone (old : Hash) (t : Time) :
    WellFormed ⟨Redis.mergeFields old ApiKey.tombstone, some t⟩ :=
  ⟨rfl, .inl (Redis.isCacheEntryInvalid_merge_tombstone old)⟩

/-- Every hash of the store is well formed. -/
def Sound (s : Store) : Prop := ∀ key e, s.hash key = some e → WellFormed e

/-- The `HSET` of a patch finds a hash. -/
def Undisturbed (s : Store) : Action → Prop
  | .write i => ∀ p ∈ s.patches[i]?, (s.live p.key).isSome = true
  | _ => True

instance (s : Store) (a : Action) : Decidable (Undisturbed s a) := by
  cases a <;> unfold Undisturbed <;> infer_instance

section Steps

variable {s s' : Store}

theorem Sound.live (h : Sound s) {key : KeyValue} {e : Stored} (he : s.live key = some e) :
    WellFormed e :=
  h key e (Option.filter_eq_some_iff.mp he).1

theorem sound_put (h : Sound s) (key : KeyValue) {o : Option Stored}
    (ho : ∀ e, o = some e → WellFormed e) : Sound (s.put key o) := by
  intro other e he
  change Function.update s.hash key o other = some e at he
  by_cases hkey : other = key
  · rw [hkey, Function.update_self] at he
    exact ho e he
  · rw [Function.update_of_ne hkey] at he
    exact h other e he

theorem sound_setApiKeyCache (h : Sound s) (key : KeyValue) (ttlSeconds : Nat) {data : Payload}
    (hdata : ∀ old t, WellFormed ⟨Redis.mergeFields old data, some t⟩) :
    Sound (s.setApiKeyCache key ttlSeconds data) := by
  refine sound_put h key fun e he => ?_
  cases he
  exact hdata _ _

theorem sound_hset (h : Sound s) {p : Patch} (hlive : (s.live p.key).isSome = true) :
    Sound (s.hset p) := by
  obtain ⟨e, he⟩ := Option.isSome_iff_exists.mp hlive
  rw [Store.hset, he]
  refine sound_put h _ fun e' he' => ?_
  cases he'
  exact wellFormed_insert (h.live he) _ _

theorem sound_hdel (h : Sound s) (key : KeyValue) {names : List String}
    (hnames : ∀ name ∈ names, Harmless name) : Sound (s.hdel key names) := by
  unfold Store.hdel
  split
  · rename_i e he
    refine sound_put h key fun e' he' => ?_
    obtain ⟨-, ⟨⟩⟩ := Option.ite_none_left_eq_some.mp he'
    exact wellFormed_hdel (h.live he) hnames
  · exact h

theorem sound_hsetIfFieldExists (h : Sound s) (p : Patch) : Sound (s.hsetIfFieldExists p) := by
  unfold Store.hsetIfFieldExists
  split
  · rename_i e he
    split
    · exact sound_hset h (by rw [he]; rfl)
    · exact h
  · exact h

theorem sound_step {a : Action} (h : Sound s) (hG : Undisturbed s a) (hstep : step s a = some s') :
    Sound s' := by
  cases a with
  | setApiKeyCache key ttlSeconds payload =>
    cases hstep
    exact sound_setApiKeyCache h key ttlSeconds fun old t => wellFormed_set old payload t
  | tombstone key ttlSeconds =>
    cases hstep
    exact sound_setApiKeyCache h key ttlSeconds wellFormed_tombstone
  | delete key =>
    cases hstep
    exact sound_put h key nofun
  | deleteFields key catalogue =>
    cases hstep
    refine sound_hdel h key fun name hname => ?_
    obtain ⟨inferenceName, -, rfl⟩ := List.mem_map.mp hname
    exact harmless_quota inferenceName
  | check p =>
    cases hstep
    split <;> exact h
  | write i =>
    obtain ⟨p, hp, rfl⟩ := Option.map_eq_some_iff.mp hstep
    exact sound_hset h (hG p hp)
  | patchIfPresent p =>
    cases hstep
    exact sound_hsetIfFieldExists h p
  | drop i =>
    cases hstep
    exact h
  | tick d =>
    cases hstep
    exact h

end Steps

/-! ## Runs -/

/-- In every run in which a patch's `HSET` finds a hash, each API key has no hash, a tombstone,
or a whole payload that expires. -/
theorem hashes_well_formed {s₀ s : Store} {as : List Action} (hrun : Run step s₀ as s)
    (hundisturbed : Guarded step Undisturbed s₀ as) (hstart : Sound s₀) (key : KeyValue) :
    s.live key = none ∨ ∃ e, s.live key = some e ∧
      (isCacheEntryInvalid e.fields = true ∨
        (Complete e.fields ∧ e.expiresAt.isSome = true)) := by
  have hsound : Sound s :=
    hrun.guardedInvariant (fun _ _ _ h hG hstep => sound_step h hG hstep) hundisturbed hstart
  cases hlive : s.live key with
  | none => exact .inl rfl
  | some e =>
    have hwell := hsound.live hlive
    exact .inr ⟨e, rfl, hwell.fields.imp id fun hcomplete => ⟨hcomplete, hwell.expires⟩⟩

/-! ### A patch and a deletion -/

def emptyStore : Store where
  now := 0
  hash _ := none
  patches := []

theorem sound_emptyStore : Sound emptyStore := nofun

def cachedRow : Row where
  id := 7
  applicationId := 3
  apiKey := sampleKey
  permissions := [1, 2]
  expiresAt := none
  isActive := true
  createdBy := none
  cachedData := none
  rotatedKey := none
  rotatedKeyExpiresAt := none

/-- The tier of the key is changed. -/
def tierPatch : Patch := ⟨cachedRow.apiKey, .tierId, "gold"⟩

/-- The key is cached, and a patch of it finds the hash. -/
def untilCheck : List Action :=
  [.setApiKeyCache cachedRow.apiKey 60 (.refreshed cachedRow (some 1) none ∅), .check tierPatch]

/-- The patch is done before the key is deleted; the next look-up leaves a tombstone, which a
second patch finds. -/
def patchThenDelete : List Action :=
  untilCheck ++ [.write 0, .delete cachedRow.apiKey, .tombstone cachedRow.apiKey 60,
    .check tierPatch, .tick second, .write 0]

theorem hashes_well_formed_patchThenDelete :
    (final step emptyStore patchThenDelete).live cachedRow.apiKey = none ∨
      ∃ e, (final step emptyStore patchThenDelete).live cachedRow.apiKey = some e ∧
        (isCacheEntryInvalid e.fields = true ∨
          (Complete e.fields ∧ e.expiresAt.isSome = true)) :=
  hashes_well_formed (run_final (by decide +kernel))
    (guarded_of_check (g := fun s a => decide (Undisturbed s a))
      (fun _ _ h => of_decide_eq_true h) (by decide +kernel))
    sound_emptyStore cachedRow.apiKey

/-- The deletion comes between the two commands of the patch. -/
def deleteDuringPatch : List Action := untilCheck ++ [.delete cachedRow.apiKey, .write 0]

theorem patch_recreates_hash :
    ¬ ∀ (s₀ s : Store) (as : List Action), Run step s₀ as s → Sound s₀ → ∀ key,
      s.live key = none ∨ ∃ e, s.live key = some e ∧
        (isCacheEntryInvalid e.fields = true ∨
          (Complete e.fields ∧ e.expiresAt.isSome = true)) := by
  intro h
  have hhash : (final step emptyStore deleteDuringPatch).live cachedRow.apiKey =
      some ⟨AList.singleton tierIdField (.str "gold"), none⟩ := by
    decide +kernel
  obtain hnone | ⟨e, he, hwell⟩ := h emptyStore _ deleteDuringPatch
    (run_final (by decide +kernel)) sound_emptyStore cachedRow.apiKey
  · rw [hhash] at hnone
    cases hnone
  · obtain rfl := Option.some.inj (hhash.symm.trans he)
    obtain hinvalid | ⟨-, hexpires⟩ := hwell
    · exact absurd hinvalid (by decide +kernel)
    · cases hexpires

end Ai4iCore.ApiKey.Commands
