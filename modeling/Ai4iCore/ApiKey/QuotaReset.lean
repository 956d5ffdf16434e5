import Ai4iCore.ApiKey.Tenant

/-!
# The monthly reset of the quota flags

`reset_all_quota_fields`, query by query, while keys are revoked, expire and are created. It
first pages over the active keys by offset and clears the hash of each, then it clears the
snapshots in batches, each from the last id of the one before.

The offset counts the keys that are active when a page is read. When a key of an earlier page
is active no more, the keys behind it move up and the first one of the next page is passed over.

`every_active_key_reset`: as long as none of the keys that were read drops out while others are
still to be read, every key that is active during the whole run is cleared in both places.
-/

namespace Ai4iCore.ApiKey.QuotaReset

open StepSystem

/-- The two page sizes and the inference type catalogue. -/
structure Config where
  pageSize : Nat
  batchSize : Nat
  catalogue : List String
  pageSize_pos : 0 < pageSize
  batchSize_pos : 0 < batchSize

/-- `inference_fields`. -/
def Config.fields (config : Config) : List String := TenantKeys.quotaFieldNames config.catalogue

/-- How far the run is. -/
inductive Phase
  | idle
  /-- The next page starts at `offset`. -/
  | reading (offset : Nat)
  /-- The hashes of a page are being cleared; the page after it starts at `offset`. -/
  | clearing (pending : List KeyValue) (offset : Nat) (last : Bool)
  | selecting (lastId : Nat)
  | updating (ids : List Nat) (last : Bool)
  | done
  /-- The catalogue was empty. -/
  | skipped
  | aborted

structure State where
  now : Time
  /-- The rows of `api_key`, in the order of their ids. -/
  rows : List Row
  redis : Redis
  phase : Phase

/-- A query of the run, or what happens next to it. -/
inductive Label
  | start
  | readPage
  | hdel
  | nextPage
  | selectIds
  | updateIds
  | abort
  | revoke (id : Nat)
  | tick (elapsed : Time)
  | evict (value : KeyValue)
  | create (row : Row) (entry : CacheEntry)

/-- The keys that pass `_active_key_conditions`. -/
def State.activeKeys (s : State) : List Row := s.rows.filter fun row => row.activeConditions s.now

/-- `list_active_keys`. -/
def State.page (s : State) (offset limit : Nat) : List Row := (s.activeKeys.drop offset).take limit

/-- The SELECT of `remove_cached_data_fields_globally`. -/
def State.batch (s : State) (lastId limit : Nat) : List Row :=
  (s.rows.filter fun row =>
    lastId < row.id && row.activeConditions s.now && row.cachedData.isSome).take limit

/-- Its UPDATE, for one row. -/
def clearSnapshot (fields : List String) (ids : List Nat) (row : Row) : Row :=
  if row.id ∈ ids then
    { row with cachedData :=
        row.cachedData.map fun d => d.filterKeys fun name => !fields.contains name }
  else row

/-- `is_active = False`, for one row. -/
def revokeRow (id : Nat) (row : Row) : Row :=
  if row.id = id then { row with isActive := false } else row

/-- A new key comes with the next id and a value that no row holds. -/
def State.admits (s : State) (row : Row) : Bool :=
  0 < row.id && s.rows.all fun r => r.id < row.id && decide (row.apiKey ∉ r.values)

def step (config : Config) (s : State) : Label → Option State
  | .start =>
    match s.phase with
    | .idle =>
      some { s with phase := if config.fields.isEmpty then .skipped else .reading 0 }
    | _ => none
  | .readPage =>
    match s.phase with
    | .reading offset =>
      let keys := s.page offset config.pageSize
      if keys.isEmpty then some { s with phase := .selecting 0 }
      else
        let values := keys.flatMap fun row => row.cacheKeyValues s.now
        let last := decide (keys.length < config.pageSize)
        some { s with phase := .clearing values (offset + config.pageSize) last }
    | _ => none
  | .hdel =>
    match s.phase with
    | .clearing (value :: pending) offset last =>
      some { s with
        redis := s.redis.deleteFields config.fields value
        phase := .clearing pending offset last }
    | _ => none
  | .nextPage =>
    match s.phase with
    | .clearing [] offset last =>
      some { s with phase := if last then .selecting 0 else .reading offset }
    | _ => none
  | .selectIds =>
    match s.phase with
    | .selecting lastId =>
      let ids := (s.batch lastId config.batchSize).map (·.id)
      some { s with
        phase := if ids.isEmpty then .done else .updating ids (ids.length < config.batchSize) }
    | _ => none
  | .updateIds =>
    match s.phase with
    | .updating ids last =>
      some { s with
        rows := s.rows.map (clearSnapshot config.fields ids)
        phase := if last then .done else .selecting (ids.getLast?.getD 0) }
    | _ => none
  | .abort =>
    match s.phase with
    | .done | .skipped | .aborted => none
    | _ => some { s with phase := .aborted }
  | .revoke id => some { s with rows := s.rows.map (revokeRow id) }
  | .tick elapsed => some { s with now := s.now + elapsed }
  | .evict value => some { s with redis := s.redis.deleteApiKeyCache value }
  | .create row entry =>
    if s.admits row then
      some { s with
        rows := s.rows ++ [row]
        redis := Function.update s.redis row.apiKey (some entry) }
    else none

/-! ## Cleared -/

section Cleared

variable (fields : List String)

/-- The hash under `value` has none of the fields. -/
def HashCleared (r : Redis) (value : KeyValue) : Prop :=
  ∀ e, r value = some e → ∀ name ∈ fields, e.fields.lookup name = none

/-- The snapshot of the row has none of the fields. -/
def SnapshotCleared (row : Row) : Prop :=
  ∀ d, row.cachedData = some d → ∀ name ∈ fields, d.lookup name = none

variable {fields}

theorem lookup_filterKeys_field {r : Record Field} {name : String} (h : name ∈ fields) :
    (r.filterKeys fun n => !fields.contains n).lookup name = none := by
  refine Record.lookup_filterKeys_of_false r ?_
  rw [Bool.not_eq_false']
  exact List.contains_iff_mem.mpr h

theorem hashCleared_deleteFields (r : Redis) (value : KeyValue) :
    HashCleared fields (r.deleteFields fields value) value := by
  intro e he name hname
  unfold Redis.deleteFields at he
  rw [Function.update_self] at he
  obtain ⟨old, -, rfl⟩ := Option.map_eq_some_iff.mp he
  exact lookup_filterKeys_field hname

/-- A hash that is not written to stays cleared. -/
theorem HashCleared.update {r : Redis} {value other : KeyValue} (h : HashCleared fields r value)
    (hne : value ≠ other) (entry : Option CacheEntry) :
    HashCleared fields (Function.update r other entry) value := by
  intro e he
  rw [Function.update_of_ne hne] at he
  exact h e he

theorem HashCleared.deleteFields {r : Redis} {value : KeyValue} (h : HashCleared fields r value)
    (other : KeyValue) : HashCleared fields (r.deleteFields fields other) value := by
  by_cases heq : value = other
  · subst heq
    exact hashCleared_deleteFields r value
  · exact h.update heq _

theorem HashCleared.delete {r : Redis} {value : KeyValue} (h : HashCleared fields r value)
    (other : KeyValue) : HashCleared fields (r.deleteApiKeyCache other) value := by
  by_cases heq : value = other
  · subst heq
    intro e he
    unfold Redis.deleteApiKeyCache at he
    rw [Function.update_self] at he
    cases he
  · exact h.update heq _

theorem snapshotCleared_clearSnapshot {ids : List Nat} {row : Row}
    (h : row.id ∈ ids ∨ SnapshotCleared fields row) :
    SnapshotCleared fields (clearSnapshot fields ids row) := by
  unfold clearSnapshot
  split
  · intro d hd name hname
    obtain ⟨old, -, rfl⟩ := Option.map_eq_some_iff.mp hd
    exact lookup_filterKeys_field hname
  · rename_i hid
    exact h.resolve_left hid

end Cleared

/-! ## Paging -/

/-- Dropping elements behind the first `n` leaves these. -/
theorem take_filter_of_forall {α : Type} {p : α → Bool} {l : List α} {n : Nat}
    (h : ∀ x ∈ l.take n, p x = true) : (l.filter p).take n = l.take n := by
  induction l generalizing n with
  | nil => simp
  | cons x l ih =>
    cases n with
    | zero => simp
    | succ n =>
      have hx : p x = true := h x (by simp)
      rw [List.filter_cons_of_pos hx, List.take_succ_cons, List.take_succ_cons,
        ih fun y hy => h y (by rw [List.take_succ_cons]; exact List.mem_cons_of_mem x hy)]

/-- An element is in a page, before it or behind it. -/
theorem mem_take_add {α : Type} {l : List α} {x : α} {m n : Nat} (h : x ∈ l.take (m + n)) :
    x ∈ l.take m ∨ x ∈ (l.drop m).take n := by
  rw [List.take_add] at h
  exact List.mem_append.mp h

/-- Where the next page starts, as long as there may be one. -/
def Phase.offset : Phase → Option Nat
  | .reading offset => some offset
  | .clearing _ offset false => some offset
  | _ => none

/-- The keys that the run has come past. -/
def State.passed (s : State) : List Row :=
  match s.phase with
  | .idle | .skipped | .aborted => []
  | .reading offset => s.activeKeys.take offset
  | .clearing _ offset false => s.activeKeys.take offset
  | .clearing _ _ true | .selecting _ | .updating _ _ | .done => s.activeKeys

/-- The values that it has read and not yet cleared. -/
def Phase.pending : Phase → List KeyValue
  | .clearing pending _ _ => pending
  | _ => []

/-- What the run has done of the snapshots. -/
def SnapshotInv (fields : List String) (row : Row) : Phase → Prop
  | .selecting lastId => row.id ≤ lastId → SnapshotCleared fields row
  | .updating ids last =>
    last = true ∨ row.id ≤ ids.getLast?.getD 0 → row.id ∈ ids ∨ SnapshotCleared fields row
  | .done => SnapshotCleared fields row
  | _ => True

/-- The invariant, for the keys that were there at the start (`initial`). -/
structure Inv (fields : List String) (initial : List Nat) (s : State) : Prop where
  sorted : (s.rows.map (·.id)).Pairwise (· < ·)
  positive : ∀ row ∈ s.rows, 0 < row.id
  known : ∀ id ∈ initial, id ∈ s.rows.map (·.id)
  hashes : ∀ row ∈ s.passed, row.id ∈ initial →
    ∀ value ∈ row.cacheKeyValues s.now, value ∈ s.phase.pending ∨ HashCleared fields s.redis value
  snapshots : ∀ row ∈ s.activeKeys, row.id ∈ initial → SnapshotInv fields row s.phase

/-! ## What happens next to the run -/

/-- The keys that a step makes drop out. -/
def State.drops (s : State) : Label → Row → Bool
  | .revoke id, row => row.id = id
  | .tick elapsed, row => !row.activeConditions (s.now + elapsed)
  | _, _ => false

/-- None of the keys that were read drops out, unless all of them are. -/
def Settled (s : State) (a : Label) : Prop :=
  ∀ offset, s.phase.offset = some offset →
    s.activeKeys.length ≤ offset ∨ ∀ row ∈ s.activeKeys.take offset, s.drops a row = false

section Environment

variable {fields : List String} {initial : List Nat} {s s' : State}

/-- A key that the run has come past is such a key of `s` too, if it is one of its active keys
wherever it is one of those of `s'`. -/
theorem mem_passed (hphase : s'.phase = s.phase) {row : Row}
    (hactive : row ∈ s'.activeKeys → row ∈ s.activeKeys)
    (htake : ∀ offset, s.phase.offset = some offset →
      row ∈ s'.activeKeys.take offset → row ∈ s.activeKeys.take offset)
    (hrow : row ∈ s'.passed) : row ∈ s.passed := by
  unfold State.passed at hrow ⊢
  rw [hphase] at hrow
  cases hcase : s.phase with
  | reading offset =>
    rw [hcase] at hrow
    exact htake offset (by rw [hcase]; rfl) hrow
  | clearing pending offset last =>
    rw [hcase] at hrow
    cases last with
    | false => exact htake offset (by rw [hcase]; rfl) hrow
    | true => exact hactive hrow
  | selecting _ | updating _ _ | done =>
    rw [hcase] at hrow
    exact hactive hrow
  | idle | skipped | aborted =>
    rw [hcase] at hrow
    exact hrow

/-- When none of the keys that were read drops out, nobody slips into their number. -/
theorem passed_of_filter (hphase : s'.phase = s.phase) {p : Row → Bool}
    (hactive : s'.activeKeys = s.activeKeys.filter p)
    (hsettled : ∀ offset, s.phase.offset = some offset →
      s.activeKeys.length ≤ offset ∨ ∀ row ∈ s.activeKeys.take offset, p row = true) :
    ∀ row ∈ s'.passed, row ∈ s.passed := by
  intro row
  refine mem_passed hphase (fun hrow => ?_) fun offset hoffset hrow => ?_
  · rw [hactive] at hrow
    exact (List.mem_filter.mp hrow).1
  · rw [hactive] at hrow
    rcases hsettled offset hoffset with hall | hstay
    · rw [List.take_of_length_le hall]
      exact (List.mem_filter.mp (List.mem_of_mem_take hrow)).1
    · rw [take_filter_of_forall hstay] at hrow
      exact hrow

/-- Keys drop out: revoked, or expired. -/
theorem Inv.dropped (hinv : Inv fields initial s) (hphase : s'.phase = s.phase)
    (hredis : s'.redis = s.redis) (hnow : s.now ≤ s'.now)
    (hids : s'.rows.map (·.id) = s.rows.map (·.id)) {p : Row → Bool}
    (hactive : s'.activeKeys = s.activeKeys.filter p)
    (hsettled : ∀ offset, s.phase.offset = some offset →
      s.activeKeys.length ≤ offset ∨ ∀ row ∈ s.activeKeys.take offset, p row = true) :
    Inv fields initial s' := by
  have hpositive : ∀ id ∈ s.rows.map (·.id), 0 < id := by
    intro id hid
    obtain ⟨row, hrow, rfl⟩ := List.mem_map.mp hid
    exact hinv.positive row hrow
  refine ⟨?_, fun row hrow => ?_, ?_, fun row hrow hid value hvalue => ?_, fun row hrow hid => ?_⟩
  · rw [hids]
    exact hinv.sorted
  · refine hpositive row.id ?_
    rw [← hids]
    exact List.mem_map_of_mem hrow
  · rw [hids]
    exact hinv.known
  · rw [hphase, hredis]
    exact hinv.hashes row (passed_of_filter hphase hactive hsettled row hrow) hid value
      (Row.cacheKeyValues_mono hnow hvalue)
  · rw [hphase]
    rw [hactive] at hrow
    exact hinv.snapshots row (List.mem_filter.mp hrow).1 hid

theorem inv_revoke (hinv : Inv fields initial s) (id : Nat) (hsettled : Settled s (.revoke id)) :
    Inv fields initial { s with rows := s.rows.map (revokeRow id) } := by
  refine hinv.dropped (p := fun row => row.id ≠ id) rfl rfl le_rfl ?_ ?_
    fun offset hoffset => ?_
  · show (s.rows.map (revokeRow id)).map _ = _
    rw [List.map_map]
    refine List.map_congr_left fun row _ => ?_
    show (revokeRow id row).id = row.id
    unfold revokeRow
    split <;> rfl
  · show (s.rows.map (revokeRow id)).filter _ = (s.rows.filter _).filter _
    induction s.rows with
    | nil => rfl
    | cons row rows ih =>
      rw [List.map_cons, List.filter_cons, List.filter_cons, ih]
      unfold revokeRow
      by_cases hid : row.id = id
      · simp [hid, Row.activeConditions]
        split <;> simp [hid]
      · rw [if_neg hid]
        split
        · rw [List.filter_cons_of_pos (by simpa using hid)]
        · rfl
  · refine (hsettled offset hoffset).imp_right fun hstay row hrow => ?_
    have hnot := hstay row hrow
    unfold State.drops at hnot
    exact decide_eq_true (of_decide_eq_false hnot)

theorem inv_tick (hinv : Inv fields initial s) (elapsed : Time)
    (hsettled : Settled s (.tick elapsed)) :
    Inv fields initial { s with now := s.now + elapsed } := by
  refine hinv.dropped (p := fun row => row.activeConditions (s.now + elapsed)) rfl rfl
    (Nat.le_add_right _ _) rfl ?_ fun offset hoffset => ?_
  · show s.rows.filter _ = (s.rows.filter _).filter _
    rw [List.filter_filter]
    refine List.filter_congr fun row _ => ?_
    by_cases hactive : row.activeConditions (s.now + elapsed) = true
    · rw [hactive, Row.activeConditions_mono (Nat.le_add_right _ _) hactive]
      rfl
    · rw [Bool.eq_false_iff.mpr hactive]
      rfl
  · refine (hsettled offset hoffset).imp_right fun hstay row hrow => ?_
    have hnot := hstay row hrow
    unfold State.drops at hnot
    rw [Bool.not_eq_false'] at hnot
    exact hnot

theorem inv_evict (hinv : Inv fields initial s) (value : KeyValue) :
    Inv fields initial { s with redis := s.redis.deleteApiKeyCache value } :=
  { hinv with
    hashes := fun row hrow hid v hv => (hinv.hashes row hrow hid v hv).imp_right (·.delete value) }

theorem mem_activeKeys {row : Row} :
    row ∈ s.activeKeys ↔ row ∈ s.rows ∧ row.activeConditions s.now = true :=
  List.mem_filter

theorem passed_sub_activeKeys {row : Row} (h : row ∈ s.passed) : row ∈ s.activeKeys := by
  unfold State.passed at h
  split at h
  · exact absurd h List.not_mem_nil
  · exact absurd h List.not_mem_nil
  · exact absurd h List.not_mem_nil
  · exact List.mem_of_mem_take h
  · exact List.mem_of_mem_take h
  · exact h
  · exact h
  · exact h
  · exact h

/-- A new key has a new id, so it is none of those that count, and its hash is its own. -/
theorem inv_create (hinv : Inv fields initial s) {row : Row} (entry : CacheEntry)
    (hadmits : s.admits row = true) :
    Inv fields initial { s with
      rows := s.rows ++ [row]
      redis := Function.update s.redis row.apiKey (some entry) } := by
  obtain ⟨hpositive, hadmits⟩ := Bool.and_eq_true_iff.mp hadmits
  have hnew : ∀ r ∈ s.rows, r.id < row.id ∧ row.apiKey ∉ r.values := by
    intro r hr
    obtain ⟨hid, hvalue⟩ := Bool.and_eq_true_iff.mp (List.all_eq_true.mp hadmits r hr)
    exact ⟨of_decide_eq_true hid, of_decide_eq_true hvalue⟩
  have hother : row.id ∉ initial := by
    intro hid
    obtain ⟨r, hr, heq⟩ := List.mem_map.mp (hinv.known row.id hid)
    exact absurd (hnew r hr).1 (by rw [heq]; exact lt_irrefl _)
  have hactive : ∀ {r : Row}, r.id ∈ initial → r ∈ ((s.rows ++ [row]).filter fun r =>
      r.activeConditions s.now) → r ∈ s.activeKeys := by
    intro r hid hr
    rw [List.filter_append] at hr
    rcases List.mem_append.mp hr with hr | hr
    · exact hr
    · exact absurd (List.mem_singleton.mp (List.mem_filter.mp hr).1 ▸ hid) hother
  have htake : ∀ {r : Row} {offset : Nat}, r.id ∈ initial → r ∈ ((s.rows ++ [row]).filter fun r =>
      r.activeConditions s.now).take offset → r ∈ s.activeKeys.take offset := by
    intro r offset hid hr
    rw [List.filter_append, List.take_append] at hr
    rcases List.mem_append.mp hr with hr | hr
    · exact hr
    · have hextra := (List.mem_filter.mp (List.mem_of_mem_take hr)).1
      exact absurd (List.mem_singleton.mp hextra ▸ hid) hother
  refine ⟨?_, fun r hr => ?_, fun id hid => ?_, fun r hr hid value hvalue => ?_,
    fun r hr hid => ?_⟩
  · show ((s.rows ++ [row]).map _).Pairwise _
    rw [List.map_append, List.pairwise_append]
    refine ⟨hinv.sorted, List.pairwise_singleton _ _, fun a ha b hb => ?_⟩
    obtain ⟨r, hr, rfl⟩ := List.mem_map.mp ha
    obtain rfl := List.mem_singleton.mp hb
    exact (hnew r hr).1
  · rcases List.mem_append.mp hr with hr | hr
    · exact hinv.positive r hr
    · rw [List.mem_singleton.mp hr]
      exact of_decide_eq_true hpositive
  · show id ∈ (s.rows ++ [row]).map _
    rw [List.map_append]
    exact List.mem_append_left _ (hinv.known id hid)
  · have hbefore : r ∈ s.passed := by
      refine mem_passed ?_ ?_ ?_ hr
      · rfl
      · exact hactive hid
      · exact fun offset _ => htake hid
    refine (hinv.hashes r hbefore hid value hvalue).imp_right fun hcleared => ?_
    refine hcleared.update ?_ _
    rintro rfl
    have hmem := (mem_activeKeys.mp (passed_sub_activeKeys hbefore)).1
    exact (hnew r hmem).2 (r.cacheKeyValues_subset s.now hvalue)
  · exact hinv.snapshots r (hactive hid hr) hid

end Environment

/-! ## The steps of the run -/

section Run

variable {config : Config} {initial : List Nat} {s s' : State}

theorem inv_start (hinv : Inv config.fields initial s) (h : step config s .start = some s') :
    Inv config.fields initial s' := by
  unfold step at h
  dsimp only at h
  split at h
  · obtain rfl := Option.some.inj h
    by_cases hempty : config.fields.isEmpty = true
    · rw [if_pos hempty]
      exact ⟨hinv.sorted, hinv.positive, hinv.known, fun _ hrow => absurd hrow List.not_mem_nil,
        fun _ _ _ => trivial⟩
    · rw [if_neg hempty]
      exact ⟨hinv.sorted, hinv.positive, hinv.known, fun _ hrow => absurd hrow List.not_mem_nil,
        fun _ _ _ => trivial⟩
  · cases h

/-- The keys of a short page are the last ones. -/
theorem length_le_of_page {offset : Nat} (h : (s.page offset config.pageSize).length <
    config.pageSize) : s.activeKeys.length ≤ offset + config.pageSize := by
  unfold State.page at h
  rw [List.length_take, List.length_drop] at h
  omega

theorem length_le_of_page_nil {offset : Nat} (h : s.page offset config.pageSize = []) :
    s.activeKeys.length ≤ offset := by
  have hlength := congrArg List.length h
  unfold State.page at hlength
  rw [List.length_take, List.length_drop, List.length_nil] at hlength
  have hpos := config.pageSize_pos
  omega

theorem inv_readPage (hinv : Inv config.fields initial s)
    (h : step config s .readPage = some s') : Inv config.fields initial s' := by
  unfold step at h
  dsimp only at h
  split at h
  · rename_i offset hphase
    have hbefore : ∀ row ∈ s.activeKeys.take offset, row.id ∈ initial →
        ∀ value ∈ row.cacheKeyValues s.now, HashCleared config.fields s.redis value := by
      intro row hrow hid value hvalue
      have hmem : row ∈ s.passed := by
        unfold State.passed
        rw [hphase]
        exact hrow
      have hcleared := hinv.hashes row hmem hid value hvalue
      rw [hphase] at hcleared
      exact hcleared.resolve_left List.not_mem_nil
    split at h
    · rename_i hempty
      obtain rfl := Option.some.inj h
      have hall := length_le_of_page_nil (List.isEmpty_iff.mp hempty)
      refine ⟨hinv.sorted, hinv.positive, hinv.known, fun row hrow hid value hvalue => ?_,
        fun row hrow _ hzero => ?_⟩
      · right
        refine hbefore row ?_ hid value hvalue
        rw [List.take_of_length_le hall]
        exact hrow
      · have hpositive := hinv.positive row (mem_activeKeys.mp hrow).1
        omega
    · obtain rfl := Option.some.inj h
      refine ⟨hinv.sorted, hinv.positive, hinv.known, fun row hrow hid value hvalue => ?_,
        fun _ _ _ => trivial⟩
      have hmem : row ∈ s.activeKeys.take (offset + config.pageSize) := by
        unfold State.passed at hrow
        dsimp only at hrow
        by_cases hshort : (s.page offset config.pageSize).length < config.pageSize
        · rw [decide_eq_true hshort] at hrow
          rw [List.take_of_length_le (length_le_of_page hshort)]
          exact hrow
        · rw [decide_eq_false hshort] at hrow
          exact hrow
      rcases mem_take_add hmem with hearlier | hpage
      · exact .inr (hbefore row hearlier hid value hvalue)
      · exact .inl (List.mem_flatMap.mpr ⟨row, hpage, hvalue⟩)
  · cases h

theorem inv_hdel (hinv : Inv config.fields initial s) (h : step config s .hdel = some s') :
    Inv config.fields initial s' := by
  unfold step at h
  dsimp only at h
  split at h
  · rename_i cleared pending offset last hphase
    obtain rfl := Option.some.inj h
    refine ⟨hinv.sorted, hinv.positive, hinv.known, fun row hrow hid value hvalue => ?_,
      fun _ _ _ => trivial⟩
    have hmem : row ∈ s.passed := by
      unfold State.passed at hrow ⊢
      rw [hphase]
      cases last <;> exact hrow
    have hvalue' := hinv.hashes row hmem hid value hvalue
    rw [hphase] at hvalue'
    rcases hvalue' with hpending | hcleared
    · rcases List.mem_cons.mp hpending with rfl | hpending
      · exact .inr (hashCleared_deleteFields s.redis value)
      · exact .inl hpending
    · exact .inr (hcleared.deleteFields cleared)
  · cases h

theorem inv_nextPage (hinv : Inv config.fields initial s)
    (h : step config s .nextPage = some s') : Inv config.fields initial s' := by
  unfold step at h
  dsimp only at h
  split at h
  · rename_i offset last hphase
    obtain rfl := Option.some.inj h
    have hbefore : ∀ row, row ∈ s.passed → row.id ∈ initial →
        ∀ value ∈ row.cacheKeyValues s.now, HashCleared config.fields s.redis value := by
      intro row hrow hid value hvalue
      have hcleared := hinv.hashes row hrow hid value hvalue
      rw [hphase] at hcleared
      exact hcleared.resolve_left List.not_mem_nil
    unfold State.passed at hbefore
    rw [hphase] at hbefore
    cases last with
    | false =>
      refine ⟨hinv.sorted, hinv.positive, hinv.known, fun row hrow hid value hvalue => ?_,
        fun _ _ _ => trivial⟩
      exact .inr (hbefore row hrow hid value hvalue)
    | true =>
      refine ⟨hinv.sorted, hinv.positive, hinv.known, fun row hrow hid value hvalue => ?_,
        fun row hrow _ hzero => ?_⟩
      · exact .inr (hbefore row hrow hid value hvalue)
      · have hpositive := hinv.positive row (mem_activeKeys.mp hrow).1
        omega
  · cases h

/-! ## The snapshots -/

/-- The ids of a batch are the next ones: a row that has been left out is behind them. -/
theorem mem_batch {lastId : Nat} (hsorted : (s.rows.map (·.id)).Pairwise (· < ·)) {row : Row}
    (hrow : row ∈ s.activeKeys) (hlast : lastId < row.id) (hcached : row.cachedData.isSome = true)
    (hwithin : (s.batch lastId config.batchSize).length < config.batchSize ∨
      ∃ b ∈ s.batch lastId config.batchSize, row.id ≤ b.id) :
    row ∈ s.batch lastId config.batchSize := by
  obtain ⟨hmem, hactive⟩ := mem_activeKeys.mp hrow
  have heligible : row ∈ s.rows.filter fun row =>
      lastId < row.id && row.activeConditions s.now && row.cachedData.isSome := by
    refine List.mem_filter.mpr ⟨hmem, ?_⟩
    rw [decide_eq_true hlast, hactive, hcached]
    rfl
  unfold State.batch at hwithin ⊢
  rcases hwithin with hshort | ⟨b, hb, hle⟩
  · rw [List.length_take] at hshort
    rw [List.take_of_length_le (by omega)]
    exact heligible
  · rw [← List.take_append_drop config.batchSize (s.rows.filter _)] at heligible
    rcases List.mem_append.mp heligible with htake | hdrop
    · exact htake
    · -- the rows are in the order of their ids
      have hpairwise : (s.rows.filter fun row => lastId < row.id && row.activeConditions s.now &&
          row.cachedData.isSome).Pairwise fun a b => a.id < b.id :=
        (List.pairwise_map.mp hsorted).sublist List.filter_sublist
      rw [← List.take_append_drop config.batchSize (s.rows.filter _), List.pairwise_append]
        at hpairwise
      exact absurd (hpairwise.2.2 b hb row hdrop) (Nat.not_lt.mpr hle)

theorem snapshotCleared_of_none {fields : List String} {row : Row}
    (h : ¬row.cachedData.isSome = true) : SnapshotCleared fields row := by
  intro d hd
  rw [hd] at h
  exact absurd rfl h

theorem inv_selectIds (hinv : Inv config.fields initial s)
    (h : step config s .selectIds = some s') : Inv config.fields initial s' := by
  unfold step at h
  dsimp only at h
  split at h
  · rename_i lastId hphase
    obtain rfl := Option.some.inj h
    have hhashes := hinv.hashes
    unfold State.passed at hhashes
    rw [hphase] at hhashes
    have hbefore : ∀ row ∈ s.activeKeys, row.id ∈ initial → row.id ≤ lastId →
        SnapshotCleared config.fields row := by
      have hsnapshots := hinv.snapshots
      rw [hphase] at hsnapshots
      exact hsnapshots
    -- what is not cleared yet is in the batch, as far as the batch reaches
    have hcovered : ∀ row ∈ s.activeKeys, row.id ∈ initial →
        ((s.batch lastId config.batchSize).length < config.batchSize ∨
          ∃ b ∈ s.batch lastId config.batchSize, row.id ≤ b.id) →
        row.id ∈ (s.batch lastId config.batchSize).map (·.id) ∨
          SnapshotCleared config.fields row := by
      intro row hrow hid hwithin
      by_cases hle : row.id ≤ lastId
      · exact .inr (hbefore row hrow hid hle)
      · by_cases hcached : row.cachedData.isSome = true
        · left
          exact List.mem_map_of_mem
            (mem_batch hinv.sorted hrow (Nat.lt_of_not_le hle) hcached hwithin)
        · exact .inr (snapshotCleared_of_none hcached)
    by_cases hempty : (s.batch lastId config.batchSize).map (·.id) = []
    · rw [hempty]
      refine ⟨hinv.sorted, hinv.positive, hinv.known, hhashes, fun row hrow hid => ?_⟩
      have hlength : (s.batch lastId config.batchSize).length < config.batchSize := by
        rw [List.map_eq_nil_iff.mp hempty]
        exact config.batchSize_pos
      have hrest := hcovered row hrow hid (.inl hlength)
      rw [hempty] at hrest
      exact hrest.resolve_left List.not_mem_nil
    · rw [if_neg (by rw [List.isEmpty_iff]; exact hempty)]
      refine ⟨hinv.sorted, hinv.positive, hinv.known, hhashes, fun row hrow hid hreach => ?_⟩
      refine hcovered row hrow hid ?_
      rcases hreach with hlast | hle
      · left
        have hshort := of_decide_eq_true hlast
        rw [List.length_map] at hshort
        exact hshort
      · right
        rw [List.getLast?_eq_some_getLast hempty, Option.getD_some] at hle
        obtain ⟨b, hb, hbid⟩ := List.mem_map.mp (List.getLast_mem hempty)
        exact ⟨b, hb, hbid ▸ hle⟩
  · cases h

section ClearSnapshot

variable (fields : List String) (ids : List Nat) (row : Row)

theorem clearSnapshot_id : (clearSnapshot fields ids row).id = row.id := by
  unfold clearSnapshot
  split <;> rfl

theorem clearSnapshot_activeConditions (now : Time) :
    (clearSnapshot fields ids row).activeConditions now = row.activeConditions now := by
  unfold clearSnapshot
  split <;> rfl

theorem clearSnapshot_cacheKeyValues (now : Time) :
    (clearSnapshot fields ids row).cacheKeyValues now = row.cacheKeyValues now := by
  unfold clearSnapshot
  split <;> rfl

end ClearSnapshot

theorem inv_updateIds (hinv : Inv config.fields initial s)
    (h : step config s .updateIds = some s') : Inv config.fields initial s' := by
  unfold step at h
  dsimp only at h
  split at h
  · rename_i ids last hphase
    obtain rfl := Option.some.inj h
    have hids : (s.rows.map (clearSnapshot config.fields ids)).map (·.id) =
        s.rows.map (·.id) := by
      rw [List.map_map]
      exact List.map_congr_left fun row _ => clearSnapshot_id _ _ row
    have hactive : ∀ row ∈ (s.rows.map (clearSnapshot config.fields ids)).filter
        (fun row => row.activeConditions s.now), ∃ b ∈ s.activeKeys,
          clearSnapshot config.fields ids b = row := by
      intro row hrow
      obtain ⟨hmem, hcond⟩ := List.mem_filter.mp hrow
      obtain ⟨b, hb, rfl⟩ := List.mem_map.mp hmem
      rw [clearSnapshot_activeConditions] at hcond
      exact ⟨b, mem_activeKeys.mpr ⟨hb, hcond⟩, rfl⟩
    have hhashes := hinv.hashes
    unfold State.passed at hhashes
    rw [hphase] at hhashes
    have hsnapshots : ∀ b ∈ s.activeKeys, b.id ∈ initial → last = true ∨
        b.id ≤ ids.getLast?.getD 0 → b.id ∈ ids ∨ SnapshotCleared config.fields b := by
      have hbefore := hinv.snapshots
      rw [hphase] at hbefore
      exact hbefore
    have hcleared : ∀ row ∈ (s.rows.map (clearSnapshot config.fields ids)).filter
        (fun row => row.activeConditions s.now), row.id ∈ initial →
        ∀ value ∈ row.cacheKeyValues s.now, HashCleared config.fields s.redis value := by
      intro row hrow hid value hvalue
      obtain ⟨b, hb, rfl⟩ := hactive row hrow
      rw [clearSnapshot_id] at hid
      rw [clearSnapshot_cacheKeyValues] at hvalue
      exact (hhashes b hb hid value hvalue).resolve_left List.not_mem_nil
    have hrest : ∀ row ∈ (s.rows.map (clearSnapshot config.fields ids)).filter
        (fun row => row.activeConditions s.now), row.id ∈ initial →
        last = true ∨ row.id ≤ ids.getLast?.getD 0 → SnapshotCleared config.fields row := by
      intro row hrow hid hreach
      obtain ⟨b, hb, rfl⟩ := hactive row hrow
      rw [clearSnapshot_id] at hid hreach
      exact snapshotCleared_clearSnapshot (hsnapshots b hb hid hreach)
    have hpositive : ∀ row ∈ s.rows.map (clearSnapshot config.fields ids), 0 < row.id := by
      intro row hrow
      obtain ⟨b, hb, rfl⟩ := List.mem_map.mp hrow
      rw [clearSnapshot_id]
      exact hinv.positive b hb
    cases last with
    | true =>
      refine ⟨?_, hpositive, ?_, fun row hrow hid value hvalue => ?_, fun row hrow hid => ?_⟩
      · rw [hids]
        exact hinv.sorted
      · rw [hids]
        exact hinv.known
      · exact .inr (hcleared row hrow hid value hvalue)
      · exact hrest row hrow hid (.inl rfl)
    | false =>
      refine ⟨?_, hpositive, ?_, fun row hrow hid value hvalue => ?_, fun row hrow hid hle => ?_⟩
      · rw [hids]
        exact hinv.sorted
      · rw [hids]
        exact hinv.known
      · exact .inr (hcleared row hrow hid value hvalue)
      · exact hrest row hrow hid (.inr hle)
  · cases h

theorem inv_step (hinv : Inv config.fields initial s) {a : Label} (hsettled : Settled s a)
    (h : step config s a = some s') : Inv config.fields initial s' := by
  cases a with
  | start => exact inv_start hinv h
  | readPage => exact inv_readPage hinv h
  | hdel => exact inv_hdel hinv h
  | nextPage => exact inv_nextPage hinv h
  | selectIds => exact inv_selectIds hinv h
  | updateIds => exact inv_updateIds hinv h
  | abort =>
    have haborted : Inv config.fields initial { s with phase := .aborted } :=
      ⟨hinv.sorted, hinv.positive, hinv.known, fun _ hrow => absurd hrow List.not_mem_nil,
        fun _ _ _ => trivial⟩
    unfold step at h
    dsimp only at h
    split at h
    · cases h
    · cases h
    · cases h
    · exact Option.some.inj h ▸ haborted
  | revoke id => exact Option.some.inj h ▸ inv_revoke hinv id hsettled
  | tick elapsed => exact Option.some.inj h ▸ inv_tick hinv elapsed hsettled
  | evict value => exact Option.some.inj h ▸ inv_evict hinv value
  | create row entry =>
    unfold step at h
    dsimp only at h
    split at h
    · rename_i hadmits
      exact Option.some.inj h ▸ inv_create hinv entry hadmits
    · cases h

end Run

/-! ## Every active key is reset -/

/-- The key is active. -/
def State.KeyActive (s : State) (id : Nat) : Prop := ∃ row ∈ s.activeKeys, row.id = id

/-- The quota flags of the key are cleared, in its hashes and in its snapshot. -/
def State.KeyCleared (s : State) (fields : List String) (id : Nat) : Prop :=
  ∀ row ∈ s.rows, row.id = id →
    (∀ value ∈ row.cacheKeyValues s.now, HashCleared fields s.redis value) ∧
      SnapshotCleared fields row

/-- The table before the run: rows in the order of their ids, which count from 1. -/
structure WellFormed (s : State) : Prop where
  sorted : (s.rows.map (·.id)).Pairwise (· < ·)
  positive : ∀ row ∈ s.rows, 0 < row.id
  idle : s.phase = .idle

/-- **Every active key is reset.** In a run that ends, with any keys revoked, expired and created
next to it, each key that is active all the time has its quota flags cleared in Redis and in its
snapshot, provided no key that was read drops out while another is still to be read. -/
theorem every_active_key_reset (config : Config) (s₀ s : State) (labels : List Label)
    (hstart : WellFormed s₀) (hrun : Run (step config) s₀ labels s)
    (hsettled : Guarded (step config) Settled s₀ labels) (hdone : s.phase = .done) (id : Nat)
    (hactive : ∀ begun m, begun <+: labels → Run (step config) s₀ begun m → m.KeyActive id) :
    s.KeyCleared config.fields id := by
  have hempty : s₀.passed = [] := by
    unfold State.passed
    rw [hstart.idle]
  have hinv₀ : Inv config.fields (s₀.rows.map (·.id)) s₀ := by
    refine ⟨hstart.sorted, hstart.positive, fun _ h => h, fun row hrow => ?_, fun row _ _ => ?_⟩
    · rw [hempty] at hrow
      exact absurd hrow List.not_mem_nil
    · rw [hstart.idle]
      trivial
  have hinv := Run.guardedInvariant (fun _ _ _ hm hG h => inv_step hm hG h) hrun hsettled hinv₀
  obtain ⟨first, hfirst, hid⟩ := hactive [] s₀ List.nil_prefix (Run.nil s₀)
  obtain ⟨row, hrow, hrowid⟩ := hactive labels s (List.prefix_refl _) hrun
  have htracked : row.id ∈ s₀.rows.map (·.id) := by
    rw [hrowid, ← hid]
    exact List.mem_map_of_mem (mem_activeKeys.mp hfirst).1
  intro other hother hotherid
  obtain rfl : other = row := by
    have hnodup : (s.rows.map (·.id)).Nodup := hinv.sorted.imp Nat.ne_of_lt
    exact List.inj_on_of_nodup_map hnodup hother (mem_activeKeys.mp hrow).1
      (hotherid.trans hrowid.symm)
  refine ⟨fun value hvalue => ?_, ?_⟩
  · have hpassed : other ∈ s.passed := by
      unfold State.passed
      rw [hdone]
      exact hrow
    have hcleared := hinv.hashes other hpassed htracked value hvalue
    rw [hdone] at hcleared
    exact hcleared.resolve_left List.not_mem_nil
  · have hsnapshot := hinv.snapshots other hrow htracked
    rw [hdone] at hsnapshot
    exact hsnapshot

/-! ## A key is revoked between two pages -/

/-- The value of the second sample key. -/
def otherKey : KeyValue := ⟨"00112233445566778899aabbccddeeff", by decide⟩

/-- A key whose quota for translation is exhausted. -/
def exhaustedRow (id : Nat) (value : KeyValue) : Row where
  id := id
  applicationId := 7
  apiKey := value
  permissions := []
  expiresAt := none
  isActive := true
  createdBy := none
  cachedData := some (AList.singleton "quota-nmt" (.str "1"))
  rotatedKey := none
  rotatedKeyExpiresAt := none

/-- Two of them. -/
def twoKeys : State where
  now := 0
  rows := [exhaustedRow 1 sampleKey, exhaustedRow 2 otherKey]
  redis := fun _ => some ⟨AList.singleton "quota-nmt" (.str "1"), 1⟩
  phase := .idle

/-- Pages of one key. -/
def singlePages : Config := ⟨1, 1, ["nmt"], Nat.one_pos, Nat.one_pos⟩

/-- The run until it has cleared the first page. -/
def firstPage : List Label := [.start, .readPage, .hdel, .nextPage]

theorem twoKeys_wellFormed : WellFormed twoKeys where
  sorted := by decide
  positive := by decide
  idle := rfl

/-- The key is active, as a test. -/
def State.keyActiveTest (s : State) (id : Nat) : Bool := s.activeKeys.any fun row => row.id = id

theorem keyActive_of_test {s : State} {id : Nat} (h : s.keyActiveTest id = true) :
    s.KeyActive id := by
  obtain ⟨row, hrow, hid⟩ := List.any_eq_true.mp h
  exact ⟨row, hrow, of_decide_eq_true hid⟩

/-- The first key is revoked once it is cleared. The second one is now the first active key, and
the next page starts behind it: its flag stays in Redis. -/
theorem shifted_key_is_skipped :
    ∃ labels s, WellFormed twoKeys ∧ Run (step singlePages) twoKeys labels s ∧ s.phase = .done ∧
      (∀ begun m, begun <+: labels → Run (step singlePages) twoKeys begun m → m.KeyActive 2) ∧
      ¬s.KeyCleared singlePages.fields 2 := by
  let labels := firstPage ++ [.revoke 1, .readPage, .selectIds, .updateIds, .selectIds]
  have hrun : Run (step singlePages) twoKeys labels (final (step singlePages) twoKeys labels) :=
    run_final (by decide)
  refine ⟨labels, _, twoKeys_wellFormed, hrun, rfl, ?_, fun hcleared => ?_⟩
  · refine hrun.forall_prefix ?_ (keyActive_of_test (by decide))
    exact guarded_of_check (g := fun s _ => s.keyActiveTest 2)
      (fun _ _ h => keyActive_of_test h) (by decide)
  · have hhash := (hcleared (clearSnapshot singlePages.fields [2] (exhaustedRow 2 otherKey))
      (by decide) rfl).1 otherKey List.mem_cons_self
    exact absurd (hhash _ rfl "quota-nmt" (by decide)) (by decide)

/-- `Settled` as a test. -/
def settledTest (s : State) (a : Label) : Bool :=
  match s.phase.offset with
  | some offset =>
    s.activeKeys.length ≤ offset || (s.activeKeys.take offset).all fun row => !s.drops a row
  | none => true

theorem settled_of_test {s : State} {a : Label} (h : settledTest s a = true) : Settled s a := by
  intro offset hoffset
  unfold settledTest at h
  rw [hoffset] at h
  rcases Bool.or_eq_true_iff.mp h with hall | hstay
  · exact .inl (of_decide_eq_true hall)
  · right
    intro row hrow
    have hnot := List.all_eq_true.mp hstay row hrow
    rw [Bool.not_eq_true'] at hnot
    exact hnot

/-- A key is created and revoked again behind the pages that were read: both keys are cleared. -/
theorem every_active_key_reset_undisturbed :
    ∃ labels s, Run (step singlePages) twoKeys labels s ∧ s.phase = .done ∧
      s.KeyCleared singlePages.fields 2 := by
  let labels := firstPage ++
    [.create (exhaustedRow 3 ⟨"ffeeddccbbaa99887766554433221100", by decide⟩) ⟨∅, 1⟩, .revoke 3,
      .readPage, .hdel, .nextPage, .readPage, .selectIds, .updateIds, .selectIds, .updateIds,
      .selectIds]
  have hrun : Run (step singlePages) twoKeys labels (final (step singlePages) twoKeys labels) :=
    run_final (by decide)
  refine ⟨labels, _, hrun, rfl, ?_⟩
  refine every_active_key_reset singlePages twoKeys _ labels twoKeys_wellFormed hrun
    (guarded_of_check (fun _ _ h => settled_of_test h) (by decide)) rfl 2 ?_
  refine hrun.forall_prefix ?_ (keyActive_of_test (by decide))
  exact guarded_of_check (g := fun s _ => s.keyActiveTest 2) (fun _ _ h => keyActive_of_test h)
    (by decide)

end Ai4iCore.ApiKey.QuotaReset
