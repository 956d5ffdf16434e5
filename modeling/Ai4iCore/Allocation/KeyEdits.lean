import Ai4iCore.Allocation.Frame
import Ai4iCore.Base.Lock

/-!
# Allocation: concurrent edits of one key

`update_single_api_key_allocation`, statement by statement, for any number of calls on one key.
A call reads the key, looks its Application up, takes the Application's row lock, lists the
keys and decides; the lock is there so that the decision is made on the amounts that are
stored.

SQLAlchemy hands a row that the session has loaded before back with its earlier attributes,
unless the query says `populate_existing`. The locked read of the Application does, the list
of the keys does not: the key itself is seen as it was before the lock (`Tables.seen`). And
an attribute that is set to its loaded value issues no UPDATE (`Share.flush`). An edit that
asks for the amount the key had when the call began is then lost, although it is reported.

`no_lost_key_edit`: along a run no edit is lost and every decision is made on the stored
amounts exactly when no decision is made on a key whose amount has changed since its call
read it.
-/

namespace Ai4iCore.Allocation

open Checked Rounding StepSystem Transaction Transaction.Txn

/-! ## The session -/

/-- The identity map: a row that was loaded before keeps the attributes of then. -/
def Tables.seen (t : Tables) (copy : APIKey) : Tables :=
  { t with keys := t.keys.map fun k => if k.id = copy.id then copy else k }

/-- The flush: columns whose value is the loaded one are not written. -/
def Share.flush (loaded assigned stored : Share) : Share where
  allocatedPercentage :=
    if assigned.allocatedPercentage = loaded.allocatedPercentage then stored.allocatedPercentage
    else assigned.allocatedPercentage
  allocatedBudget :=
    if assigned.allocatedBudget = loaded.allocatedBudget then stored.allocatedBudget
    else assigned.allocatedBudget

/-- The amounts a decision about an Application's keys is made on: the Application's budget
and the amounts of its active keys. -/
def Tables.amounts (t : Tables) (applicationId : Nat) : Option ℚ × List (Nat × ℚ) :=
  ((t.application applicationId).bind (·.allocatedBudget),
    (active (t.keysOf applicationId)).map fun k => (k.id, k.amount))

namespace KeyEdits

/-- The body of a request, and the session of platform-core. -/
structure EditRequest where
  bodyKeyId : Nat
  allocation : AllocationValue
  platformCoreDb : Option Connection

/-- How far a call is. From the lock on it carries the amounts that were stored then. -/
inductive Phase
  | idle
  | loaded (copy : APIKey)
  | found (copy : APIKey)
  | locked (copy : APIKey) (stored : Option ℚ × List (Nat × ℚ))
  | listed (copy : APIKey) (view : Tables) (stored : Option ℚ × List (Nat × ℚ))
  | flushed (copy : APIKey) (assigned : Share) (amount : ℚ)
  | succeeded (amount : ℚ)
  | failed (e : AllocationError)
  | aborted

/-- A decision: the amounts it was made on, and those stored when its call took the lock. -/
structure Decision where
  made : Option ℚ × List (Nat × ℚ)
  stored : Option ℚ × List (Nat × ℚ)

/-- The tables, the Applications' row locks and the calls, with the decisions they made and
the edits they committed, in order. -/
structure State where
  tables : Tables
  locks : Locks Nat
  phases : Nat → Phase
  decisions : List Decision
  edits : List (Nat × ℚ)

/-- One statement of call `i`, or its end by an error of the database or a cancellation. -/
inductive Label
  | load (i : Nat)
  | find (i : Nat) (authorized : Bool)
  | lock (i : Nat)
  | list (i : Nat)
  | resolve (i : Nat) (outside : Outside)
  | commit (i : Nat)
  | abort (i : Nat)

def State.set (s : State) (i : Nat) (p : Phase) : State :=
  { s with phases := Function.update s.phases i p }

/-- The transaction of `i` is rolled back. -/
def State.rollback (s : State) (i : Nat) (p : Phase) : State :=
  { s.set i p with locks := s.locks.release i }

/-- `get_by_id`, and the checks before and after it. -/
def EditRequest.load (req : EditRequest) (keyId : Nat) (t : Tables) : Phase :=
  if req.bodyKeyId ≠ keyId then .failed .keyIdMismatch
  else
    match t.key keyId with
    | none => .failed .entityNotFound
    | some key => if key.isActive then .loaded key else .failed .apiKeyRevoked

section Step

variable (keyId : Nat) (requests : Nat → EditRequest)

/-- `_resolve_and_persist_keys` over what the session sees, up to the flush. -/
def resolve (s : State) (i : Nat) (copy : APIKey) (view : Tables)
    (stored : Option ℚ × List (Nat × ℚ)) (outside : Outside) : State :=
  let s : State := { s with
    decisions := s.decisions ++ [⟨view.amounts copy.applicationId, stored⟩] }
  match stageSingleApiKeyAllocation keyId (requests i).bodyKeyId (requests i).allocation
      (requests i).platformCoreDb ⟨view, view, outside⟩ with
  | (.error e, _) => s.rollback i (.failed e)
  | (.ok _, after) =>
    let assigned := ((after.staged.key keyId).map (·.toShare)).getD copy.toShare
    s.set i (.flushed copy assigned assigned.amount)

def step (s : State) : Label → Option State
  | .load i =>
    match s.phases i with
    | .idle => some (s.set i ((requests i).load keyId s.tables))
    | _ => none
  | .find i authorized =>
    match s.phases i with
    | .loaded copy =>
      match s.tables.application copy.applicationId with
      | none => some (s.set i (.failed .entityNotFound))
      | some _ => some (s.set i (if authorized then .found copy else .aborted))
    | _ => none
  | .lock i =>
    match s.phases i with
    | .found copy =>
      if s.locks.mayTake i copy.applicationId then
        match s.tables.application copy.applicationId with
        | none => some (s.set i (.failed .entityNotFound))
        | some application =>
          match application.allocatedBudget with
          | none => some (s.set i (.failed .applicationBudgetNotSet))
          | some _ =>
            some { s.set i (.locked copy (s.tables.amounts copy.applicationId)) with
              locks := s.locks.take i copy.applicationId }
      else none
    | _ => none
  | .list i =>
    match s.phases i with
    | .locked copy stored => some (s.set i (.listed copy (s.tables.seen copy) stored))
    | _ => none
  | .resolve i outside =>
    match s.phases i with
    | .listed copy view stored => some (resolve keyId requests s i copy view stored outside)
    | _ => none
  | .commit i =>
    match s.phases i with
    | .flushed copy assigned amount =>
      some { s.rollback i (.succeeded amount) with
        tables := s.tables.mapKeys fun id share =>
          if id = keyId then copy.toShare.flush assigned share else share
        edits := s.edits ++ [(i, amount)] }
    | _ => none
  | .abort i =>
    match s.phases i with
    | .succeeded _ | .failed _ | .aborted => none
    | _ => some (s.rollback i .aborted)

end Step

/-! ## One resolution -/

/-- A positive amount is a budget that is set. -/
theorem budget_of_amount_pos {share : Share} (h : 0 < share.amount) :
    share.allocatedBudget = some share.amount := by
  unfold Share.amount at h ⊢
  cases hbudget : share.allocatedBudget with
  | none =>
    rw [hbudget] at h
    exact absurd h (lt_irrefl 0)
  | some budget => rfl

theorem key_mapKeys (t : Tables) (f : Nat → Share → Share) (id : Nat) :
    (t.mapKeys f).key id = (t.key id).map fun k => { k with toShare := f k.id k.toShare } :=
  Table.get_map fun _ => rfl

/-- An accepted call has resolved its key to a positive amount. -/
theorem single_accepted {keyId bodyKeyId : Nat} {allocation : AllocationValue}
    {db : Option Connection} {s s' : Session Tables Outside} {r : Dict Nat ℚ × List BudgetUsage}
    (hkeys : (s.staged.keys.map (·.id)).Nodup)
    (h : stageSingleApiKeyAllocation keyId bodyKeyId allocation db s = (.ok r, s')) :
    ∃ (key : APIKey) (share : Share),
      s'.staged.key keyId = some { key with toShare := share } ∧ 0 < share.amount := by
  obtain ⟨key, application, budget, hkey, hactive, -, -, hstage⟩ :=
    stageSingleApiKeyAllocation_accepted h
  obtain ⟨usage, resolved, hpositive, hlevel, rfl⟩ := stageKeyAllocations_accepted hstage
  have hres := resolveLevel_ok (keyRows_nodup hkeys usage key.applicationId) hlevel
  have hid : key.id = keyId := Table.key_of_get hkey
  refine ⟨key, key.toShare.resolve resolved keyId, ?_, ?_⟩
  · show (s.staged.mapKeys _).key keyId = _
    rw [key_mapKeys, hkey, ← hid]
    rfl
  · obtain ⟨-, amount, percentage, hconvert, hpos, -⟩ :=
      checkPositive_ok (hpositive _ List.mem_cons_self)
    obtain ⟨row, hrow, hrid⟩ := (hres.listed keyId).mpr (by
      show keyId ∈ [(explicitInput keyId allocation).id]
      rw [explicitInput_id]
      exact List.mem_cons_self)
    have hmem : key ∈ active (s.staged.keysOf key.applicationId) :=
      mem_active_keysOf.mpr ⟨Table.mem_of_get hkey, rfl, hactive⟩
    let child : AllocationRow := ⟨key.id, key.amount, (usageOf usage key.id).1⟩
    have hchild : child ∈ keyRows usage (active (s.staged.keysOf key.applicationId)) :=
      List.mem_map_of_mem hmem
    have hamount : (key.toShare.resolve resolved key.id).amount = newAmount resolved child :=
      resolve_amount hres (keyRows_nodup hkeys usage key.applicationId) hchild rfl
    have hrow' : rowOf resolved child = some row :=
      rowOf_of_mem hres.ids hrow (hrid.trans hid.symm)
    obtain ⟨e, he, hconverted⟩ := (hres.rows row hrow).converted
    obtain rfl : e = explicitInput keyId allocation := (Prod.mk.inj (List.mem_singleton.mp he)).2
    have hsame : row.amount = amount :=
      (Prod.mk.inj (Except.ok.inj (hconverted.symm.trans hconvert))).1
    rw [← hid, hamount, newAmount, hrow']
    show 0 < row.amount
    rw [hsame]
    exact hpos

/-! ## What the session sees -/

/-- A copy of the key that differs from the stored row in its share only. -/
def CopyOf (keyId : Nat) (t : Tables) (copy : APIKey) : Prop :=
  copy.isActive = true ∧ ∃ share, t.key keyId = some { copy with toShare := share }

theorem CopyOf.mapKeys {keyId : Nat} {t : Tables} {copy : APIKey} (h : CopyOf keyId t copy)
    (f : Nat → Share → Share) : CopyOf keyId (t.mapKeys f) copy := by
  obtain ⟨hactive, share, hkey⟩ := h
  refine ⟨hactive, f copy.id share, ?_⟩
  rw [key_mapKeys, hkey]
  rfl

/-- The share the session sees of a key. -/
def seenShare (copy : APIKey) (id : Nat) (share : Share) : Share :=
  if id = copy.id then copy.toShare else share

section Seen

variable {keyId : Nat} {t : Tables} {copy : APIKey} (hids : (t.keys.map (·.id)).Nodup)
  (h : CopyOf keyId t copy)

include hids h

/-- The session sees the stored tables with the share of its copy. -/
theorem seen_eq : t.seen copy = t.mapKeys (seenShare copy) := by
  obtain ⟨-, share, hkey⟩ := h
  have hkeys : (t.keys.map fun k => if k.id = copy.id then copy else k) = t.keys.map fun k =>
      { k with toShare := seenShare copy k.id k.toShare } := by
    refine List.map_congr_left fun k hk => ?_
    unfold seenShare
    split
    · rename_i hid
      rw [List.inj_on_of_nodup_map hids hk (Table.mem_of_get hkey) hid]
    · rfl
  show ({ t with keys := _ } : Tables) = { t with keys := _ }
  rw [hkeys]

theorem seen_ids : ((t.seen copy).keys.map (·.id)).Nodup := by
  rw [seen_eq hids h, mapKeys_ids]
  exact hids

/-- The session sees the stored amounts when its copy has the stored amount. -/
theorem amounts_seen :
    (t.seen copy).amounts copy.applicationId = t.amounts copy.applicationId ↔
      ∀ k, t.key keyId = some k → k.amount = copy.amount := by
  have hseen : (t.seen copy).amounts copy.applicationId =
      ((t.application copy.applicationId).bind (·.allocatedBudget),
        (active (t.keysOf copy.applicationId)).map fun k =>
          (k.id, if k.id = copy.id then copy.amount else k.amount)) := by
    rw [seen_eq hids h]
    unfold Tables.amounts
    rw [mapKeys_keysOf, active_map, List.map_map]
    refine Prod.ext rfl (List.map_congr_left fun k _ => ?_)
    show (k.id, (seenShare copy k.id k.toShare).amount) = _
    unfold seenShare
    split <;> rfl
  obtain ⟨hactive, share, hkey⟩ := h
  rw [hseen]
  constructor
  · intro heq k hk
    obtain rfl := Option.some.inj (hkey.symm.trans hk)
    have hmem : { copy with toShare := share } ∈ active (t.keysOf copy.applicationId) :=
      mem_active_keysOf.mpr ⟨Table.mem_of_get hkey, rfl, hactive⟩
    have hpair := List.map_inj_left.mp (Prod.mk.inj heq).2 _ hmem
    rw [if_pos rfl] at hpair
    exact (Prod.mk.inj hpair).2.symm
  · intro hamount
    refine Prod.ext rfl (List.map_congr_left fun k hk => ?_)
    by_cases hid : k.id = copy.id
    · have hk' := (mem_active_keysOf.mp hk).1
      have hstored := List.inj_on_of_nodup_map hids hk' (Table.mem_of_get hkey) hid
      rw [if_pos hid, ← hamount k (hstored ▸ hkey)]
    · rw [if_neg hid]

end Seen

/-! ## The invariant -/

/-- A call that holds the lock of its key's Application. -/
structure Holds (keyId : Nat) (s : State) (i : Nat) (copy : APIKey) : Prop where
  copyOf : CopyOf keyId s.tables copy
  lock : s.locks copy.applicationId = some i

/-- What a call knows in each phase. Nobody else writes the Application's keys while it holds
the lock, so the amounts stored at its lock point are still the stored ones. -/
def PhaseInv (keyId : Nat) (s : State) (i : Nat) : Phase → Prop
  | .loaded copy => CopyOf keyId s.tables copy
  | .found copy => CopyOf keyId s.tables copy
  | .locked copy stored => Holds keyId s i copy ∧ stored = s.tables.amounts copy.applicationId
  | .listed copy view stored =>
    Holds keyId s i copy ∧ stored = s.tables.amounts copy.applicationId ∧
      view = s.tables.seen copy
  | .flushed copy assigned amount =>
    Holds keyId s i copy ∧
      ⟨(s.tables.seen copy).amounts copy.applicationId, s.tables.amounts copy.applicationId⟩ ∈
        s.decisions ∧
      assigned.allocatedBudget = some amount ∧ 0 < amount
  | _ => True

structure Inv (keyId : Nat) (s : State) : Prop where
  ids : (s.tables.keys.map (·.id)).Nodup
  phases : ∀ i, PhaseInv keyId s i (s.phases i)

/-- A step of call `i` that writes no table. -/
structure Moved (s s' : State) (i : Nat) : Prop where
  tables : s'.tables = s.tables
  phases : ∀ j, j ≠ i → s'.phases j = s.phases j
  locks : ∀ j k, j ≠ i → s.locks k = some j → s'.locks k = some j
  decisions : s.decisions ⊆ s'.decisions
  edits : s'.edits = s.edits

theorem Moved.phaseInv {keyId : Nat} {s s' : State} {i j : Nat} (h : Moved s s' i) (hj : j ≠ i)
    {p : Phase} (hp : PhaseInv keyId s j p) : PhaseInv keyId s' j p := by
  have hholds : ∀ copy, Holds keyId s j copy → Holds keyId s' j copy := by
    intro copy hcopy
    exact ⟨h.tables ▸ hcopy.copyOf, h.locks j _ hj hcopy.lock⟩
  cases p with
  | loaded copy =>
    show CopyOf keyId s'.tables copy
    rw [h.tables]
    exact hp
  | found copy =>
    show CopyOf keyId s'.tables copy
    rw [h.tables]
    exact hp
  | locked copy stored => exact ⟨hholds copy hp.1, h.tables ▸ hp.2⟩
  | listed copy view stored => exact ⟨hholds copy hp.1, h.tables ▸ hp.2⟩
  | flushed copy assigned amount =>
    refine ⟨hholds copy hp.1, ?_, hp.2.2⟩
    rw [h.tables]
    exact h.decisions hp.2.1
  | idle => trivial
  | succeeded amount => trivial
  | failed e => trivial
  | aborted => trivial

theorem Inv.moved {keyId : Nat} {s s' : State} {i : Nat} (hinv : Inv keyId s) (h : Moved s s' i)
    (hp : PhaseInv keyId s' i (s'.phases i)) : Inv keyId s' := by
  refine ⟨h.tables ▸ hinv.ids, fun j => ?_⟩
  by_cases hj : j = i
  · exact hj ▸ hp
  · rw [h.phases j hj]
    exact h.phaseInv hj (hinv.phases j)

theorem moved_set (s : State) (i : Nat) (p : Phase) : Moved s (s.set i p) i where
  tables := rfl
  phases := fun _ hj => Function.update_of_ne hj _ _
  locks := fun _ _ _ h => h
  decisions := List.Subset.refl _
  edits := rfl

theorem moved_rollback (s : State) (i : Nat) (p : Phase) : Moved s (s.rollback i p) i :=
  { moved_set s i p with locks := fun _ _ hj h => Locks.release_of_held h hj }

theorem phases_set (s : State) (i : Nat) (p : Phase) : (s.set i p).phases i = p :=
  Function.update_self _ _ _

theorem phases_rollback (s : State) (i : Nat) (p : Phase) : (s.rollback i p).phases i = p :=
  Function.update_self _ _ _

section Steps

variable {keyId : Nat} {requests : Nat → EditRequest} {s s' : State}

/-- The decisions are those made before, and the one that this step makes. -/
def Decides (s s' : State) (a : Label) : Prop :=
  (s'.decisions = s.decisions ∧ ∀ i outside, a ≠ .resolve i outside) ∨
    ∃ i outside copy view stored, a = .resolve i outside ∧
      s.phases i = .listed copy view stored ∧
      s'.decisions = s.decisions ++ [⟨view.amounts copy.applicationId, stored⟩]

/-- Everything a step of call `i` does, the commit apart. -/
structure Advance (keyId : Nat) (s s' : State) (a : Label) (i : Nat) : Prop where
  moved : Moved s s' i
  phase : PhaseInv keyId s' i (s'.phases i)
  running : ∀ amount, s'.phases i ≠ .succeeded amount
  decides : Decides s s' a

theorem advance_set {a : Label} {i : Nat} {p : Phase} (hp : PhaseInv keyId (s.set i p) i p)
    (hrunning : ∀ amount, p ≠ .succeeded amount)
    (ha : ∀ j outside, a ≠ .resolve j outside) : Advance keyId s (s.set i p) a i where
  moved := moved_set s i p
  phase := (phases_set s i p).symm ▸ hp
  running := fun amount => (phases_set s i p).symm ▸ hrunning amount
  decides := .inl ⟨rfl, ha⟩

theorem advance_load {i : Nat} (h : step keyId requests s (.load i) = some s') :
    Advance keyId s s' (.load i) i := by
  unfold step at h
  dsimp only at h
  split at h
  · obtain rfl := Option.some.inj h
    have hload : PhaseInv keyId (s.set i ((requests i).load keyId s.tables)) i
        ((requests i).load keyId s.tables) ∧
        ∀ amount, (requests i).load keyId s.tables ≠ .succeeded amount := by
      unfold EditRequest.load
      split
      · exact ⟨trivial, fun _ h => nomatch h⟩
      · cases hkey : s.tables.key keyId with
        | none => exact ⟨trivial, fun _ h => nomatch h⟩
        | some key =>
          dsimp only
          split
          · rename_i hactive
            exact ⟨⟨hactive, key.toShare, hkey⟩, fun _ h => nomatch h⟩
          · exact ⟨trivial, fun _ h => nomatch h⟩
    exact advance_set hload.1 hload.2 fun _ _ h => nomatch h
  · cases h

theorem advance_find (hinv : Inv keyId s) {i : Nat} {authorized : Bool}
    (h : step keyId requests s (.find i authorized) = some s') :
    Advance keyId s s' (.find i authorized) i := by
  unfold step at h
  dsimp only at h
  split at h
  · rename_i copy hphase
    have hcopy : PhaseInv keyId s i (.loaded copy) := hphase ▸ hinv.phases i
    split at h
    · obtain rfl := Option.some.inj h
      exact advance_set trivial (fun _ h => nomatch h) fun _ _ h => nomatch h
    · obtain rfl := Option.some.inj h
      cases authorized with
      | true => exact advance_set hcopy (fun _ h => nomatch h) fun _ _ h => nomatch h
      | false => exact advance_set trivial (fun _ h => nomatch h) fun _ _ h => nomatch h
  · cases h

theorem advance_lock (hinv : Inv keyId s) {i : Nat}
    (h : step keyId requests s (.lock i) = some s') : Advance keyId s s' (.lock i) i := by
  unfold step at h
  dsimp only at h
  split at h
  · rename_i copy hphase
    have hcopy : PhaseInv keyId s i (.found copy) := hphase ▸ hinv.phases i
    split at h
    · rename_i hmay
      split at h
      · obtain rfl := Option.some.inj h
        exact advance_set trivial (fun _ h => nomatch h) fun _ _ h => nomatch h
      · split at h
        · obtain rfl := Option.some.inj h
          exact advance_set trivial (fun _ h => nomatch h) fun _ _ h => nomatch h
        · obtain rfl := Option.some.inj h
          have hphase' := phases_set s i (.locked copy (s.tables.amounts copy.applicationId))
          exact
            { moved := { moved_set s i _ with
                locks := fun j k _ hk => Locks.take_of_held hmay hk }
              phase := hphase'.symm ▸ ⟨⟨hcopy, Locks.take_self _ _ _⟩, rfl⟩
              running := fun amount => hphase'.symm ▸ fun h => nomatch h
              decides := .inl ⟨rfl, fun _ _ h => nomatch h⟩ }
    · cases h
  · cases h

theorem advance_list (hinv : Inv keyId s) {i : Nat}
    (h : step keyId requests s (.list i) = some s') : Advance keyId s s' (.list i) i := by
  unfold step at h
  dsimp only at h
  split at h
  · rename_i copy stored hphase
    have hlocked : PhaseInv keyId s i (.locked copy stored) := hphase ▸ hinv.phases i
    obtain rfl := Option.some.inj h
    refine advance_set ?_ (fun _ h => nomatch h) fun _ _ h => nomatch h
    exact ⟨⟨hlocked.1.copyOf, hlocked.1.lock⟩, hlocked.2, rfl⟩
  · cases h

theorem advance_abort {i : Nat} (h : step keyId requests s (.abort i) = some s') :
    Advance keyId s s' (.abort i) i := by
  have hrollback : Advance keyId s (s.rollback i .aborted) (.abort i) i :=
    { moved := moved_rollback s i _
      phase := (phases_rollback s i .aborted).symm ▸ trivial
      running := fun amount => (phases_rollback s i .aborted).symm ▸ fun h => nomatch h
      decides := .inl ⟨rfl, fun _ _ h => nomatch h⟩ }
  unfold step at h
  dsimp only at h
  split at h
  · cases h
  · cases h
  · cases h
  · obtain rfl := Option.some.inj h
    exact hrollback

/-- The decision is made on what the session sees, and an accepted one assigns a positive
amount. -/
theorem advance_resolve (hinv : Inv keyId s) {i : Nat} {outside : Outside}
    (h : step keyId requests s (.resolve i outside) = some s') :
    Advance keyId s s' (.resolve i outside) i := by
  unfold step at h
  dsimp only at h
  split at h
  · rename_i copy view stored hphase
    have hlisted : PhaseInv keyId s i (.listed copy view stored) := hphase ▸ hinv.phases i
    obtain ⟨hholds, rfl, rfl⟩ := hlisted
    obtain rfl := Option.some.inj h
    have hdecides : ∀ m : State, m.decisions = s.decisions ++
        [⟨(s.tables.seen copy).amounts copy.applicationId,
          s.tables.amounts copy.applicationId⟩] → Decides s m (.resolve i outside) :=
      fun m hm => .inr ⟨i, outside, copy, _, _, rfl, hphase, hm⟩
    unfold resolve
    dsimp only
    split
    · exact
        { moved := { moved_rollback s i _ with decisions := List.subset_append_left _ _ }
          phase := (phases_rollback s i (.failed _)).symm ▸ trivial
          running := fun amount => (phases_rollback s i (.failed _)).symm ▸ fun h => nomatch h
          decides := hdecides _ rfl }
    · rename_i after hstage
      obtain ⟨key, share, hkey, hpos⟩ :=
        single_accepted (seen_ids hinv.ids hholds.copyOf) hstage
      rw [hkey]
      have hset := phases_set s i (.flushed copy share share.amount)
      exact
        { moved := { moved_set s i _ with decisions := List.subset_append_left _ _ }
          phase := hset.symm ▸ ⟨⟨hholds.copyOf, hholds.lock⟩,
            List.mem_append_right _ List.mem_cons_self, budget_of_amount_pos hpos, hpos⟩
          running := fun amount => hset.symm ▸ fun h => nomatch h
          decides := hdecides _ rfl }
  · cases h

theorem step_advance (hinv : Inv keyId s) {a : Label} (h : step keyId requests s a = some s') :
    (∃ i, Advance keyId s s' a i) ∨ ∃ i, a = .commit i := by
  cases a with
  | load i => exact .inl ⟨i, advance_load h⟩
  | find i authorized => exact .inl ⟨i, advance_find hinv h⟩
  | lock i => exact .inl ⟨i, advance_lock hinv h⟩
  | list i => exact .inl ⟨i, advance_list hinv h⟩
  | resolve i outside => exact .inl ⟨i, advance_resolve hinv h⟩
  | commit i => exact .inr ⟨i, rfl⟩
  | abort i => exact .inl ⟨i, advance_abort h⟩

/-- Everything a commit does. -/
theorem step_commit {i : Nat} (h : step keyId requests s (.commit i) = some s') :
    ∃ copy assigned amount, s.phases i = .flushed copy assigned amount ∧
      s'.phases = Function.update s.phases i (.succeeded amount) ∧
      s'.locks = s.locks.release i ∧ s'.decisions = s.decisions ∧
      s'.edits = s.edits ++ [(i, amount)] ∧
      s'.tables = s.tables.mapKeys fun id share =>
        if id = keyId then copy.toShare.flush assigned share else share := by
  unfold step at h
  dsimp only at h
  split at h
  · rename_i copy assigned amount hphase
    obtain rfl := Option.some.inj h
    exact ⟨copy, assigned, amount, hphase, rfl, rfl, rfl, rfl, rfl⟩
  · cases h

/-- Two calls cannot both hold the lock: their copies are of one key. -/
theorem Holds.unique {i j : Nat} {copy copy' : APIKey} (h : Holds keyId s i copy)
    (h' : Holds keyId s j copy') : i = j := by
  obtain ⟨-, share, hkey⟩ := h.copyOf
  obtain ⟨-, share', hkey'⟩ := h'.copyOf
  have happlication : copy.applicationId = copy'.applicationId := by
    have hsame := congrArg APIKey.applicationId (Option.some.inj (hkey.symm.trans hkey'))
    exact hsame
  have hlock := h'.lock
  rw [← happlication, h.lock] at hlock
  exact Option.some.inj hlock

theorem inv_commit (hinv : Inv keyId s) {i : Nat}
    (h : step keyId requests s (.commit i) = some s') : Inv keyId s' := by
  obtain ⟨copy, assigned, amount, hphase, hphases, -, -, -, htables⟩ := step_commit h
  have hflushed : PhaseInv keyId s i (.flushed copy assigned amount) := hphase ▸ hinv.phases i
  refine ⟨?_, fun j => ?_⟩
  · rw [htables, mapKeys_ids]
    exact hinv.ids
  · rw [hphases]
    by_cases hj : j = i
    · rw [hj, Function.update_self]
      trivial
    · rw [Function.update_of_ne hj]
      have hp := hinv.phases j
      cases hpj : s.phases j with
      | loaded copy' =>
        rw [hpj] at hp
        show CopyOf keyId s'.tables copy'
        rw [htables]
        exact CopyOf.mapKeys hp _
      | found copy' =>
        rw [hpj] at hp
        show CopyOf keyId s'.tables copy'
        rw [htables]
        exact CopyOf.mapKeys hp _
      | locked copy' stored =>
        rw [hpj] at hp
        exact absurd (hp.1.unique hflushed.1) hj
      | listed copy' view stored =>
        rw [hpj] at hp
        exact absurd (hp.1.unique hflushed.1) hj
      | flushed copy' assigned' amount' =>
        rw [hpj] at hp
        exact absurd (hp.1.unique hflushed.1) hj
      | idle => trivial
      | succeeded amount' => trivial
      | failed e => trivial
      | aborted => trivial

theorem inv_step (hinv : Inv keyId s) {a : Label} (h : step keyId requests s a = some s') :
    Inv keyId s' := by
  obtain ⟨i, hadvance⟩ | ⟨i, rfl⟩ := step_advance hinv h
  · exact hinv.moved hadvance.moved hadvance.phase
  · exact inv_commit hinv h

end Steps

/-! ## No lost edit -/

/-- Each call that reports success is the last to commit and its amount is stored, or another
edit was committed behind it; and each decision was made on the amounts stored at its call's
lock point. -/
structure Lawful (keyId : Nat) (s : State) : Prop where
  reported : ∀ i amount, s.phases i = .succeeded amount → ∃ before after,
    s.edits = before ++ (i, amount) :: after ∧
      (after ≠ [] ∨ ∃ k, s.tables.key keyId = some k ∧ k.allocatedBudget = some amount)
  validated : ∀ d ∈ s.decisions, d.made = d.stored

/-- The key still has the amount that the deciding call read before its lock. -/
def Unchanged (keyId : Nat) (s : State) : Label → Prop
  | .resolve i _ => ∀ copy view stored, s.phases i = .listed copy view stored →
      ∀ k, s.tables.key keyId = some k → k.amount = copy.amount
  | _ => True

section Law

variable {keyId : Nat} {requests : Nat → EditRequest} {s s' : State}

/-- A step that is no commit keeps the reports, and its decision is lawful when the key is
unchanged. -/
theorem lawful_advance (hinv : Inv keyId s) (hlaw : Lawful keyId s) {a : Label} {i : Nat}
    (h : Advance keyId s s' a i) : Lawful keyId s' ↔ Unchanged keyId s a := by
  have hreported : ∀ j amount, s'.phases j = .succeeded amount → ∃ before after,
      s'.edits = before ++ (j, amount) :: after ∧ (after ≠ [] ∨
        ∃ k, s'.tables.key keyId = some k ∧ k.allocatedBudget = some amount) := by
    intro j amount hj
    by_cases hji : j = i
    · exact absurd (hji ▸ hj) (h.running amount)
    · rw [h.moved.phases j hji] at hj
      rw [h.moved.edits, h.moved.tables]
      exact hlaw.reported j amount hj
  obtain ⟨hsame, hother⟩ | ⟨j, outside, copy, view, stored, rfl, hphase, hnew⟩ := h.decides
  · refine ⟨fun _ => ?_, fun _ => ⟨hreported, hsame ▸ hlaw.validated⟩⟩
    cases a with
    | resolve j outside => exact absurd rfl (hother j outside)
    | _ => trivial
  · have hlisted : PhaseInv keyId s j (.listed copy view stored) := hphase ▸ hinv.phases j
    obtain ⟨hholds, rfl, rfl⟩ := hlisted
    have hseen := amounts_seen hinv.ids hholds.copyOf
    constructor
    · intro hlaw' copy' view' stored' hphase' k hk
      have hmade := hlaw'.validated _ (hnew ▸ List.mem_append_right _ List.mem_cons_self)
      obtain ⟨rfl, -, -⟩ := Phase.listed.inj (hphase.symm.trans hphase')
      exact hseen.mp hmade k hk
    · intro hunchanged
      refine ⟨hreported, fun d hd => ?_⟩
      rw [hnew] at hd
      obtain hd | hd := List.mem_append.mp hd
      · exact hlaw.validated d hd
      · rw [List.mem_singleton.mp hd]
        exact hseen.mpr (hunchanged copy _ _ hphase)

/-- A commit stores the amount that it reports, since its decision was made on the stored
amounts. -/
theorem lawful_commit (hinv : Inv keyId s) (hlaw : Lawful keyId s) {i : Nat}
    (h : step keyId requests s (.commit i) = some s') : Lawful keyId s' := by
  obtain ⟨copy, assigned, amount, hphase, hphases, -, hdecisions, hedits, htables⟩ := step_commit h
  have hflushed : PhaseInv keyId s i (.flushed copy assigned amount) := hphase ▸ hinv.phases i
  obtain ⟨hholds, hmem, hassigned, hpos⟩ := hflushed
  have hmade := (amounts_seen hinv.ids hholds.copyOf).mp (hlaw.validated _ hmem)
  obtain ⟨-, share, hkey⟩ := hholds.copyOf
  have hstored : ∃ k, s'.tables.key keyId = some k ∧ k.allocatedBudget = some amount := by
    have hid : copy.id = keyId := by
      have hget := Table.key_of_get hkey
      exact hget
    refine ⟨{ copy with toShare := copy.toShare.flush assigned share }, ?_, ?_⟩
    · rw [htables, key_mapKeys, hkey]
      simp only [Option.map_some, hid, if_true]
    · show (if assigned.allocatedBudget = copy.allocatedBudget then share.allocatedBudget
        else assigned.allocatedBudget) = some amount
      split
      · -- nothing is written: the stored amount is the copy's, which is the one asked for
        rename_i hsame
        have hcopy : copy.amount = amount := by
          rw [Share.amount, ← hsame, hassigned]
          rfl
        have hamount : share.amount = amount := (hmade _ hkey).trans hcopy
        rw [budget_of_amount_pos (hamount ▸ hpos), hamount]
      · exact hassigned
  refine ⟨fun j amount' hj => ?_, hdecisions ▸ hlaw.validated⟩
  rw [hphases] at hj
  rw [hedits]
  by_cases hji : j = i
  · rw [hji, Function.update_self] at hj
    obtain rfl := Phase.succeeded.inj hj
    exact ⟨s.edits, [], hji ▸ rfl, .inr hstored⟩
  · rw [Function.update_of_ne hji] at hj
    obtain ⟨before, after, hbefore, -⟩ := hlaw.reported j amount' hj
    refine ⟨before, after ++ [(i, amount)], ?_, .inl (by simp)⟩
    rw [hbefore, List.append_assoc, List.cons_append]

end Law

/-- No call has begun. -/
def State.start (t : Tables) : State := ⟨t, fun _ => none, fun _ => .idle, [], []⟩

/-- **No lost key edit.** Along a run of any calls on one key, each reported edit is stored or
followed by another one and each decision is made on the amounts stored at its lock point,
exactly when no decision is made on a key whose amount has changed since its call read it. -/
theorem no_lost_key_edit (keyId : Nat) (requests : Nat → EditRequest) (t : Tables) (s : State)
    (labels : List Label) (hids : (t.keys.map (·.id)).Nodup)
    (hrun : Run (step keyId requests) (State.start t) labels s) :
    Guarded (step keyId requests) (Unchanged keyId) (State.start t) labels ↔
      ∀ done m, done <+: labels → Run (step keyId requests) (State.start t) done m →
        Lawful keyId m := by
  refine Run.guarded_iff (I := Inv keyId) (fun m a m' hm h => inv_step hm h)
    (fun m a m' hm hlaw h => ?_) hrun ⟨hids, fun _ => trivial⟩
    ⟨(fun _ _ h => nomatch h), fun d hd => absurd hd List.not_mem_nil⟩
  obtain ⟨i, hadvance⟩ | ⟨i, rfl⟩ := step_advance hm h
  · exact lawful_advance hm hlaw hadvance
  · exact ⟨fun _ => trivial, fun _ => lawful_commit hm hlaw h⟩

/-! ## Two edits of one key -/

/-- ₹100 of an Application's ₹1000 are the key's. -/
def oneKey : Tables where
  tenants := [⟨1, some 1000⟩]
  applications :=
    [{ allocatedPercentage := some 100, allocatedBudget := some 1000, id := 7, tenantId := 1,
       status := .active }]
  keys :=
    [{ allocatedPercentage := some 10, allocatedBudget := some 100, id := 3, applicationId := 7,
       isActive := true, isExpired := false, cachedFlag := none }]

/-- One call asks for ₹200, the others for the ₹100 that the key has. -/
def raiseAndKeep (i : Nat) : EditRequest :=
  if i = 0 then ⟨3, ⟨.fixed, 200, by norm_num, nofun⟩, none⟩
  else ⟨3, ⟨.fixed, 100, by norm_num, nofun⟩, none⟩

/-- The statements of a call behind its first read. -/
def rest (i : Nat) : List Label :=
  [.find i true, .lock i, .list i, .resolve i ⟨[], []⟩, .commit i]

/-- The amount a call has reported. -/
def State.reported (s : State) (i : Nat) : Option ℚ :=
  match s.phases i with
  | .succeeded amount => some amount
  | _ => none

theorem succeeded_of_reported {s : State} {i : Nat} {amount : ℚ}
    (h : s.reported i = some amount) : s.phases i = .succeeded amount := by
  unfold State.reported at h
  split at h
  · rename_i amount' hphase
    exact (Option.some.inj h) ▸ hphase
  · cases h

/-- `Unchanged` as a test. -/
def unchangedCheck (keyId : Nat) (s : State) : Label → Bool
  | .resolve i _ =>
    match s.phases i with
    | .listed copy _ _ => (s.tables.key keyId).all fun k => k.amount = copy.amount
    | _ => true
  | _ => true

theorem unchanged_of_check {keyId : Nat} {s : State} {a : Label}
    (h : unchangedCheck keyId s a = true) : Unchanged keyId s a := by
  cases a with
  | resolve i outside =>
    intro copy view stored hphase k hk
    unfold unchangedCheck at h
    dsimp only at h
    rw [hphase, hk] at h
    exact of_decide_eq_true h
  | _ => trivial

/-- The second call has read the key before the first one commits: its ₹100 are reported, and
₹200 are stored. -/
theorem key_edit_is_lost :
    ∃ s, Run (step 3 raiseAndKeep) (State.start oneKey)
        (.load 1 :: .load 0 :: rest 0 ++ rest 1) s ∧
      s.edits = [(0, 200), (1, 100)] ∧ s.phases 1 = .succeeded 100 ∧
      (s.tables.key 3).map (·.allocatedBudget) = some (some 200) ∧ ¬Lawful 3 s := by
  obtain ⟨s, hrun, hs⟩ := exists_run_of_map (step 3 raiseAndKeep) (State.start oneKey)
    (.load 1 :: .load 0 :: rest 0 ++ rest 1)
    (fun s => (s.edits, s.reported 1, (s.tables.key 3).map (·.allocatedBudget)))
    (x := ([(0, 200), (1, 100)], some 100, some (some 200))) (by decide +kernel)
  obtain ⟨hedits, hs⟩ := Prod.mk.inj hs
  obtain ⟨hreported, hstored⟩ := Prod.mk.inj hs
  have hphase := succeeded_of_reported hreported
  refine ⟨s, hrun, hedits, hphase, hstored, fun hlaw => ?_⟩
  obtain ⟨before, after, hsplit, hlast⟩ := hlaw.reported 1 100 hphase
  rw [hedits] at hsplit
  obtain hafter | ⟨k, hk, hbudget⟩ := hlast
  · cases before with
    | nil => exact absurd (congrArg Prod.fst (List.cons.inj hsplit).1) (by decide)
    | cons b before =>
      have hlength := congrArg List.length hsplit
      simp only [List.cons_append, List.length_cons, List.length_append, List.length_nil]
        at hlength
      have hpos := List.length_pos_of_ne_nil hafter
      omega
  · rw [hk, Option.map_some, hbudget] at hstored
    exact absurd (Option.some.inj (Option.some.inj hstored)) (by norm_num)

/-- One call after the other. -/
theorem no_lost_key_edit_in_turn :
    ∃ s, Run (step 3 raiseAndKeep) (State.start oneKey)
        (.load 0 :: rest 0 ++ .load 1 :: rest 1) s ∧ Lawful 3 s := by
  obtain ⟨s, hrun, -⟩ := exists_run_of_map (step 3 raiseAndKeep) (State.start oneKey)
    (.load 0 :: rest 0 ++ .load 1 :: rest 1) (fun _ => ()) (x := ()) (by decide +kernel)
  refine ⟨s, hrun, ?_⟩
  refine (no_lost_key_edit 3 raiseAndKeep oneKey s _ (by decide) hrun).mp ?_ _ s
    (List.prefix_refl _) hrun
  exact guarded_of_check (fun _ _ h => unchanged_of_check h) (by decide +kernel)

end KeyEdits

end Ai4iCore.Allocation
