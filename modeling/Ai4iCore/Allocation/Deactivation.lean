import Ai4iCore.Allocation.KeyCeiling
import Ai4iCore.Allocation.KeyEdits

/-!
# Allocation: deactivating an Application

`update_application` to INACTIVE, statement by statement, next to any number of calls that
create keys or edit allocations. The deactivation zeroes the Application's active keys with
one bulk UPDATE and then updates the Application, whose row it read without a lock; the calls
lock the Application first and read it again.

The bulk UPDATE sees the keys that are committed when it starts, and it does not lock the
Application. A key that `create_api_key` commits behind that start is not zeroed. And an
Application that had no budget when the deactivation read it keeps the budget it was given
since: setting a column to its loaded value writes nothing.

`deactivation_releases`: in a run in which neither happens, a deactivated Application has no
active key with a positive budget.
-/

namespace Ai4iCore.Allocation

open Checked Rounding StepSystem Transaction Transaction.Txn

/-! ## The flush of a session -/

/-- The flush of one row; a row that the session did not load or did not keep is not written. -/
def flushShare (loaded assigned : Option Share) (stored : Share) : Share :=
  match loaded, assigned with
  | some loaded, some assigned => loaded.flush assigned stored
  | _, _ => stored

/-- What the flush makes of a key's share. -/
def flushedKey (view after : Tables) (id : Nat) (stored : Share) : Share :=
  flushShare ((view.key id).map (·.toShare)) ((after.key id).map (·.toShare)) stored

/-- What the flush makes of an Application's share. -/
def flushedApplication (view after : Tables) (id : Nat) (stored : Share) : Share :=
  flushShare ((view.application id).map (·.toShare)) ((after.application id).map (·.toShare))
    stored

/-- The new rows get their ids from the stored table. -/
def Tables.insertKeys (t : Tables) (inserted : List APIKey) : Tables :=
  inserted.foldl (fun t k => t.insertKey k.applicationId k.toShare) t

/-- The stored tables after the flush of a session that has made `after` of `view`. -/
def Tables.flushed (t view after : Tables) : Tables :=
  ((t.mapKeys (flushedKey view after)).mapApplications (flushedApplication view after)).insertKeys
    (after.keys.drop view.keys.length)

/-- The keys that the session has to update, in the order of the table. -/
def Tables.updatedKeys (view after : Tables) : List Nat :=
  (view.keys.filter fun k => (after.key k.id).map (·.toShare) ≠ some k.toShare).map (·.id)

namespace Deactivation

/-! ## The calls -/

inductive Request
  | create (applicationId : Nat) (percentage budget : Option ℚ)
  | singleKey (keyId bodyKeyId : Nat) (allocation : AllocationValue)
  | applicationKeys (applicationId bodyApplicationId : Nat) (allocation : AllocationValue)
      (apiKeys : List APIKeyAllocationRow)
  | tenantApplications (tenantId : Nat) (rows : List ApplicationAllocationRow)

/-- A request, and the session of platform-core that it is given. -/
structure Call where
  request : Request
  platformCoreDb : Option Connection

/-- What a request reads before its lock. Only the key of `update_single_api_key_allocation` is
read a second time without `populate_existing`. -/
def Request.load (t : Tables) : Request → Except AllocationError (Option APIKey)
  | .singleKey keyId bodyKeyId _ => do
    require (bodyKeyId = keyId) .keyIdMismatch
    let key ← orRaise (t.key keyId) .entityNotFound
    require key.isActive .apiKeyRevoked
    return some key
  | _ => .ok none

/-- The Applications whose rows a request locks. -/
def Request.targets (t : Tables) : Request → List Nat
  | .create applicationId _ _ => [applicationId]
  | .singleKey keyId _ _ => (t.key keyId).toList.map (·.applicationId)
  | .applicationKeys applicationId _ _ _ => [applicationId]
  | .tenantApplications tenantId _ => (t.applicationsOf tenantId).map (·.id)

/-- What a call does before its commit. -/
def Call.stage (call : Call) : Handler Unit :=
  match call.request with
  | .create applicationId percentage budget => do
    let _ ← stageApiKey applicationId percentage budget call.platformCoreDb
  | .singleKey keyId bodyKeyId allocation => do
    let _ ← stageSingleApiKeyAllocation keyId bodyKeyId allocation call.platformCoreDb
  | .applicationKeys applicationId bodyApplicationId allocation apiKeys => do
    let _ ← stageApplicationKeyAllocations applicationId bodyApplicationId allocation apiKeys
      call.platformCoreDb
  | .tenantApplications tenantId rows => do
    let _ ← stageTenantApplicationAllocations tenantId rows call.platformCoreDb

/-! ## States and steps -/

inductive Row
  | application (id : Nat)
  | key (id : Nat)
  deriving DecidableEq

/-- How far a call is: the Applications it still has to lock and those it has locked, then the
keys it still has to update. -/
inductive Phase
  | idle
  | locking (copy : Option APIKey) (pending held : List Nat)
  | writing (view after : Tables) (pending : List Nat)
  | succeeded
  | failed (e : AllocationError)
  | aborted

/-- How far the deactivation is: its copy of the Application, the keys that its bulk UPDATE
still has to visit and those it has zeroed. -/
inductive Progress
  | idle
  | loaded (copy : Application)
  | zeroing (copy : Application) (pending zeroed : List Nat)
  | updated (copy : Application) (zeroed : List Nat)
  | done
  | unneeded
  | aborted

structure State where
  tables : Tables
  locks : Locks Row
  progress : Progress
  phases : Nat → Phase

/-- One statement of call `i` or of the deactivation, or its end by an error of the database
(a deadlock is one) or a cancellation. -/
inductive Label
  | load (i : Nat)
  | lock (i : Nat)
  | resolve (i : Nat) (outside : Outside)
  | write (i : Nat)
  | commit (i : Nat)
  | abort (i : Nat)
  | loadApplication
  | zeroAllocation
  | zeroRow
  | updateApplication
  | commitApplication
  | abortApplication

/-- The deactivation holds its locks as transaction 0, call `i` as `i + 1`. -/
def holder (i : Nat) : Nat := i + 1

def State.set (s : State) (i : Nat) (p : Phase) : State :=
  { s with phases := Function.update s.phases i p }

/-- The transaction of call `i` ends. -/
def State.close (s : State) (i : Nat) (p : Phase) : State :=
  { s.set i p with locks := s.locks.release (holder i) }

/-- The transaction of the deactivation ends. -/
def State.finish (s : State) (p : Progress) : State :=
  { s with progress := p, locks := s.locks.release 0 }

/-- What the session of a call sees once it has its locks. -/
def sight (t : Tables) : Option APIKey → Tables
  | none => t
  | some copy => t.seen copy

def zeroShare (zeroed : List Nat) (id : Nat) (share : Share) : Share :=
  if id ∈ zeroed then ⟨some 0, some 0⟩ else share

/-- The Application is set to INACTIVE without an allocation, by way of the copy. -/
def releaseApplication (copy a : Application) : Application :=
  { a with toShare := copy.toShare.flush ⟨none, none⟩ a.toShare, status := .inactive }

/-- What the commit of the deactivation writes. -/
def released (t : Tables) (applicationId : Nat) (copy : Application) (zeroed : List Nat) : Tables :=
  (t.mapKeys (zeroShare zeroed)).modifyApplication applicationId (releaseApplication copy)

section Step

variable (applicationId : Nat) (calls : Nat → Call)

/-- The handler runs over what the session sees. -/
def resolve (s : State) (i : Nat) (view : Tables) (outside : Outside) : State :=
  match (calls i).stage ⟨view, view, outside⟩ with
  | (.error e, _) => s.close i (.failed e)
  | (.ok _, after) => s.set i (.writing view after.staged (view.updatedKeys after.staged))

/-- The bulk UPDATE visits a row: once it has the lock it looks at the row again. -/
def visit (s : State) (copy : Application) (id : Nat) (pending zeroed : List Nat) : State :=
  let zeroed :=
    match s.tables.key id with
    | some k => if k.applicationId = applicationId ∧ k.isActive then zeroed ++ [id] else zeroed
    | none => zeroed
  { s with locks := s.locks.take 0 (.key id), progress := .zeroing copy pending zeroed }

def step (s : State) : Label → Option State
  | .load i =>
    match s.phases i with
    | .idle =>
      match (calls i).request.load s.tables with
      | .error e => some (s.set i (.failed e))
      | .ok copy => some (s.set i (.locking copy ((calls i).request.targets s.tables) []))
    | _ => none
  | .lock i =>
    match s.phases i with
    | .locking copy (a :: pending) held =>
      if s.locks.mayTake (holder i) (.application a) then
        some { s.set i (.locking copy pending (a :: held)) with
          locks := s.locks.take (holder i) (.application a) }
      else none
    | _ => none
  | .resolve i outside =>
    match s.phases i with
    | .locking copy [] _ => some (resolve calls s i (sight s.tables copy) outside)
    | _ => none
  | .write i =>
    match s.phases i with
    | .writing view after (id :: pending) =>
      if s.locks.mayTake (holder i) (.key id) then
        some { s.set i (.writing view after pending) with
          locks := s.locks.take (holder i) (.key id) }
      else none
    | _ => none
  | .commit i =>
    match s.phases i with
    | .writing view after [] =>
      some { s.close i .succeeded with tables := s.tables.flushed view after }
    | _ => none
  | .abort i =>
    match s.phases i with
    | .locking _ _ _ | .writing _ _ _ => some (s.close i .aborted)
    | _ => none
  | .loadApplication =>
    match s.progress with
    | .idle =>
      match s.tables.application applicationId with
      | none => some { s with progress := .aborted }
      | some copy =>
        some { s with progress := if copy.status = .active then .loaded copy else .unneeded }
    | _ => none
  | .zeroAllocation =>
    match s.progress with
    | .loaded copy =>
      some { s with
        progress := .zeroing copy ((active (s.tables.keysOf applicationId)).map (·.id)) [] }
    | _ => none
  | .zeroRow =>
    match s.progress with
    | .zeroing copy (id :: pending) zeroed =>
      if s.locks.mayTake 0 (.key id) then some (visit applicationId s copy id pending zeroed)
      else none
    | _ => none
  | .updateApplication =>
    match s.progress with
    | .zeroing copy [] zeroed =>
      if s.locks.mayTake 0 (.application applicationId) then
        some { s with
          locks := s.locks.take 0 (.application applicationId), progress := .updated copy zeroed }
      else none
    | _ => none
  | .commitApplication =>
    match s.progress with
    | .updated copy zeroed =>
      some { s.finish .done with tables := released s.tables applicationId copy zeroed }
    | _ => none
  | .abortApplication =>
    match s.progress with
    | .loaded _ | .zeroing _ _ _ | .updated _ _ => some (s.finish .aborted)
    | _ => none

end Step

/-! ## What the handlers stage -/

/-- A session has rewritten rows of the `targets` and their keys only; what it inserted are
keys that it was asked to create. -/
structure Edited (request : Request) (targets : List Nat) (view after : Tables) : Prop where
  keys : ∃ (f : Nat → Share → Share) (inserted : List APIKey),
    after.keys = (view.mapKeys f).keys ++ inserted ∧
      (∀ k ∈ view.keys, k.applicationId ∉ targets → f k.id k.toShare = k.toShare) ∧
      ∀ k ∈ inserted, k.applicationId ∈ targets ∧
        ∃ percentage budget, request = .create k.applicationId percentage budget
  applications : ∃ f : Nat → Share → Share,
    after.applications = (view.mapApplications f).applications ∧
      ∀ a ∈ view.applications, a.id ∉ targets → f a.id a.toShare = a.toShare

/-- An Application that a deactivation has released. -/
def Released (t : Tables) (applicationId : Nat) : Prop :=
  ∀ a, t.application applicationId = some a → a.status = .inactive ∧ a.allocatedBudget = none

/-- Rewriting the shares with the identity changes nothing. -/
theorem mapApplications_same (t : Tables) : t.mapApplications (fun _ share => share) = t := by
  show ({ t with applications := t.applications.map fun a => a } : Tables) = t
  rw [List.map_id']

theorem mapKeys_same (t : Tables) : t.mapKeys (fun _ share => share) = t := by
  show ({ t with keys := t.keys.map fun k => k } : Tables) = t
  rw [List.map_id']

section Handlers

variable {request : Request} {s s' : Session Tables Outside} {db : Option Connection}

/-- A resolution of an Application's keys rewrites keys of that Application. -/
theorem edited_keyAllocations {applicationId : Nat} {budget : ℚ}
    {rows : List APIKeyAllocationRow} {out : Dict Nat ℚ × List BudgetUsage}
    (hkeys : (s.staged.keys.map (·.id)).Nodup)
    (h : stageKeyAllocations applicationId budget rows db s = (.ok out, s')) :
    Edited request [applicationId] s.staged s'.staged := by
  obtain ⟨usage, resolved, -, hlevel, rfl⟩ := stageKeyAllocations_accepted h
  have hres := resolveLevel_ok (keyRows_nodup hkeys usage applicationId) hlevel
  refine ⟨⟨fun id share => share.resolve resolved id, [], (List.append_nil _).symm,
    fun k hk hother => ?_, fun _ hk => absurd hk List.not_mem_nil⟩,
    ⟨fun _ share => share, ?_, fun _ _ _ => rfl⟩⟩
  · exact cascadeShare_of_other hres hkeys false hk
      (.inl fun heq => hother (List.mem_singleton.mpr heq))
  · show s.staged.applications = _
    rw [mapApplications_same]

/-- A new key is one of its Application, which has a budget. -/
theorem edited_create {applicationId : Nat} {percentage budget : Option ℚ} {out : Nat × ℚ}
    (h : stageApiKey applicationId percentage budget db s = (.ok out, s')) :
    Edited (.create applicationId percentage budget) [applicationId] s.staged s'.staged ∧
      ¬Released s.staged applicationId := by
  unfold stageApiKey at h
  rw [read_bind] at h
  obtain ⟨application, happlication, h⟩ := check_bind h
  obtain ⟨⟨p, ceiling, stored⟩, hceiling, h⟩ := check_bind h
  obtain ⟨_, -, h⟩ := check_bind h
  obtain ⟨usage, m, hm, h⟩ := bind_accepted h
  obtain rfl : s = m := (fetchBudgetUsage_accepted hm).symm
  obtain ⟨_, -, h⟩ := check_bind h
  rw [stage_bind] at h
  obtain ⟨-, rfl⟩ := pure_accepted h
  refine ⟨⟨⟨fun _ share => share, [s.staged.newKey applicationId ⟨some p, some stored⟩],
    ?_, fun _ _ _ => rfl, ?_⟩,
    ⟨fun _ share => share, ?_, fun _ _ _ => rfl⟩⟩, fun hreleased => ?_⟩
  · show s.staged.keys ++ _ = _
    rw [mapKeys_same]
  · intro k hk
    obtain rfl := List.mem_singleton.mp hk
    exact ⟨List.mem_singleton.mpr rfl, percentage, budget, rfl⟩
  · show s.staged.applications = _
    rw [mapApplications_same]
  · have hpositive := (newCeiling_ok hceiling).1
    rw [(hreleased application (orRaise_ok happlication)).2] at hpositive
    exact absurd hpositive (lt_irrefl 0)

/-- What the loop over the resized Applications keeps: rows of the `targets` and their keys are
rewritten, and no row is inserted. -/
structure Rewritten (targets : List Nat) (view t : Tables) : Prop where
  keys : ∃ f : Nat → Share → Share, t.keys = (view.mapKeys f).keys ∧
    ∀ k ∈ view.keys, k.applicationId ∉ targets → f k.id k.toShare = k.toShare
  applications : ∃ f : Nat → Share → Share,
    t.applications = (view.mapApplications f).applications ∧
      ∀ a ∈ view.applications, a.id ∉ targets → f a.id a.toShare = a.toShare

theorem Rewritten.edited {targets : List Nat} {view t : Tables} (h : Rewritten targets view t) :
    Edited request targets view t := by
  obtain ⟨f, hf, hsame⟩ := h.keys
  refine ⟨⟨f, [], ?_, hsame, fun _ hk => absurd hk List.not_mem_nil⟩, h.applications⟩
  rw [List.append_nil]
  exact hf

theorem Rewritten.nodup {targets : List Nat} {view t : Tables} (h : Rewritten targets view t)
    (hkeys : (view.keys.map (·.id)).Nodup) : (t.keys.map (·.id)).Nodup := by
  obtain ⟨f, hf, -⟩ := h.keys
  rw [hf, mapKeys_ids]
  exact hkeys

/-- The cascade into one of the `targets`. -/
theorem Rewritten.cascade {targets : List Nat} {view t : Tables} (h : Rewritten targets view t)
    (hkeys : (view.keys.map (·.id)).Nodup) {applicationId : Nat} (ha : applicationId ∈ targets)
    {amount : ℚ} {usage : List BudgetUsage} {explicit : List ExplicitInput}
    {resolved : List ResolvedRow}
    (hres : Resolution amount (keyRows usage (active (t.keysOf applicationId))) explicit resolved)
    (changed : Bool) : Rewritten targets view (cascaded t applicationId amount resolved changed) := by
  have hnodup := h.nodup hkeys
  obtain ⟨f, hf, hsame⟩ := h.keys
  let g := cascadeShare amount (active (t.keysOf applicationId)) resolved changed
  refine ⟨⟨fun id share => g id (f id share), ?_, fun k hk hother => ?_⟩, h.applications⟩
  · show t.keys.map _ = _
    rw [hf]
    show (view.keys.map _).map _ = view.keys.map _
    rw [List.map_map]
    rfl
  · show g k.id (f k.id k.toShare) = k.toShare
    rw [hsame k hk hother]
    -- the cascade finds the key as it was in the view
    have hmem : k ∈ t.keys := by
      rw [hf]
      refine List.mem_map.mpr ⟨k, hk, ?_⟩
      rw [hsame k hk hother]
    exact cascadeShare_of_other hres hnodup changed hmem (.inl fun heq => hother (heq ▸ ha))

/-- The endpoint of a tenant rewrites its active Applications and their keys. -/
theorem edited_tenantApplications {tenantId : Nat} {rows : List ApplicationAllocationRow}
    {out : Dict Nat ℚ × List BudgetUsage} (hkeys : (s.staged.keys.map (·.id)).Nodup)
    (happs : (s.staged.applications.map (·.id)).Nodup)
    (h : stageTenantApplicationAllocations tenantId rows db s = (.ok out, s')) :
    Rewritten ((activeApplications (s.staged.applicationsOf tenantId)).map (·.id)) s.staged
      s'.staged := by
  unfold stageTenantApplicationAllocations at h
  rw [read_bind] at h
  obtain ⟨tenant, -, h⟩ := check_bind h
  obtain ⟨parent, -, h⟩ := check_bind h
  obtain ⟨_, -, h⟩ := check_bind h
  obtain ⟨_, -, h⟩ := check_bind h
  obtain ⟨usage, m, hm, h⟩ := bind_accepted h
  obtain rfl : s = m := (fetchBudgetUsage_accepted hm).symm
  obtain ⟨resolved, m, hm, h⟩ := bind_accepted h
  obtain ⟨hresolve, rfl⟩ := resolveAndPersistApplications_accepted hm
  obtain ⟨snapshots, m, hm, h⟩ := bind_accepted h
  obtain ⟨-, rfl⟩ := pure_accepted h
  have hres := resolveLevel_ok (applicationRows_nodup happs usage tenantId) hresolve
  have hlisted : ∀ r ∈ resolved,
      r.id ∈ (activeApplications (s.staged.applicationsOf tenantId)).map (·.id) := by
    intro r hr
    obtain ⟨c, hc, hcid, -⟩ := (hres.rows r hr).child
    rw [← hcid, ← applicationRows_ids s.staged usage]
    exact List.mem_map_of_mem hc
  have hfirst : Rewritten ((activeApplications (s.staged.applicationsOf tenantId)).map (·.id))
      s.staged (s.staged.mapApplications fun id share => share.resolve resolved id) := by
    refine ⟨⟨fun _ share => share, ?_, fun _ _ _ => rfl⟩,
      ⟨fun id share => share.resolve resolved id, rfl, fun a _ hother => ?_⟩⟩
    · rw [mapKeys_same]
      rfl
    · refine resolve_of_unlisted (fun r hr hrid => hother ?_) a.toShare
      rw [← hrid]
      exact hlisted r hr
  refine triple_foldlM (Q := fun _ m => Rewritten _ s.staged m.staged) (fun snapshots r hr => ?_)
    [] _ _ _ hfirst hm
  intro m out m' hrewritten hrun
  unfold cascadeResolved at hrun
  split at hrun
  · obtain ⟨writes, n, hn, hrun⟩ := bind_accepted hrun
    obtain ⟨-, rfl⟩ := pure_accepted hrun
    obtain ⟨resolvedKeys, -, hlevel, -, rfl⟩ := cascadeIntoKeys_accepted hn
    exact hrewritten.cascade hkeys (hlisted r hr)
      (resolveLevel_ok (keyRows_nodup (hrewritten.nodup hkeys) usage r.id) hlevel) r.changed
  · obtain ⟨-, rfl⟩ := pure_accepted hrun
    exact hrewritten

/-- What an accepted call has staged is about Applications that it locked and that are not
released. -/
theorem edited_stage {call : Call} {view : Tables} {outside : Outside} {u : Unit}
    (hkeys : (view.keys.map (·.id)).Nodup) (happs : (view.applications.map (·.id)).Nodup)
    (h : call.stage ⟨view, view, outside⟩ = (.ok u, s')) :
    ∃ targets, Edited call.request targets view s'.staged ∧
      ∀ a ∈ targets, a ∈ call.request.targets view ∧ ¬Released view a := by
  unfold Call.stage at h
  cases hrequest : call.request with
  | create applicationId percentage budget =>
    rw [hrequest] at h
    obtain ⟨out, m, hm, h⟩ := bind_accepted h
    obtain ⟨-, rfl⟩ := pure_accepted h
    obtain ⟨hedited, hreleased⟩ := edited_create hm
    refine ⟨[applicationId], hedited, fun a ha => ?_⟩
    obtain rfl := List.mem_singleton.mp ha
    exact ⟨List.mem_singleton.mpr rfl, hreleased⟩
  | singleKey keyId bodyKeyId allocation =>
    rw [hrequest] at h
    obtain ⟨out, m, hm, h⟩ := bind_accepted h
    obtain ⟨-, rfl⟩ := pure_accepted h
    obtain ⟨key, application, budget, hkey, -, happlication, hbudget, hstage⟩ :=
      stageSingleApiKeyAllocation_accepted hm
    refine ⟨[key.applicationId], edited_keyAllocations hkeys hstage, fun a ha => ?_⟩
    obtain rfl := List.mem_singleton.mp ha
    refine ⟨?_, fun hreleased => ?_⟩
    · show _ ∈ (view.key keyId).toList.map _
      rw [show view.key keyId = some key from hkey]
      exact List.mem_singleton.mpr rfl
    · rw [(hreleased application happlication).2] at hbudget
      cases hbudget
  | applicationKeys applicationId bodyApplicationId allocation apiKeys =>
    rw [hrequest] at h
    obtain ⟨out, m, hm, h⟩ := bind_accepted h
    obtain ⟨-, rfl⟩ := pure_accepted h
    obtain ⟨application, budget, happlication, hbudget, hstage⟩ :=
      stageApplicationKeyAllocations_accepted hm
    refine ⟨[applicationId], edited_keyAllocations hkeys hstage, fun a ha => ?_⟩
    obtain rfl := List.mem_singleton.mp ha
    refine ⟨List.mem_singleton.mpr rfl, fun hreleased => ?_⟩
    rw [(hreleased application happlication).2] at hbudget
    cases hbudget
  | tenantApplications tenantId rows =>
    rw [hrequest] at h
    obtain ⟨out, m, hm, h⟩ := bind_accepted h
    obtain ⟨-, rfl⟩ := pure_accepted h
    refine ⟨_, (edited_tenantApplications hkeys happs hm).edited, fun a ha => ?_⟩
    obtain ⟨b, hb, rfl⟩ := List.mem_map.mp ha
    refine ⟨List.mem_map_of_mem (List.mem_filter.mp hb).1, fun hreleased => ?_⟩
    obtain ⟨hmem, -, hactive⟩ := mem_applicationsOf.mp hb
    have hinactive := (hreleased b (Table.get_of_mem happs hmem)).1
    rw [hactive] at hinactive
    cases hinactive

end Handlers

/-! ## What a commit leaves -/

theorem flush_self (share stored : Share) : share.flush share stored = stored := by
  unfold Share.flush
  rw [if_pos rfl, if_pos rfl]

theorem flushShare_self (loaded : Option Share) (stored : Share) :
    flushShare loaded loaded stored = stored := by
  unfold flushShare
  cases loaded with
  | none => rfl
  | some share => exact flush_self share stored

/-- The keys of `t` are still there, with other shares perhaps, and the tenants have the same
Applications. -/
structure Grown (t t' : Tables) : Prop where
  keys : ∀ id k, t.key id = some k → ∃ share, t'.key id = some { k with toShare := share }
  applications : ∀ tenantId,
    (t'.applicationsOf tenantId).map (·.id) = (t.applicationsOf tenantId).map (·.id)

theorem Grown.refl (t : Tables) : Grown t t :=
  ⟨fun _ k hk => ⟨k.toShare, hk⟩, fun _ => rfl⟩

theorem Grown.trans {t t' t'' : Tables} (h : Grown t t') (h' : Grown t' t'') : Grown t t'' := by
  refine ⟨fun id k hk => ?_, fun tenantId => ?_⟩
  · obtain ⟨share, hshare⟩ := h.keys id k hk
    obtain ⟨share', hshare'⟩ := h'.keys id _ hshare
    exact ⟨share', hshare'⟩
  · exact (h'.applications tenantId).trans (h.applications tenantId)

theorem grown_mapKeys (t : Tables) (f : Nat → Share → Share) : Grown t (t.mapKeys f) := by
  refine ⟨fun id k hk => ⟨f k.id k.toShare, ?_⟩, fun _ => rfl⟩
  rw [KeyEdits.key_mapKeys, hk]
  rfl

/-- The rewritten table has no key that was not there. -/
theorem mapKeys_grown (t : Tables) (f : Nat → Share → Share) : Grown (t.mapKeys f) t := by
  refine ⟨fun id k hk => ?_, fun _ => rfl⟩
  rw [KeyEdits.key_mapKeys] at hk
  obtain ⟨stored, hstored, rfl⟩ := Option.map_eq_some_iff.mp hk
  exact ⟨stored.toShare, hstored⟩

theorem grown_mapApplications (t : Tables) (f : Nat → Share → Share) :
    Grown t (t.mapApplications f) := by
  refine ⟨fun _ k hk => ⟨k.toShare, hk⟩, fun tenantId => ?_⟩
  rw [mapApplications_applicationsOf, List.map_map]
  rfl

theorem grown_insertKey (t : Tables) (applicationId : Nat) (share : Share) :
    Grown t (t.insertKey applicationId share) :=
  ⟨fun _ k hk => ⟨k.toShare, Table.get_append_of_some hk _⟩, fun _ => rfl⟩

theorem grown_modifyApplication (t : Tables) (applicationId : Nat) {f : Application → Application}
    (hid : ∀ a, (f a).id = a.id) (htenant : ∀ a, (f a).tenantId = a.tenantId) :
    Grown t (t.modifyApplication applicationId f) := by
  refine ⟨fun _ k hk => ⟨k.toShare, hk⟩, fun tenantId => ?_⟩
  show ((t.applications.map _).filter _).map _ = _
  rw [List.filter_map, List.map_map]
  have htest : ((fun a : Application => decide (a.tenantId = tenantId)) ∘
      fun a => if a.id = applicationId then f a else a) =
      fun a : Application => decide (a.tenantId = tenantId) := by
    funext a
    show decide ((if a.id = applicationId then f a else a).tenantId = tenantId) = _
    split
    · rw [htenant]
    · rfl
  rw [htest]
  refine List.map_congr_left fun a _ => ?_
  show (if a.id = applicationId then f a else a).id = a.id
  split
  · exact hid a
  · rfl

theorem grown_released (t : Tables) (applicationId : Nat) (copy : Application)
    (zeroed : List Nat) : Grown t (released t applicationId copy zeroed) :=
  (grown_mapKeys t _).trans (grown_modifyApplication _ _ (fun _ => rfl) fun _ => rfl)

theorem grown_insertKeys (t : Tables) (inserted : List APIKey) :
    Grown t (t.insertKeys inserted) := by
  induction inserted generalizing t with
  | nil => exact Grown.refl t
  | cons k inserted ih => exact (grown_insertKey t _ _).trans (ih _)

theorem grown_flushed (t view after : Tables) : Grown t (t.flushed view after) :=
  ((grown_mapKeys t _).trans (grown_mapApplications _ _)).trans (grown_insertKeys _ _)

theorem insertKeys_nodup {t : Tables} (h : (t.keys.map (·.id)).Nodup) (inserted : List APIKey) :
    ((t.insertKeys inserted).keys.map (·.id)).Nodup := by
  induction inserted generalizing t with
  | nil => exact h
  | cons k inserted ih => exact ih (Table.nodup_append_of_not_mem h (nextId_fresh _))

theorem insertKeys_applications (t : Tables) (inserted : List APIKey) :
    (t.insertKeys inserted).applications = t.applications := by
  induction inserted generalizing t with
  | nil => rfl
  | cons k inserted ih => exact ih _

theorem insertKeys_keysOf (t : Tables) {inserted : List APIKey} {applicationId : Nat}
    (h : ∀ k ∈ inserted, k.applicationId ≠ applicationId) :
    (t.insertKeys inserted).keysOf applicationId = t.keysOf applicationId := by
  induction inserted generalizing t with
  | nil => rfl
  | cons k inserted ih =>
    refine (ih (t.insertKey k.applicationId k.toShare)
      fun b hb => h b (List.mem_cons_of_mem k hb)).trans ?_
    exact keysOf_insertKey_of_ne t k.toShare (h k List.mem_cons_self).symm

theorem flushed_nodup {t : Tables} (h : (t.keys.map (·.id)).Nodup) (view after : Tables) :
    ((t.flushed view after).keys.map (·.id)).Nodup := by
  refine insertKeys_nodup ?_ _
  show ((t.mapKeys _).keys.map _).Nodup
  rw [mapKeys_ids]
  exact h

theorem flushed_applicationIds (t view after : Tables) :
    (t.flushed view after).applications.map (·.id) = t.applications.map (·.id) := by
  unfold Tables.flushed
  rw [insertKeys_applications, mapApplications_ids]
  rfl

section Flushed

variable {request : Request} {targets : List Nat} {t view after : Tables} {applicationId : Nat}
  (h : Edited request targets view after)

include h

theorem Edited.inserted : ∀ k ∈ after.keys.drop view.keys.length, k.applicationId ∈ targets ∧
    ∃ percentage budget, request = .create k.applicationId percentage budget := by
  obtain ⟨f, inserted, hkeys, -, hinserted⟩ := h.keys
  have hlength : view.keys.length = (view.mapKeys f).keys.length := (List.length_map _).symm
  rw [hkeys, hlength, List.drop_left]
  exact hinserted

/-- Unless a key is created for the Application, its active keys were there. -/
theorem Edited.active_flushed
    (hcreate : ∀ percentage budget, request ≠ .create applicationId percentage budget)
    {k : APIKey} (hk : k ∈ active ((t.flushed view after).keysOf applicationId)) :
    ∃ b ∈ active (t.keysOf applicationId), b.id = k.id := by
  have hsame : (t.flushed view after).keysOf applicationId =
      (t.mapKeys (flushedKey view after)).keysOf applicationId := by
    refine insertKeys_keysOf _ fun b hb heq => ?_
    obtain ⟨-, percentage, budget, hrequest⟩ := h.inserted b hb
    exact hcreate percentage budget (heq ▸ hrequest)
  rw [hsame, mapKeys_keysOf, active_map] at hk
  obtain ⟨b, hb, rfl⟩ := List.mem_map.mp hk
  exact ⟨b, hb, rfl⟩

variable (hother : applicationId ∉ targets)

include hother

/-- The keys of an Application that is no target stay as they are. -/
theorem Edited.keysOf_flushed (hkeys : (t.keys.map (·.id)).Nodup) (hgrown : Grown view t) :
    (t.flushed view after).keysOf applicationId = t.keysOf applicationId := by
  have hsame : (t.flushed view after).keysOf applicationId =
      (t.mapKeys (flushedKey view after)).keysOf applicationId :=
    insertKeys_keysOf _ fun b hb heq => hother (heq ▸ (h.inserted b hb).1)
  rw [hsame, mapKeys_keysOf]
  conv_rhs => rw [← List.map_id (t.keysOf applicationId)]
  refine List.map_congr_left fun k hk => ?_
  obtain ⟨hkt, happlication⟩ : k ∈ t.keys ∧ k.applicationId = applicationId := by
    simpa [Tables.keysOf] using hk
  have hshare : flushedKey view after k.id k.toShare = k.toShare := by
    unfold flushedKey
    cases hview : view.key k.id with
    | none => rfl
    | some v =>
      obtain ⟨share, hstored⟩ := hgrown.keys k.id v hview
      have hstored' := Option.some.inj (hstored.symm.trans (Table.get_of_mem hkeys hkt))
      have hv : v.applicationId = applicationId := by
        have hsameApplication := congrArg APIKey.applicationId hstored'
        exact hsameApplication.trans happlication
      obtain ⟨f, inserted, hafter, hf, -⟩ := h.keys
      have hkey : after.key k.id = some { v with toShare := f v.id v.toShare } := by
        show Table.get _ after.keys _ = _
        rw [hafter]
        refine Table.get_append_of_some ?_ _
        have hmap := KeyEdits.key_mapKeys view f k.id
        rw [hview] at hmap
        exact hmap
      rw [hkey, Option.map_some, Option.map_some, hf v (Table.mem_of_get hview) (hv ▸ hother)]
      exact flushShare_self (some v.toShare) k.toShare
  rw [hshare]
  rfl

/-- An Application that is no target stays as it is. -/
theorem Edited.application_flushed :
    (t.flushed view after).application applicationId = t.application applicationId := by
  have hmap : (t.flushed view after).application applicationId =
      (t.application applicationId).map fun a =>
        { a with toShare := flushedApplication view after a.id a.toShare } := by
    show Table.get _ (Tables.flushed t view after).applications _ = _
    unfold Tables.flushed
    rw [insertKeys_applications]
    exact Table.get_map fun _ => rfl
  rw [hmap]
  cases hstored : t.application applicationId with
  | none => rfl
  | some a =>
    have hid : a.id = applicationId := Table.key_of_get hstored
    have hshare : flushedApplication view after a.id a.toShare = a.toShare := by
      obtain ⟨f, hafter, hf⟩ := h.applications
      have hget : after.application a.id = (view.application a.id).map fun b =>
          { b with toShare := f b.id b.toShare } := by
        show Table.get _ after.applications _ = _
        rw [hafter]
        exact Table.get_map fun _ => rfl
      unfold flushedApplication
      rw [hget]
      cases hview : view.application a.id with
      | none => rfl
      | some b =>
        have hbid : b.id = a.id := Table.key_of_get hview
        rw [Option.map_some, Option.map_some, Option.map_some,
          hf b (Table.mem_of_get hview) (hbid.trans hid ▸ hother)]
        exact flushShare_self (some b.toShare) a.toShare
    rw [Option.map_some, hshare]

end Flushed

/-! ## The invariant -/

/-- The copy that a call has of its key. -/
def Loaded (t : Tables) (copy : Option APIKey) : Request → Prop
  | .singleKey keyId _ _ => ∃ key, copy = some key ∧ KeyEdits.CopyOf keyId t key
  | _ => copy = none

theorem loaded_of_load {t : Tables} {request : Request} {copy : Option APIKey}
    (h : request.load t = .ok copy) : Loaded t copy request := by
  cases request with
  | singleKey keyId bodyKeyId allocation =>
    obtain ⟨-, h⟩ := require_bind h
    obtain ⟨key, hkey, h⟩ := orRaise_bind h
    obtain ⟨hactive, h⟩ := require_bind h
    obtain rfl := Except.ok.inj h
    exact ⟨key, rfl, hactive, key.toShare, hkey⟩
  | create applicationId percentage budget => exact (Except.ok.inj h).symm
  | applicationKeys applicationId bodyApplicationId allocation apiKeys =>
    exact (Except.ok.inj h).symm
  | tenantApplications tenantId rows => exact (Except.ok.inj h).symm

section Loaded

variable {t t' : Tables} {copy : Option APIKey} {request : Request} (h : Loaded t copy request)

include h

theorem Loaded.grown (hgrown : Grown t t') : Loaded t' copy request := by
  cases request with
  | singleKey keyId bodyKeyId allocation =>
    obtain ⟨key, hcopy, hactive, share, hkey⟩ := h
    obtain ⟨share', hkey'⟩ := hgrown.keys keyId _ hkey
    exact ⟨key, hcopy, hactive, share', hkey'⟩
  | create applicationId percentage budget => exact h
  | applicationKeys applicationId bodyApplicationId allocation apiKeys => exact h
  | tenantApplications tenantId rows => exact h

/-- A request keeps the Applications that it locks. -/
theorem Loaded.targets (hgrown : Grown t t') : request.targets t' = request.targets t := by
  cases request with
  | singleKey keyId bodyKeyId allocation =>
    obtain ⟨key, -, -, share, hkey⟩ := h
    obtain ⟨share', hkey'⟩ := hgrown.keys keyId _ hkey
    show (t'.key keyId).toList.map _ = (t.key keyId).toList.map _
    rw [hkey, hkey']
    rfl
  | create applicationId percentage budget => rfl
  | applicationKeys applicationId bodyApplicationId allocation apiKeys => rfl
  | tenantApplications tenantId rows => exact hgrown.applications tenantId

/-- The session sees the stored tables, but for the share of its copy. -/
theorem Loaded.sight (hkeys : (t.keys.map (·.id)).Nodup) : ∃ f, sight t copy = t.mapKeys f := by
  have hnone : copy = none → ∃ f, Deactivation.sight t copy = t.mapKeys f := by
    rintro rfl
    exact ⟨fun _ share => share, (mapKeys_same t).symm⟩
  cases request with
  | singleKey keyId bodyKeyId allocation =>
    obtain ⟨key, rfl, hcopy⟩ := h
    exact ⟨KeyEdits.seenShare key, KeyEdits.seen_eq hkeys hcopy⟩
  | create applicationId percentage budget => exact hnone h
  | applicationKeys applicationId bodyApplicationId allocation apiKeys => exact hnone h
  | tenantApplications tenantId rows => exact hnone h

end Loaded

section Invariant

variable (applicationId : Nat) (calls : Nat → Call)

/-- What a call knows in each phase: it holds the lock of every Application that it is going
to write to, and once the Application is deactivated it writes to others only. -/
def PhaseInv (s : State) (i : Nat) : Phase → Prop
  | .locking copy pending held =>
    Loaded s.tables copy (calls i).request ∧
      (∀ a ∈ (calls i).request.targets s.tables, a ∈ pending ∨ a ∈ held) ∧
      ∀ a ∈ held, s.locks (.application a) = some (holder i)
  | .writing view after _ =>
    Grown view s.tables ∧ ∃ targets, Edited (calls i).request targets view after ∧
      (∀ a ∈ targets, s.locks (.application a) = some (holder i)) ∧
      (s.progress = .done → applicationId ∉ targets)
  | _ => True

/-- What the deactivation knows. From its bulk UPDATE on no active key escapes it, and from the
lock of the Application on nobody else writes to it. -/
def ProgressInv (s : State) : Progress → Prop
  | .zeroing _ pending zeroed =>
    ∀ k ∈ active (s.tables.keysOf applicationId), k.id ∈ pending ∨ k.id ∈ zeroed
  | .updated copy zeroed =>
    (∀ k ∈ active (s.tables.keysOf applicationId), k.id ∈ zeroed) ∧
      s.locks (.application applicationId) = some 0 ∧
      (copy.allocatedBudget = none →
        ∀ a, s.tables.application applicationId = some a → a.allocatedBudget = none)
  | .done =>
    Released s.tables applicationId ∧
      ∀ k ∈ active (s.tables.keysOf applicationId), ¬0 < k.amount
  | _ => True

structure Inv (s : State) : Prop where
  keyIds : (s.tables.keys.map (·.id)).Nodup
  applicationIds : (s.tables.applications.map (·.id)).Nodup
  phases : ∀ i, PhaseInv applicationId calls s i (s.phases i)
  progress : ProgressInv applicationId s s.progress

/-- What a step of another transaction leaves to call `i`. -/
structure Leaves (s s' : State) (i : Nat) : Prop where
  grown : Grown s.tables s'.tables
  locks : ∀ row, s.locks row = some (holder i) → s'.locks row = some (holder i)
  done : s'.progress = .done →
    s.progress = .done ∨ s.locks (.application applicationId) = some 0

end Invariant

section Steps

variable {applicationId : Nat} {calls : Nat → Call} {s s' : State}

theorem Leaves.phaseInv {i : Nat} (h : Leaves applicationId s s' i) {p : Phase}
    (hp : PhaseInv applicationId calls s i p) : PhaseInv applicationId calls s' i p := by
  cases p with
  | locking copy pending held =>
    obtain ⟨hloaded, htargets, hheld⟩ := hp
    refine ⟨hloaded.grown h.grown, ?_, fun a ha => h.locks _ (hheld a ha)⟩
    rw [hloaded.targets h.grown]
    exact htargets
  | writing view after pending =>
    obtain ⟨hgrown, targets, hedited, hheld, hdone⟩ := hp
    refine ⟨hgrown.trans h.grown, targets, hedited, fun a ha => h.locks _ (hheld a ha), ?_⟩
    intro hprogress hmem
    obtain hbefore | hlock := h.done hprogress
    · exact hdone hbefore hmem
    · -- the deactivation holds the lock that the call would have to hold
      have hsame := (hheld applicationId hmem).symm.trans hlock
      cases hsame
  | idle => trivial
  | succeeded => trivial
  | failed e => trivial
  | aborted => trivial

theorem holder_ne {i j : Nat} (h : j ≠ i) : holder j ≠ holder i :=
  fun heq => h (Nat.succ.inj heq)

/-- A step of call `i` that writes no table. -/
theorem Inv.moved (hinv : Inv applicationId calls s) {i : Nat} (htables : s'.tables = s.tables)
    (hprogress : s'.progress = s.progress) (hphases : ∀ j, j ≠ i → s'.phases j = s.phases j)
    (hlocks : ∀ h row, h ≠ holder i → s.locks row = some h → s'.locks row = some h)
    (hp : PhaseInv applicationId calls s' i (s'.phases i)) : Inv applicationId calls s' := by
  refine ⟨htables ▸ hinv.keyIds, htables ▸ hinv.applicationIds, fun j => ?_, ?_⟩
  · by_cases hj : j = i
    · exact hj ▸ hp
    · rw [hphases j hj]
      refine Leaves.phaseInv ⟨htables ▸ Grown.refl _, fun row => hlocks _ row (holder_ne hj),
        fun hdone => .inl (hprogress ▸ hdone)⟩ (hinv.phases j)
  · have hbefore := hinv.progress
    rw [hprogress]
    cases hcase : s.progress with
    | zeroing copy pending zeroed =>
      rw [hcase] at hbefore
      show ∀ k ∈ active (s'.tables.keysOf applicationId), _
      rw [htables]
      exact hbefore
    | updated copy zeroed =>
      rw [hcase] at hbefore
      refine ⟨htables ▸ hbefore.1, hlocks 0 _ (Nat.succ_ne_zero i).symm hbefore.2.1, ?_⟩
      rw [htables]
      exact hbefore.2.2
    | done =>
      rw [hcase] at hbefore
      show Released s'.tables applicationId ∧ _
      rw [htables]
      exact hbefore
    | _ => trivial

/-- A step of the deactivation that writes no table. -/
theorem Inv.advanced (hinv : Inv applicationId calls s) (htables : s'.tables = s.tables)
    (hphases : s'.phases = s.phases) (hdone : s'.progress ≠ .done)
    (hlocks : ∀ h row, h ≠ 0 → s.locks row = some h → s'.locks row = some h)
    (hp : ProgressInv applicationId s' s'.progress) : Inv applicationId calls s' := by
  refine ⟨htables ▸ hinv.keyIds, htables ▸ hinv.applicationIds, fun j => ?_, hp⟩
  rw [hphases]
  exact Leaves.phaseInv ⟨htables ▸ Grown.refl _, fun row => hlocks _ row (Nat.succ_ne_zero j),
    fun h => absurd h hdone⟩ (hinv.phases j)

theorem Inv.set (hinv : Inv applicationId calls s) {i : Nat} {p : Phase}
    (hp : PhaseInv applicationId calls (s.set i p) i p) : Inv applicationId calls (s.set i p) := by
  refine hinv.moved (i := i) rfl rfl (fun j hj => Function.update_of_ne hj _ _)
    (fun _ _ _ h => h) ?_
  rw [show (s.set i p).phases i = p from Function.update_self _ _ _]
  exact hp

/-- The end of a call that writes no table. -/
theorem Inv.close (hinv : Inv applicationId calls s) {i : Nat} {p : Phase}
    (hp : PhaseInv applicationId calls (s.close i p) i p) :
    Inv applicationId calls (s.close i p) := by
  refine hinv.moved (i := i) rfl rfl (fun j hj => Function.update_of_ne hj _ _)
    (fun _ _ hne h => Locks.release_of_held h hne) ?_
  rw [show (s.close i p).phases i = p from Function.update_self _ _ _]
  exact hp

theorem inv_load (hinv : Inv applicationId calls s) {i : Nat}
    (h : step applicationId calls s (.load i) = some s') : Inv applicationId calls s' := by
  unfold step at h
  dsimp only at h
  split at h
  · split at h
    · obtain rfl := Option.some.inj h
      exact hinv.set trivial
    · rename_i copy hload
      obtain rfl := Option.some.inj h
      exact hinv.set ⟨loaded_of_load hload, fun _ ha => .inl ha,
        fun _ ha => absurd ha List.not_mem_nil⟩
  · cases h

theorem inv_lock (hinv : Inv applicationId calls s) {i : Nat}
    (h : step applicationId calls s (.lock i) = some s') : Inv applicationId calls s' := by
  unfold step at h
  dsimp only at h
  split at h
  · rename_i copy a pending held hphase
    split at h
    · rename_i hmay
      obtain rfl := Option.some.inj h
      have hp := hinv.phases i
      rw [hphase] at hp
      obtain ⟨hloaded, htargets, hheld⟩ := hp
      refine hinv.moved (i := i) rfl rfl (fun j hj => Function.update_of_ne hj _ _)
        (fun _ _ _ hrow => Locks.take_of_held hmay hrow) ?_
      rw [show (s.set i (.locking copy pending (a :: held))).phases i = _ from
        Function.update_self _ _ _]
      refine ⟨hloaded, fun b hb => ?_, fun b hb => ?_⟩
      · rcases htargets b hb with hpending | hdone
        · rcases List.mem_cons.mp hpending with rfl | hpending
          · exact .inr List.mem_cons_self
          · exact .inl hpending
        · exact .inr (List.mem_cons_of_mem a hdone)
      · rcases List.mem_cons.mp hb with rfl | hb
        · exact Locks.take_self _ _ _
        · exact Locks.take_of_held hmay (hheld b hb)
    · cases h
  · cases h

/-- A decision is made on the stored rows of the Applications that it is about, and a released
one is none of them. -/
theorem inv_resolve (hinv : Inv applicationId calls s) {i : Nat} {outside : Outside}
    (h : step applicationId calls s (.resolve i outside) = some s') :
    Inv applicationId calls s' := by
  unfold step at h
  dsimp only at h
  split at h
  · rename_i copy held hphase
    obtain rfl := Option.some.inj h
    have hp := hinv.phases i
    rw [hphase] at hp
    obtain ⟨hloaded, htargets, hheld⟩ := hp
    obtain ⟨f, hsight⟩ := hloaded.sight hinv.keyIds
    rw [hsight]
    unfold resolve
    split
    · exact hinv.close trivial
    · rename_i after hstage
      have hnodup : ((s.tables.mapKeys f).keys.map (·.id)).Nodup := by
        rw [mapKeys_ids]
        exact hinv.keyIds
      obtain ⟨targets, hedited, hlocked⟩ := edited_stage hnodup hinv.applicationIds hstage
      refine hinv.set ⟨mapKeys_grown s.tables f, targets, hedited, fun a ha => ?_, ?_⟩
      · have hmem := (hlocked a ha).1
        rw [hloaded.targets (grown_mapKeys s.tables f)] at hmem
        exact hheld a ((htargets a hmem).resolve_left List.not_mem_nil)
      · intro hdone hmem
        have hprogress := hinv.progress
        rw [show s.progress = .done from hdone] at hprogress
        exact (hlocked applicationId hmem).2 hprogress.1
  · cases h

theorem inv_write (hinv : Inv applicationId calls s) {i : Nat}
    (h : step applicationId calls s (.write i) = some s') : Inv applicationId calls s' := by
  unfold step at h
  dsimp only at h
  split at h
  · rename_i view after id pending hphase
    split at h
    · rename_i hmay
      obtain rfl := Option.some.inj h
      have hp := hinv.phases i
      rw [hphase] at hp
      obtain ⟨hgrown, targets, hedited, hheld, hdone⟩ := hp
      refine hinv.moved (i := i) rfl rfl (fun j hj => Function.update_of_ne hj _ _)
        (fun _ _ _ hrow => Locks.take_of_held hmay hrow) ?_
      rw [show (s.set i (.writing view after pending)).phases i = _ from
        Function.update_self _ _ _]
      exact ⟨hgrown, targets, hedited, fun a ha => Locks.take_of_held hmay (hheld a ha), hdone⟩
    · cases h
  · cases h

theorem inv_abort (hinv : Inv applicationId calls s) {i : Nat}
    (h : step applicationId calls s (.abort i) = some s') : Inv applicationId calls s' := by
  unfold step at h
  dsimp only at h
  split at h
  · obtain rfl := Option.some.inj h
    exact hinv.close trivial
  · obtain rfl := Option.some.inj h
    exact hinv.close trivial
  · cases h

/-- No key is created behind the bulk UPDATE, and an Application that the deactivation read
without a budget has none when it updates it. -/
def Unraced (applicationId : Nat) (calls : Nat → Call) (s : State) : Label → Prop
  | .commit i => ∀ copy pending zeroed, s.progress = .zeroing copy pending zeroed →
      ∀ percentage budget, (calls i).request ≠ .create applicationId percentage budget
  | .updateApplication => ∀ copy zeroed, s.progress = .zeroing copy [] zeroed →
      copy.allocatedBudget = none →
        ∀ a, s.tables.application applicationId = some a → a.allocatedBudget = none
  | _ => True

/-- A commit of a call leaves the deactivation what it knows. -/
theorem inv_commit (hinv : Inv applicationId calls s) {i : Nat}
    (hguard : Unraced applicationId calls s (.commit i))
    (h : step applicationId calls s (.commit i) = some s') : Inv applicationId calls s' := by
  unfold step at h
  dsimp only at h
  split at h
  · rename_i view after hphase
    obtain rfl := Option.some.inj h
    have hp := hinv.phases i
    rw [hphase] at hp
    obtain ⟨hgrown, targets, hedited, hheld, hdone⟩ := hp
    have hkeysOf := fun hother : applicationId ∉ targets =>
      hedited.keysOf_flushed hother hinv.keyIds hgrown
    refine ⟨flushed_nodup hinv.keyIds view after, ?_, fun j => ?_, ?_⟩
    · show ((s.tables.flushed view after).applications.map _).Nodup
      rw [flushed_applicationIds]
      exact hinv.applicationIds
    · by_cases hj : j = i
      · subst hj
        rw [show (s.close j .succeeded).phases j = _ from Function.update_self _ _ _]
        trivial
      · rw [show (s.close i .succeeded).phases j = s.phases j from Function.update_of_ne hj _ _]
        have hleaves : Leaves applicationId s
            { s.close i .succeeded with tables := s.tables.flushed view after } j :=
          ⟨grown_flushed _ view after, fun row hrow => Locks.release_of_held hrow (holder_ne hj),
            fun hprogress => .inl hprogress⟩
        exact hleaves.phaseInv (hinv.phases j)
    · have hbefore := hinv.progress
      show ProgressInv applicationId _ s.progress
      cases hcase : s.progress with
      | zeroing copy pending zeroed =>
        rw [hcase] at hbefore
        intro k hk
        obtain ⟨b, hb, hid⟩ := hedited.active_flushed (hguard copy pending zeroed hcase) hk
        rw [← hid]
        exact hbefore b hb
      | updated copy zeroed =>
        rw [hcase] at hbefore
        obtain ⟨hzeroed, hlock, hbudget⟩ := hbefore
        have hother : applicationId ∉ targets := by
          intro hmem
          have hsame := (hheld applicationId hmem).symm.trans hlock
          cases hsame
        refine ⟨?_, Locks.release_of_held hlock (Nat.succ_ne_zero i).symm, ?_⟩
        · show ∀ k ∈ active ((s.tables.flushed view after).keysOf applicationId), _
          rw [hkeysOf hother]
          exact hzeroed
        · show _ → ∀ a, (s.tables.flushed view after).application applicationId = some a → _
          rw [hedited.application_flushed hother]
          exact hbudget
      | done =>
        rw [hcase] at hbefore
        have hother := hdone hcase
        refine ⟨?_, ?_⟩
        · show ∀ a, (s.tables.flushed view after).application applicationId = some a → _
          rw [hedited.application_flushed hother]
          exact hbefore.1
        · show ∀ k ∈ active ((s.tables.flushed view after).keysOf applicationId), _
          rw [hkeysOf hother]
          exact hbefore.2
      | _ => trivial
  · cases h

/-! ## The steps of the deactivation -/

theorem inv_loadApplication (hinv : Inv applicationId calls s)
    (h : step applicationId calls s .loadApplication = some s') : Inv applicationId calls s' := by
  unfold step at h
  dsimp only at h
  split at h
  · split at h
    · obtain rfl := Option.some.inj h
      exact hinv.advanced rfl rfl (fun h => nomatch h) (fun _ _ _ h => h) trivial
    · obtain rfl := Option.some.inj h
      split
      · exact hinv.advanced rfl rfl (fun h => nomatch h) (fun _ _ _ h => h) trivial
      · exact hinv.advanced rfl rfl (fun h => nomatch h) (fun _ _ _ h => h) trivial
  · cases h

theorem inv_zeroAllocation (hinv : Inv applicationId calls s)
    (h : step applicationId calls s .zeroAllocation = some s') : Inv applicationId calls s' := by
  unfold step at h
  dsimp only at h
  split at h
  · obtain rfl := Option.some.inj h
    exact hinv.advanced rfl rfl (fun h => nomatch h) (fun _ _ _ h => h)
      fun _ hk => .inl (List.mem_map_of_mem hk)
  · cases h

/-- A visited row is zeroed, since it is still active. -/
theorem inv_zeroRow (hinv : Inv applicationId calls s)
    (h : step applicationId calls s .zeroRow = some s') : Inv applicationId calls s' := by
  unfold step at h
  dsimp only at h
  split at h
  · rename_i copy id pending zeroed hprogress
    split at h
    · rename_i hmay
      obtain rfl := Option.some.inj h
      have hbefore := hinv.progress
      rw [hprogress] at hbefore
      refine hinv.advanced rfl rfl (fun h => nomatch h)
        (fun _ _ _ hrow => Locks.take_of_held hmay hrow) ?_
      intro k hk
      obtain ⟨hmem, happlication, hactive⟩ := mem_active_keysOf.mp hk
      have hkept : ∀ x ∈ zeroed, x ∈ (match s.tables.key id with
          | some k => if k.applicationId = applicationId ∧ k.isActive then zeroed ++ [id]
            else zeroed
          | none => zeroed) := by
        intro x hx
        split
        · split
          · exact List.mem_append_left _ hx
          · exact hx
        · exact hx
      rcases hbefore k hk with hpending | hzeroed
      · rcases List.mem_cons.mp hpending with hid | hpending
        · right
          show k.id ∈ (match s.tables.key id with
            | some k => if k.applicationId = applicationId ∧ k.isActive then zeroed ++ [id]
              else zeroed
            | none => zeroed)
          have hkey : s.tables.key id = some k := hid ▸ Table.get_of_mem hinv.keyIds hmem
          rw [hkey]
          dsimp only
          rw [if_pos ⟨happlication, hactive⟩, hid]
          exact List.mem_append_right _ List.mem_cons_self
        · exact .inl hpending
      · exact .inr (hkept _ hzeroed)
    · cases h
  · cases h

theorem inv_updateApplication (hinv : Inv applicationId calls s)
    (hguard : Unraced applicationId calls s .updateApplication)
    (h : step applicationId calls s .updateApplication = some s') :
    Inv applicationId calls s' := by
  unfold step at h
  dsimp only at h
  split at h
  · rename_i copy zeroed hprogress
    split at h
    · rename_i hmay
      obtain rfl := Option.some.inj h
      have hbefore := hinv.progress
      rw [hprogress] at hbefore
      have hrunning : Progress.updated copy zeroed ≠ .done := by
        intro hdone
        cases hdone
      refine hinv.advanced rfl rfl hrunning (fun _ _ _ hrow => Locks.take_of_held hmay hrow) ?_
      refine ⟨fun k hk => (hbefore k hk).resolve_left List.not_mem_nil, Locks.take_self _ _ _, ?_⟩
      exact hguard copy zeroed hprogress
    · cases h
  · cases h

theorem inv_abortApplication (hinv : Inv applicationId calls s)
    (h : step applicationId calls s .abortApplication = some s') : Inv applicationId calls s' := by
  have hfinish : Inv applicationId calls (s.finish .aborted) :=
    hinv.advanced rfl rfl (fun h => nomatch h)
      (fun _ _ hne hrow => Locks.release_of_held hrow hne) trivial
  unfold step at h
  dsimp only at h
  split at h
  · exact Option.some.inj h ▸ hfinish
  · exact Option.some.inj h ▸ hfinish
  · exact Option.some.inj h ▸ hfinish
  · cases h

theorem released_application (t : Tables) (copy : Application) (zeroed : List Nat) :
    (released t applicationId copy zeroed).application applicationId =
      (t.application applicationId).map (releaseApplication copy) := by
  show Table.get _ (Table.modify _ t.applications applicationId _) _ = _
  rw [Table.get_modify (by intro a; rfl)]
  simp only [if_true]
  rfl

/-- The commit leaves the Application without a budget and its active keys without an amount. -/
theorem inv_commitApplication (hinv : Inv applicationId calls s)
    (h : step applicationId calls s .commitApplication = some s') : Inv applicationId calls s' := by
  unfold step at h
  dsimp only at h
  split at h
  · rename_i copy zeroed hprogress
    obtain rfl := Option.some.inj h
    have hbefore := hinv.progress
    rw [hprogress] at hbefore
    obtain ⟨hzeroed, hlock, hbudget⟩ := hbefore
    refine ⟨?_, ?_, fun j => ?_, fun a ha => ?_, fun k hk => ?_⟩
    · show ((s.tables.mapKeys (zeroShare zeroed)).keys.map _).Nodup
      rw [mapKeys_ids]
      exact hinv.keyIds
    · have hids : (released s.tables applicationId copy zeroed).applications.map (·.id) =
          s.tables.applications.map (·.id) := Table.map_key_modify fun _ hid => hid
      show ((released s.tables applicationId copy zeroed).applications.map _).Nodup
      rw [hids]
      exact hinv.applicationIds
    · exact Leaves.phaseInv ⟨grown_released _ _ _ _, fun row hrow =>
        Locks.release_of_held hrow (Nat.succ_ne_zero j), fun _ => .inr hlock⟩ (hinv.phases j)
    · change (released s.tables applicationId copy zeroed).application applicationId = some a at ha
      rw [released_application] at ha
      obtain ⟨b, hb, rfl⟩ := Option.map_eq_some_iff.mp ha
      refine ⟨rfl, ?_⟩
      show (if none = copy.allocatedBudget then b.allocatedBudget else none) = none
      split
      · rename_i hnone
        exact hbudget hnone.symm b hb
      · rfl
    · change k ∈ active ((s.tables.mapKeys (zeroShare zeroed)).keysOf applicationId) at hk
      rw [mapKeys_keysOf, active_map] at hk
      obtain ⟨b, hb, rfl⟩ := List.mem_map.mp hk
      show ¬0 < (zeroShare zeroed b.id b.toShare).amount
      unfold zeroShare
      rw [if_pos (hzeroed b hb)]
      exact lt_irrefl 0
  · cases h

theorem inv_step (hinv : Inv applicationId calls s) {a : Label}
    (hguard : Unraced applicationId calls s a) (h : step applicationId calls s a = some s') :
    Inv applicationId calls s' := by
  cases a with
  | load i => exact inv_load hinv h
  | lock i => exact inv_lock hinv h
  | resolve i outside => exact inv_resolve hinv h
  | write i => exact inv_write hinv h
  | commit i => exact inv_commit hinv hguard h
  | abort i => exact inv_abort hinv h
  | loadApplication => exact inv_loadApplication hinv h
  | zeroAllocation => exact inv_zeroAllocation hinv h
  | zeroRow => exact inv_zeroRow hinv h
  | updateApplication => exact inv_updateApplication hinv hguard h
  | commitApplication => exact inv_commitApplication hinv h
  | abortApplication => exact inv_abortApplication hinv h

end Steps

/-! ## Deactivated Applications -/

/-- Nothing has begun. -/
def State.start (t : Tables) : State := ⟨t, fun _ => none, .idle, fun _ => .idle⟩

/-- **Deactivation removes spending power.** In every run of a deactivation next to any calls
in which no key is created behind the bulk UPDATE and no budget is given behind the first read,
a deactivated Application has no active key with a positive budget. -/
theorem deactivation_releases (applicationId : Nat) (calls : Nat → Call) (t : Tables)
    (s : State) (labels : List Label) (hkeys : (t.keys.map (·.id)).Nodup)
    (happlications : (t.applications.map (·.id)).Nodup)
    (hrun : Run (step applicationId calls) (State.start t) labels s)
    (hguard : Guarded (step applicationId calls) (Unraced applicationId calls) (State.start t)
      labels)
    (hdone : s.progress = .done) :
    ∀ k ∈ active (s.tables.keysOf applicationId), ¬0 < k.amount := by
  have hinv : Inv applicationId calls s :=
    Run.guardedInvariant (fun _ _ _ hm hG h => inv_step hm hG h) hrun hguard
      ⟨hkeys, happlications, fun _ => trivial, trivial⟩
  have hprogress := hinv.progress
  rw [hdone] at hprogress
  exact hprogress.2

/-! ## A key is created while its Application is deactivated -/

/-- An Application with ₹1000 and a key that has ₹100 of them. -/
def fundedApplication : Tables where
  tenants := [⟨1, some 1000⟩]
  applications :=
    [{ allocatedPercentage := some 100, allocatedBudget := some 1000, id := 7, tenantId := 1,
       status := .active }]
  keys :=
    [{ allocatedPercentage := some 10, allocatedBudget := some 100, id := 3, applicationId := 7,
       isActive := true, isExpired := false, cachedFlag := none }]

/-- Every call creates a key with 20 %. -/
def createKey (_ : Nat) : Call := ⟨.create 7 (some 20) none, none⟩

/-- The statements of a creation before its commit. -/
def creation : List Label := [.load 0, .lock 0, .resolve 0 ⟨[], []⟩]

/-- What a run has come to: whether the deactivation is done, and the active keys with their
amounts. -/
def State.outcome (s : State) : Bool × List (Nat × ℚ) :=
  ((match s.progress with
    | .done => true
    | _ => false),
    (active (s.tables.keysOf 7)).map fun k => (k.id, k.amount))

theorem done_of_outcome {s : State} {keys : List (Nat × ℚ)} (h : s.outcome = (true, keys)) :
    s.progress = .done := by
  have hfirst := congrArg Prod.fst h
  unfold State.outcome at hfirst
  dsimp only at hfirst
  split at hfirst
  · assumption
  · cases hfirst

/-- The creation has the lock when the bulk UPDATE runs, and commits before the deactivation
gets to the Application: the new key has ₹200 to spend. -/
theorem created_key_escapes :
    ∃ s, Run (step 7 createKey) (State.start fundedApplication)
        (creation ++ [.loadApplication, .zeroAllocation, .zeroRow, .commit 0, .updateApplication,
          .commitApplication]) s ∧
      s.progress = .done ∧
      ¬∀ k ∈ active (s.tables.keysOf 7), ¬0 < k.amount := by
  obtain ⟨s, hrun, hs⟩ := exists_run_of_map (step 7 createKey) (State.start fundedApplication)
    (creation ++ [.loadApplication, .zeroAllocation, .zeroRow, .commit 0, .updateApplication,
      .commitApplication]) State.outcome (x := (true, [(4, 200), (3, 0)])) (by decide +kernel)
  refine ⟨s, hrun, done_of_outcome hs, fun hall => ?_⟩
  have hamounts : (active (s.tables.keysOf 7)).map (fun k => (k.id, k.amount)) =
      [(4, 200), (3, 0)] := congrArg Prod.snd hs
  obtain ⟨k, hk, hpair⟩ := List.mem_map.mp (hamounts ▸ List.mem_cons_self :
    (4, 200) ∈ (active (s.tables.keysOf 7)).map fun k => (k.id, k.amount))
  have hamount : k.amount = 200 := (Prod.mk.inj hpair).2
  exact hall k hk (hamount ▸ (by norm_num))

/-- `Unraced` as a test. -/
def unracedCheck (s : State) : Label → Bool
  | .commit _ =>
    match s.progress with
    | .zeroing _ _ _ => false
    | _ => true
  | .updateApplication =>
    match s.progress with
    | .zeroing copy _ _ => copy.allocatedBudget.isSome
    | _ => true
  | _ => true

theorem unraced_of_check {applicationId : Nat} {calls : Nat → Call} {s : State} {a : Label}
    (h : unracedCheck s a = true) : Unraced applicationId calls s a := by
  cases a with
  | commit i =>
    intro copy pending zeroed hprogress
    unfold unracedCheck at h
    dsimp only at h
    rw [hprogress] at h
    cases h
  | updateApplication =>
    intro copy zeroed hprogress hnone
    unfold unracedCheck at h
    dsimp only at h
    rw [hprogress] at h
    dsimp only at h
    rw [hnone] at h
    cases h
  | _ => trivial

/-- The creation commits first: both keys are zeroed. -/
theorem deactivation_releases_in_turn :
    ∃ s, Run (step 7 createKey) (State.start fundedApplication)
        (creation ++ [.commit 0, .loadApplication, .zeroAllocation, .zeroRow, .zeroRow,
          .updateApplication, .commitApplication]) s ∧
      ∀ k ∈ active (s.tables.keysOf 7), ¬0 < k.amount := by
  obtain ⟨s, hrun, hs⟩ := exists_run_of_map (step 7 createKey) (State.start fundedApplication)
    (creation ++ [.commit 0, .loadApplication, .zeroAllocation, .zeroRow, .zeroRow,
      .updateApplication, .commitApplication]) State.outcome (x := (true, [(4, 0), (3, 0)]))
    (by decide +kernel)
  refine ⟨s, hrun, ?_⟩
  exact deactivation_releases 7 createKey fundedApplication s _ (by decide) (by decide) hrun
    (guarded_of_check (fun _ _ h => unraced_of_check h) (by decide +kernel)) (done_of_outcome hs)

end Deactivation

end Ai4iCore.Allocation
