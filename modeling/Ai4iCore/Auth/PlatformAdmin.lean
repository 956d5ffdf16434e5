import Ai4iCore.Auth.RoleCalls

/-!
# The administrators of the platform

Three calls can take an ADMIN of the Default Organisation away: a removal of the role, a
suspension and a deletion. Each counts the ADMINs under the lock before it goes on, unless the
user it loaded was not active, or did not hold the role, at that time. A call that did not count
relies on what it has read: another one can reactivate or promote the user before it commits
(`last_admin_is_removed`).

As long as no call that did not count commits against a user who is an active ADMIN by then, an
active ADMIN is left in every state (`platform_keeps_an_admin`). What carries the proof is that
between a count and its commit there are two: whoever else counts waits for the lock.
-/

namespace Ai4iCore.Auth.RoleCalls

open Checked StepSystem

/-! ## Who administers the platform -/

/-- An active, non-deleted ADMIN of the tenant. -/
def Database.IsPlatformAdmin (d : Database) (t : Nat) (id : UserId) : Prop :=
  ∃ u, d.accounts.user id = some u ∧ u.tenantId = some t ∧ u.isDelete = false ∧
    u.isActive = true ∧ ∃ g ∈ d.grants, g.userId = id ∧ g.role = .admin

def Database.HasPlatformAdmin (d : Database) (t : Nat) : Prop := ∃ id, d.IsPlatformAdmin t id

/-- Whoever one write takes away, another one is left. -/
def Database.HasTwoPlatformAdmins (d : Database) (t : Nat) : Prop :=
  ∀ id, ∃ other, other ≠ id ∧ d.IsPlatformAdmin t other

/-- The write takes the user out of the ADMINs, if he is one. -/
def Write.TakesFrom (d : Database) (id : UserId) : Write → Prop
  | .insertGrant _ _ => False
  | .deleteGrant grant => ∃ g ∈ d.grants, g.id = grant ∧ g.userId = id ∧ g.role = .admin
  | .setActive user flag => user = id ∧ flag = some false
  | .markDeleted user _ => user = id

section Writes

variable {d : Database} {t : Nat} {id : UserId}

/-- The rows `count_admins_in_tenant` counts are the administrators. -/
theorem isPlatformAdmin_of_mem (hd : d.WellFormed) {u : User}
    (hu : u ∈ d.accounts.users.filter fun u => u.tenantId = some t && !u.isDelete && u.isActive &&
      decide (RoleName.admin ∈ d.view.getUserRoles u.id)) : d.IsPlatformAdmin t u.id := by
  obtain ⟨hmem, hcond⟩ := List.mem_filter.mp hu
  simp only [Bool.and_eq_true, decide_eq_true_eq, Bool.not_eq_true'] at hcond
  obtain ⟨⟨⟨htenant, hdelete⟩, hactive⟩, hrole⟩ := hcond
  exact ⟨u, Table.get_of_mem hd.users hmem, htenant, hdelete, hactive, mem_roles.mp hrole⟩

theorem hasPlatformAdmin_iff (hd : d.WellFormed) :
    d.HasPlatformAdmin t ↔ 0 < d.view.countInTenant .admin t := by
  rw [RoleStore.countInTenant, List.length_pos_iff_exists_mem]
  constructor
  · rintro ⟨id, u, hu, htenant, hdelete, hactive, hgrant⟩
    refine ⟨u, List.mem_filter.mpr ⟨Table.mem_of_get hu, ?_⟩⟩
    have hrole : RoleName.admin ∈ d.view.getUserRoles u.id := by
      rw [Accounts.id_of_user hu]
      exact mem_roles.mpr hgrant
    simp [htenant, hdelete, hactive, hrole]
  · rintro ⟨u, hu⟩
    exact ⟨u.id, isPlatformAdmin_of_mem hd hu⟩

theorem hasTwo_of_one_lt (hd : d.WellFormed) (h : 1 < d.view.countInTenant .admin t) :
    d.HasTwoPlatformAdmins t := by
  intro id
  obtain ⟨u, hu, hne⟩ := RoleStore.exists_counted_ne hd.users h id
  exact ⟨u.id, hne, isPlatformAdmin_of_mem hd hu⟩

theorem Database.HasTwoPlatformAdmins.hasOne (h : d.HasTwoPlatformAdmins t) :
    d.HasPlatformAdmin t := by
  obtain ⟨id, -, hid⟩ := h 0
  exact ⟨id, hid⟩

/-- One write takes one user away at most. -/
theorem takesFrom_unique (hd : d.WellFormed) {w : Write} {id' : UserId} (h : w.TakesFrom d id)
    (h' : w.TakesFrom d id') : id = id' := by
  cases w with
  | insertGrant user role => exact h.elim
  | deleteGrant grant =>
    obtain ⟨g, hg, hid, rfl, -⟩ := h
    obtain ⟨g', hg', hid', rfl, -⟩ := h'
    rw [List.inj_on_of_nodup_map hd.grants hg hg' (hid.trans hid'.symm)]
  | setActive user flag => exact h.1.symm.trans h'.1
  | markDeleted user deactivates => exact h.symm.trans h'

theorem isPlatformAdmin_modifyUser (h : d.IsPlatformAdmin t id) {user : UserId} {f : User → User}
    (hid : ∀ u, (f u).id = u.id)
    (hf : user = id → ∀ u, (f u).tenantId = u.tenantId ∧ (f u).isDelete = u.isDelete ∧
      (u.isActive = true → (f u).isActive = true)) :
    Database.IsPlatformAdmin { d with accounts := d.accounts.modifyUser user f } t id := by
  obtain ⟨u, hu, htenant, hdelete, hactive, hgrant⟩ := h
  refine ⟨if id = user then f u else u, ?_, ?_⟩
  · rw [Accounts.user_modifyUser _ _ _ _ hid, hu]
    rfl
  · split
    · rename_i heq
      obtain ⟨htenant', hdelete', hactive'⟩ := hf heq.symm u
      exact ⟨htenant'.trans htenant, hdelete'.trans hdelete, hactive' hactive, hgrant⟩
    · exact ⟨htenant, hdelete, hactive, hgrant⟩

/-- Whoever a write does not take away stays. -/
theorem isPlatformAdmin_apply {w : Write} (h : d.IsPlatformAdmin t id) (hw : ¬w.TakesFrom d id) :
    (d.apply w).IsPlatformAdmin t id := by
  cases w with
  | insertGrant user role =>
    obtain ⟨u, hu, htenant, hdelete, hactive, g, hg, hgrant⟩ := h
    exact ⟨u, hu, htenant, hdelete, hactive, g, List.mem_append_left _ hg, hgrant⟩
  | deleteGrant grant =>
    obtain ⟨u, hu, htenant, hdelete, hactive, g, hg, huser, hrole⟩ := h
    refine ⟨u, hu, htenant, hdelete, hactive, g, List.mem_filter.mpr ⟨hg, ?_⟩, huser, hrole⟩
    exact decide_eq_true fun heq => hw ⟨g, hg, heq, huser, hrole⟩
  | setActive user flag =>
    refine isPlatformAdmin_modifyUser h (fun _ => rfl) fun huser u => ⟨rfl, rfl, fun hactive => ?_⟩
    cases flag with
    | none => exact hactive
    | some flag =>
      cases flag with
      | true => rfl
      | false => exact absurd ⟨huser, rfl⟩ hw
  | markDeleted user deactivates =>
    exact isPlatformAdmin_modifyUser h (fun _ => rfl) fun huser => absurd huser hw

end Writes

/-! ## Counts under the lock -/

/-- The tenant of the count that a call relies on. -/
def Phase.counted : Phase → Option Nat
  | .select counted | .writing _ counted => counted
  | _ => none

/-- The lock a call has taken for its count. -/
def Phase.holds : Phase → Option Nat
  | .removalCount tenantId => some tenantId
  | .guardCount _ tenant _ => some tenant.id
  | .select counted | .writing _ counted => counted
  | _ => none

theorem holds_of_counted {p : Phase} {t : Nat} (h : p.counted = some t) : p.holds = some t := by
  cases p with
  | select counted => exact h
  | writing write counted => exact h
  | _ => cases h

theorem holds_of_done {p : Phase} (hp : p.isDone = true) : p.holds = none := by
  cases p with
  | succeeded => rfl
  | failed e => rfl
  | aborted => rfl
  | _ => cases hp

/-- A lock comes before a count. -/
theorem counted_of_wants {p p' : Phase} {t : Nat} (h : p.wants = some (t, p')) :
    p'.counted = none ∧ ∀ t', p'.holds = some t' → t' = t := by
  cases p with
  | rosterLock tenantId =>
    obtain ⟨rfl, rfl⟩ := Prod.mk.inj (Option.some.inj h)
    exact ⟨rfl, fun _ h => nomatch h⟩
  | removalLock tenantId =>
    obtain ⟨rfl, rfl⟩ := Prod.mk.inj (Option.some.inj h)
    exact ⟨rfl, fun _ h => (Option.some.inj h).symm⟩
  | guardLock role tenant target =>
    obtain ⟨rfl, rfl⟩ := Prod.mk.inj (Option.some.inj h)
    exact ⟨rfl, fun _ h => (Option.some.inj h).symm⟩
  | _ => cases h

/-- A read leads to a count under the lock, to a write with or without one, or to neither. -/
structure ReadKeeps (d : Database) (p p' : Phase) : Prop where
  holds : p'.holds = p'.counted
  counted : ∀ t, p'.counted = some t →
    p.holds = some t ∧ (p.counted = some t ∨ 1 < d.view.countInTenant .admin t)

theorem ReadKeeps.of_none {d : Database} {p p' : Phase} (hholds : p'.holds = none)
    (hcounted : p'.counted = none) : ReadKeeps d p p' :=
  ⟨hholds.trans hcounted.symm, fun _ h => absurd (hcounted.symm.trans h) (Option.some_ne_none _).symm⟩

section Reads

variable {d : Database} {r : Request} {p p' : Phase}

theorem read_keeps (h : read d r p = some (.ok p')) : ReadKeeps d p p' := by
  cases read_cases h with
  | load h => cases h <;> exact .of_none rfl rfl
  | counted hcount =>
    refine ⟨rfl, fun t ht => ?_⟩
    obtain rfl := Option.some.inj ht
    exact ⟨rfl, .inr hcount⟩
  | selected hone => exact ⟨rfl, fun t ht => ⟨ht, .inl ht⟩⟩
  | guardCounted hcount =>
    refine ⟨rfl, fun t ht => ?_⟩
    obtain rfl := Option.some.inj ht
    exact ⟨rfl, .inr hcount⟩
  | _ => exact .of_none rfl rfl

/-- A removal skips the count of the Default Organisation when the user it loads is no active
ADMIN there; what he is later it does not look at. -/
theorem loadRemove_skips {t : Nat} {tenant : Tenant} {id : UserId}
    (htenant : d.accounts.tenant t = some tenant) (hdefault : isDefaultTenant tenant = true)
    (h : loadRemove d id .admin = .ok (.select none)) : ¬d.IsPlatformAdmin t id := by
  rintro ⟨u, hu, hut, hdelete, hactive, -⟩
  obtain ⟨-, h⟩ := require_bind h
  have hget : (d.accounts.getById id).filter User.isActive = some u := by
    simp [Accounts.getById, hu, hdelete, hactive]
  have horg : d.defaultTenantOf ((d.accounts.getById id).filter User.isActive) = some tenant := by
    rw [hget]
    simp [Database.defaultTenantOf, hut, htenant, hdefault]
  rw [horg] at h
  cases h

/-- A suspension or a deletion skips it when the user was loaded inactive, or does not hold the
role at that time. -/
theorem platformGuard_skips {tenant : Tenant} {target : User} {write : Write}
    {counted : Option Nat} (hdefault : isDefaultTenant tenant = true)
    (h : platformGuard r tenant target = .writing write counted ∨
      read d r (.guardRoles .admin tenant target) = some (.ok (.writing write counted))) :
    target.isActive = false ∨ RoleName.admin ∉ d.view.getUserRoles target.id := by
  obtain h | h := h
  · unfold platformGuard at h
    split at h
    · rename_i hskip
      left
      simpa [hdefault] using hskip
    · cases h
  · right
    intro hrole
    have hlock := Except.ok.inj (Option.some.inj h)
    rw [if_pos hrole] at hlock
    cases hlock

end Reads

/-! ## The invariant -/

/-- Between a count and its commit there are two ADMINs, and no one else counts. -/
structure Inv (t : Nat) (s : State) : Prop where
  wellFormed : s.db.WellFormed
  admin : s.db.HasPlatformAdmin t
  holding : ∀ i t', (s.phases i).holds = some t' → s.locks t' = some i
  counted : ∀ i, (s.phases i).counted = some t → s.db.HasTwoPlatformAdmins t

/-- A call that commits without having counted the ADMINs of the tenant takes none of them away:
whoever it removes, suspends or deletes is no active ADMIN at that time. -/
def Spares (t : Nat) (s : State) : Label → Prop
  | .run i => ∀ write counted, s.phases i = .writing write counted → counted ≠ some t →
      ∀ id, s.db.IsPlatformAdmin t id → ¬write.TakesFrom s.db id
  | .abort _ => True

section Invariant

variable {requests : Nat → Request} {s s' : State} {t i : Nat}

/-- A step of call `i` that writes nothing. -/
theorem Inv.moved (hinv : Inv t s) {p : Phase} {locks : Locks Nat}
    (hlocks : ∀ j t', j ≠ i → s.locks t' = some j → locks t' = some j)
    (hholds : ∀ t', p.holds = some t' → locks t' = some i)
    (hcounted : p.counted = some t → s.db.HasTwoPlatformAdmins t) :
    Inv t { s.set i p with locks := locks } := by
  refine ⟨hinv.wellFormed, hinv.admin, fun j t' hj => ?_, fun j hj => ?_⟩
  · change (Function.update s.phases i p j).holds = some t' at hj
    by_cases hij : j = i
    · subst hij
      rw [Function.update_self] at hj
      exact hholds t' hj
    · rw [Function.update_of_ne hij] at hj
      exact hlocks j t' hij (hinv.holding j t' hj)
  · change (Function.update s.phases i p j).counted = some t at hj
    by_cases hij : j = i
    · subst hij
      rw [Function.update_self] at hj
      exact hcounted hj
    · rw [Function.update_of_ne hij] at hj
      exact hinv.counted j hj

theorem Inv.close (hinv : Inv t s) {p : Phase} (hp : p.isDone = true) : Inv t (s.close i p) := by
  have hnone := holds_of_done hp
  refine hinv.moved (fun j t' hj h => Locks.release_of_held h hj) (fun t' h => ?_) fun h => ?_
  · exact absurd (hnone.symm.trans h) (Option.some_ne_none t').symm
  · exact absurd (hnone.symm.trans (holds_of_counted h)) (Option.some_ne_none t).symm

/-- The ADMINs whom a commit does not take away. -/
theorem Inv.apply (hinv : Inv t s) {w : Write} {c : Option Nat} (hphase : s.phases i = .writing w c)
    (hspares : c ≠ some t → ∀ id, s.db.IsPlatformAdmin t id → ¬w.TakesFrom s.db id) :
    Inv t { s.close i .succeeded with db := s.db.apply w } := by
  have hclosed := hinv.close (i := i) (p := .succeeded) rfl
  have hcount : (s.phases i).counted = c := by rw [hphase]; rfl
  refine ⟨wellFormed_apply hinv.wellFormed w, ?_, hclosed.holding, fun j hj => ?_⟩
  · by_cases hc : c = some t
    · -- one of the two is left
      have htwo := hinv.counted i (hcount.trans hc)
      by_cases htakes : ∃ id, w.TakesFrom s.db id
      · obtain ⟨id, hid⟩ := htakes
        obtain ⟨other, hne, hother⟩ := htwo id
        exact ⟨other, isPlatformAdmin_apply hother fun h =>
          hne (takesFrom_unique hinv.wellFormed h hid)⟩
      · obtain ⟨id, hid⟩ := htwo.hasOne
        exact ⟨id, isPlatformAdmin_apply hid fun h => htakes ⟨id, h⟩⟩
    · obtain ⟨id, hid⟩ := hinv.admin
      exact ⟨id, isPlatformAdmin_apply hid (hspares hc id hid)⟩
  · change (Function.update s.phases i .succeeded j).counted = some t at hj
    by_cases hij : j = i
    · subst hij
      rw [Function.update_self] at hj
      cases hj
    · rw [Function.update_of_ne hij] at hj
      -- the lock is with `j`, so `i` has not counted
      have hc : c ≠ some t := fun hc => hij (Option.some.inj
        ((hinv.holding j t (holds_of_counted hj)).symm.trans
          (hinv.holding i t (holds_of_counted (hcount.trans hc)))))
      intro id
      obtain ⟨other, hne, hother⟩ := hinv.counted j hj id
      exact ⟨other, hne, isPlatformAdmin_apply hother (hspares hc other hother)⟩

theorem inv_step {a : Label} (hinv : Inv t s) (hguard : Spares t s a)
    (h : step requests s a = some s') : Inv t s' := by
  obtain ⟨i, hlabel, hsteps⟩ := step_cases h
  obtain rfl | ⟨-, rfl⟩ := hlabel
  · cases hsteps with
    | close p hp => exact hinv.close hp
    | write w counted hphase _ => exact hinv.apply hphase (hguard w counted hphase)
    | lock tenantId p hwants hmay =>
      obtain ⟨hcounted, hholds⟩ := counted_of_wants hwants
      refine hinv.moved (fun j t' _ hj => Locks.take_of_held hmay hj) (fun t' ht' => ?_) fun ht => ?_
      · rw [hholds t' ht']
        exact Locks.take_self _ _ _
      · exact absurd (hcounted.symm.trans ht) (Option.some_ne_none t).symm
    | go p hread _ =>
      obtain ⟨hholds, hcounted⟩ := read_keeps hread
      refine hinv.moved (fun _ _ _ hj => hj) (fun t' ht' => ?_) fun ht => ?_
      · exact hinv.holding i t' (hcounted t' (hholds ▸ ht')).1
      · obtain hbefore | hcount := (hcounted t ht).2
        · exact hinv.counted i hbefore
        · exact hasTwo_of_one_lt hinv.wellFormed hcount
  · exact hinv.close rfl

end Invariant

/-! ## The platform keeps an administrator -/

/-- **The platform keeps an administrator**: when no call that skipped the count commits against
an active ADMIN, there is one in every state of the run. -/
theorem platform_keeps_an_admin (requests : Nat → Request) (d : Database) (t : Nat) (s : State)
    (labels : List Label) (hd : d.WellFormed) (hadmin : d.HasPlatformAdmin t)
    (hrun : Run (step requests) (State.start d) labels s)
    (hguard : Guarded (step requests) (Spares t) (State.start d) labels) :
    s.db.HasPlatformAdmin t := by
  have hstart : Inv t (State.start d) :=
    ⟨hd, hadmin, fun _ _ h => absurd h (by simp [State.start, Phase.holds]),
      fun _ h => absurd h (by simp [State.start, Phase.counted])⟩
  exact (Run.guardedInvariant (fun _ _ _ hm hG h => inv_step hm hG h) hrun hguard hstart).admin

/-- The Default Organisation with an active ADMIN and a suspended one. -/
def oneActive : Database where
  accounts :=
    { users := [⟨1, "root@example.com", some 1, true, some 0, false, true, none⟩,
        ⟨2, "deputy@example.com", some 1, false, some 0, false, true, some .tenant⟩]
      tenants := [⟨1, "default organisation", "root@example.com", .active⟩] }
  catalogue := [.admin, .user, .guest, .moderator, .tenantAdmin, .usageViewer]
  grants := [⟨1, 1, .admin⟩, ⟨2, 2, .admin⟩]
  nextGrant := 3

theorem oneActive_wellFormed : oneActive.WellFormed where
  users := show (oneActive.accounts.users.map User.id).Nodup by decide
  grants := by decide
  next := by decide

theorem oneActive_admin : oneActive.HasPlatformAdmin 1 :=
  (hasPlatformAdmin_iff oneActive_wellFormed).mpr (by decide +kernel)

/-- Call 0 removes the role of the suspended ADMIN, call 1 reactivates him, every other call
suspends the active one. -/
def demoteAndReactivate : Nat → Request
  | 0 => .removeRole 2 .admin
  | 1 => .updateTenantUserStatus 1 2 true
  | _ => .updateTenantUserStatus 1 1 false

/-- A suspension from its first read to its commit, with the count. -/
def suspension : List Label := [.run 2, .run 2, .run 2, .run 2, .run 2]

/-- A commit that counts, or takes nobody away. -/
def countsCheck (t : Nat) (s : State) : Label → Bool
  | .run i =>
    match s.phases i with
    | .writing (.setActive _ (some false)) counted => counted = some t
    | .writing (.markDeleted _ _) counted => counted = some t
    | .writing (.deleteGrant _) counted => counted = some t
    | _ => true
  | .abort _ => true

theorem spares_of_check {t : Nat} {s : State} {a : Label} (h : countsCheck t s a = true) :
    Spares t s a := by
  cases a with
  | abort i => trivial
  | run i =>
    intro write counted hphase hcounted id _ htakes
    unfold countsCheck at h
    simp only [hphase] at h
    cases write with
    | insertGrant user role => exact htakes
    | deleteGrant grant => exact hcounted (of_decide_eq_true h)
    | setActive user flag =>
      obtain ⟨-, rfl⟩ := htakes
      exact hcounted (of_decide_eq_true h)
    | markDeleted user deactivates => exact hcounted (of_decide_eq_true h)

/-- The reactivation first, then the suspension; the removal finds one ADMIN left. -/
theorem platform_keeps_an_admin_in_turn :
    ∃ s, Run (step demoteAndReactivate) (State.start oneActive)
        ([.run 1, .run 1] ++ suspension ++ [.run 0, .run 0, .run 0]) s ∧
      (s.phases 2, s.phases 0) = (.succeeded, .failed .lastPlatformAdmin) ∧
      s.db.HasPlatformAdmin 1 := by
  obtain ⟨s, hrun, hs⟩ := exists_run_of_map (step demoteAndReactivate) (State.start oneActive)
    ([.run 1, .run 1] ++ suspension ++ [.run 0, .run 0, .run 0])
    (fun s => (s.phases 2, s.phases 0))
    (x := (.succeeded, .failed .lastPlatformAdmin)) (by decide +kernel)
  refine ⟨s, hrun, hs, ?_⟩
  exact platform_keeps_an_admin demoteAndReactivate oneActive 1 s _ oneActive_wellFormed
    oneActive_admin hrun (guarded_of_check (fun _ _ h => spares_of_check h) (by decide +kernel))

/-- The removal loads the suspended user and does not count; he is reactivated; the suspension of
the other one counts two. When the removal commits no ADMIN is active. -/
theorem last_admin_is_removed :
    isDefaultTenant ⟨1, "default organisation", "root@example.com", .active⟩ = true ∧
      oneActive.WellFormed ∧ oneActive.HasPlatformAdmin 1 ∧
      ∃ s, Run (step demoteAndReactivate) (State.start oneActive)
          ([.run 0, .run 0, .run 1, .run 1] ++ suspension ++ [.run 0]) s ∧
        (s.phases 0, s.phases 1, s.phases 2) = (.succeeded, .succeeded, .succeeded) ∧
        ¬s.db.HasPlatformAdmin 1 := by
  refine ⟨by decide, oneActive_wellFormed, oneActive_admin, ?_⟩
  obtain ⟨s, hrun, hs⟩ := exists_run_of_map (step demoteAndReactivate) (State.start oneActive)
    ([.run 0, .run 0, .run 1, .run 1] ++ suspension ++ [.run 0])
    (fun s => ((s.phases 0, s.phases 1, s.phases 2), s.db.view.countInTenant .admin 1))
    (x := ((.succeeded, .succeeded, .succeeded), 0)) (by decide +kernel)
  obtain ⟨hphases, hcount⟩ := Prod.mk.inj hs
  have hd : s.db.WellFormed :=
    Run.invariant (P := fun s => s.db.WellFormed) (fun _ _ _ hm h => wellFormed_step hm h) hrun
      oneActive_wellFormed
  refine ⟨s, hrun, hphases, fun hadmin => ?_⟩
  rw [hasPlatformAdmin_iff hd, hcount] at hadmin
  exact Nat.lt_irrefl 0 hadmin

end Ai4iCore.Auth.RoleCalls
