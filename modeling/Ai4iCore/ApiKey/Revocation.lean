import Ai4iCore.ApiKey.Service

/-!
# When revocation is final

`revoke_by_obj` sets `is_active = False`, commits, and then deletes the Redis
hashes of the row's values. A revoked row never changes its values again (every
guarded `UPDATE` asks for an active row) and a cache miss on them finds no valid
row, so the only way back in is a hash with a live payload.

Three handlers write such a payload on the strength of a row they read earlier:
the validator's rehydration, `update_key_by_obj` and `extend_rotation_by_obj`
(`rotate_by_obj` reads the row once more after its writes and takes them back).
When the revocation comes in between, the hash they write outlives it:
`accepts_after_revoke` is the shortest such run. `revocation_final` shows that
this is the only way: in every run in which no live payload is written for a row
that is already revoked, revocation is final.
-/

namespace Ai4iCore.ApiKey

open Concurrent StepSystem

/-! ## Hashes that authenticate -/

namespace Redis

/-- Writing a tombstone brings no value to life. -/
theorem live_of_live_tombstone {r : Redis} {now : Time} {value v : KeyValue} {ttl : Nat}
    (h : (r.setApiKeyCache now value ttl tombstone).Live now v) : r.Live now v := by
  obtain ⟨e, hget, hunexpired, hvalid⟩ := h
  by_cases hv : v = value
  · subst hv
    rw [setApiKeyCache, Function.update_self] at hget
    obtain rfl := Option.some.inj hget
    rw [isCacheEntryInvalid_merge_tombstone] at hvalid
    cases hvalid
  · rw [setApiKeyCache, Function.update_of_ne hv] at hget
    exact ⟨e, hget, hunexpired, hvalid⟩

/-- A deleted hash is gone. -/
theorem not_live_delete (r : Redis) (now : Time) (value : KeyValue) :
    ¬ (r.deleteApiKeyCache value).Live now value := by
  rintro ⟨e, hget, -⟩
  rw [deleteApiKeyCache, Function.update_self] at hget
  cases hget

/-- Deleting brings no value to life. -/
theorem live_of_live_delete {r : Redis} {now : Time} {value v : KeyValue}
    (h : (r.deleteApiKeyCache value).Live now v) : r.Live now v := by
  have hv : v ≠ value := by
    rintro rfl
    exact not_live_delete r now v h
  obtain ⟨e, hget, hrest⟩ := h
  rw [deleteApiKeyCache, Function.update_of_ne hv] at hget
  exact ⟨e, hget, hrest⟩

/-- Time brings no value to life. -/
theorem live_of_live_later {r : Redis} {now later : Time} (hle : now ≤ later)
    {v : KeyValue} (h : r.Live later v) : r.Live now v := by
  obtain ⟨e, hget, hunexpired, hvalid⟩ := h
  exact ⟨e, hget, Nat.lt_of_le_of_lt hle hunexpired, hvalid⟩

end Redis

/-! ## What the service does to a revoked row -/

/-- The value authenticates from Redis alone. -/
def Store.Serves (s : Store) (v : KeyValue) : Prop := s.redis.Live s.now v

/-- The row is revoked and neither of its values authenticates from Redis. -/
structure Dead (s : Store) : Prop where
  inactive : s.row.isActive = false
  unserved : ∀ v ∈ s.row.values, ¬ s.Serves v

/-- A revoked row stays as it is, and no value comes to life in Redis. -/
def Frozen (s t : Store) : Prop :=
  s.row.isActive = false →
    t.row.isActive = false ∧ t.row.values = s.row.values ∧ ∀ v, t.Serves v → s.Serves v

theorem Dead.frozen {s t : Store} (h : Dead s) (hst : Frozen s t) : Dead t := by
  obtain ⟨hinactive, hvalues, hserves⟩ := hst h.inactive
  refine ⟨hinactive, fun v hv hserved => ?_⟩
  rw [hvalues] at hv
  exact h.unserved v hv (hserves v hserved)

/-- The condition: a live payload is written only while the row is active. -/
def NoStaleWrite (s : Store) : Op → Prop
  | .setApiKeyCache _ _ data => data = tombstone ∨ s.row.isActive = true
  | _ => True

/-- `NoStaleWrite` as a test. -/
def noStaleWriteCheck (s : Store) : Op → Bool
  | .setApiKeyCache _ _ data => decide (data = tombstone) || s.row.isActive
  | _ => true

theorem noStaleWrite_of_check (s : Store) (o : Op) (h : noStaleWriteCheck s o = true) :
    NoStaleWrite s o := by
  cases o with
  | setApiKeyCache value ttl data => simpa [noStaleWriteCheck, NoStaleWrite] using h
  | _ => trivial

/-- Requests among requests that write no stale payload. -/
def freshWrites : Interference sig Store where
  rely := Frozen
  allowed := NoStaleWrite
  refl _ h := ⟨h, rfl, fun _ hv => hv⟩
  trans _ _ _ hst htu h := by
    obtain ⟨hactive, hvalues, hserves⟩ := hst h
    obtain ⟨hactive', hvalues', hserves'⟩ := htu hactive
    exact ⟨hactive', hvalues'.trans hvalues, fun v hv => hserves v (hserves' v hv)⟩

/-- A guarded `UPDATE` does not match a revoked row. -/
theorem Row.activeConditions_of_revoked {row : Row} (h : row.isActive = false) (now : Time) :
    row.activeConditions now = false := by
  simp [Row.activeConditions, h]

theorem Row.matchesIfValid_of_revoked {row : Row} (h : row.isActive = false)
    (value : KeyValue) (now : Time) : row.matchesIfValid value now = false := by
  rw [Row.matchesIfValid, Row.activeConditions_of_revoked h, Bool.and_false]

theorem Row.rotate_of_revoked {row : Row} (h : row.isActive = false)
    (current new : KeyValue) (expiresAt now : Time) :
    row.rotate current new expiresAt now = none := by
  simp [Row.rotate, Row.activeConditions_of_revoked h]

theorem Row.endRotation_of_revoked {row : Row} (h : row.isActive = false)
    (rotated : KeyValue) (now : Time) : row.endRotation rotated now = none := by
  simp [Row.endRotation, Row.activeConditions_of_revoked h]

theorem Row.extendRotation_of_revoked {row : Row} (h : row.isActive = false)
    (rotated : KeyValue) (newExpiresAt now : Time) :
    row.extendRotation rotated newExpiresAt now = none := by
  simp [Row.extendRotation, Row.activeConditions_of_revoked h]

/-- Every operation of the service leaves a revoked row frozen, unless it writes a
live payload. -/
theorem exec_frozen (s : Store) (o : Op) (ho : NoStaleWrite s o) :
    Frozen s (exec o s).1 := by
  intro h
  cases o with
  | setApiKeyCache value ttl data =>
    obtain rfl | hactive := ho
    · exact ⟨h, rfl, fun v hv => Redis.live_of_live_tombstone hv⟩
    · rw [h] at hactive
      cases hactive
  | deleteApiKeyCache value => exact ⟨h, rfl, fun v hv => Redis.live_of_live_delete hv⟩
  | revoke => exact ⟨rfl, rfl, fun v hv => hv⟩
  | update data => exact ⟨h, rfl, fun v hv => hv⟩
  | rotate current new expiresAt now =>
    have hnone : (exec (.rotate current new expiresAt now) s).1 = s := by
      simp [exec, Row.rotate_of_revoked h, Store.updateRow]
    rw [hnone]
    exact ⟨h, rfl, fun v hv => hv⟩
  | endRotation rotated now =>
    have hnone : (exec (.endRotation rotated now) s).1 = s := by
      simp [exec, Row.endRotation_of_revoked h, Store.updateRow]
    rw [hnone]
    exact ⟨h, rfl, fun v hv => hv⟩
  | extendRotation rotated newExpiresAt now =>
    have hnone : (exec (.extendRotation rotated newExpiresAt now) s).1 = s := by
      simp [exec, Row.extendRotation_of_revoked h, Store.updateRow]
    rw [hnone]
    exact ⟨h, rfl, fun v hv => hv⟩
  | _ => exact ⟨h, rfl, fun v hv => hv⟩

/-- So does the passing of time, and any change of the application or the tenant. -/
theorem env_frozen (s : Store) (e : Env) (t : Store) (h : env s e = some t) : Frozen s t := by
  intro hinactive
  cases e with
  | tick elapsed =>
    obtain rfl := Option.some.inj h
    exact ⟨hinactive, rfl, fun v hv => Redis.live_of_live_later (Nat.le_add_right _ _) hv⟩
  | setApplication application =>
    obtain rfl := Option.some.inj h
    exact ⟨hinactive, rfl, fun v hv => hv⟩
  | setTenant tenant =>
    obtain rfl := Option.some.inj h
    exact ⟨hinactive, rfl, fun v hv => hv⟩

/-! ## The two handlers -/

/-- A handler that fails says nothing. -/
def OnReply (Q : Reply → Store → Prop) : Except ServiceError Reply → Store → Prop
  | .ok reply, s => Q reply s
  | .error _, _ => True

/-- Loading the row: the copy is the row as the store holds it. -/
theorem loadRow_ensures {α : Type} {Q : Except ServiceError α → Store → Prop}
    {f : Row → Handler α} {s : Store}
    (hok : ∀ t, Frozen s t → Prog.Ensures exec freshWrites Q (f t.row) t)
    (hfail : ∀ e t, Q (.error e) t) :
    Prog.Ensures exec freshWrites Q (loadRow.bind f) s := by
  refine Prog.ensures_bind ?_
  refine Prog.ensures_perform (fun t ht _ => ?_) fun _ _ _ => hfail _ _
  exact fun u hu => (hok t ht).rely hu

/-- `_delete_key_caches` on a revoked row: when every value still to be deleted is on
the list, the row is dead at the end. -/
theorem deleteEach_ensures (vs : List KeyValue) (s : Store) (hinactive : s.row.isActive = false)
    (hvs : ∀ v ∈ s.row.values, v ∈ vs ∨ ¬ s.Serves v) :
    Prog.Ensures exec freshWrites (fun r t => r = .ok () → Dead t)
      (Prog.each (fun value => perform (.deleteApiKeyCache value)) vs) s := by
  induction vs generalizing s with
  | nil =>
    intro t ht _
    have hdead : Dead s := ⟨hinactive, fun v hv => (hvs v hv).resolve_left List.not_mem_nil⟩
    exact hdead.frozen ht
  | cons value vs ih =>
    refine Prog.ensures_perform (fun t ht _ => ?_) fun _ h => nomatch h
    obtain ⟨hinactive', hvalues, hserves⟩ := ht hinactive
    refine ih _ hinactive' fun v hv => ?_
    change v ∈ t.row.values at hv
    rw [hvalues] at hv
    by_cases hne : v = value
    · subst hne
      exact .inr (Redis.not_live_delete _ _ _)
    · obtain hmem | hunserved := hvs v hv
      · exact .inl ((List.mem_cons.mp hmem).resolve_left hne)
      · exact .inr fun h => hunserved (hserves v (Redis.live_of_live_delete h))

/-- **`revoke_by_obj`** returns only when the row is dead: after the commit the row is
frozen, the refreshed copy lists its values, and both hashes are deleted. -/
theorem revoke_ensures (settings : Settings) (s : Store) :
    Prog.Ensures exec freshWrites
      (OnReply fun reply t => reply = .revoked → Dead t) (code settings .revoke) s := by
  refine loadRow_ensures (fun t _ => ?_) fun _ _ => trivial
  refine Prog.ensures_perform (fun u _ _ => ?_) fun _ => trivial
  refine loadRow_ensures (fun w hw => ?_) fun _ _ => trivial
  obtain ⟨hinactive, -, -⟩ := hw rfl
  refine Prog.ensures_bind
    (Prog.Ensures.mono (fun r x hdead => ?_) (deleteEach_ensures w.row.values w hinactive
      fun v hv => .inl hv))
  cases r with
  | ok u => exact fun y hy _ => (hdead rfl).frozen hy
  | error e => exact fun y _ => trivial

/-- What is needed of all requests: a revocation that returned left a dead row. -/
theorem code_ensures (settings : Settings) (r : Request) (s : Store) :
    Prog.Ensures exec freshWrites
      (OnReply fun reply t => r = .revoke → reply = .revoked → Dead t) (code settings r) s := by
  by_cases hr : r = .revoke
  · subst hr
    refine Prog.Ensures.mono (fun result t h => ?_) (revoke_ensures settings s)
    cases result with
    | ok reply => exact fun _ => h
    | error e => trivial
  · refine Prog.Ensures.of_forall (fun result t => ?_) _ s
    cases result with
    | ok reply => exact fun h => absurd h hr
    | error e => trivial

/-- **`validate_api_key`** on a value of a dead row finds no live hash and no valid row. -/
theorem validate_ensures (settings : Settings) (s : Store) (hdead : Dead s) {v : KeyValue}
    (hv : v ∈ s.row.values) :
    Prog.Ensures exec freshWrites (OnReply fun reply _ => ∀ result, reply ≠ .valid result)
      (code settings (.validate v.1)) s := by
  have hcode : code settings (.validate v.1) = validateValue settings v :=
    dif_pos v.2
  rw [hcode]
  refine Prog.ensures_perform (fun t ht _ => ?_) fun _ => trivial
  have hdead' : Dead t := hdead.frozen ht
  have hv' : v ∈ t.row.values := by
    rw [(ht hdead.inactive).2.1]
    exact hv
  split
  · -- a hash that is there carries the tombstone
    rename_i cached hcached
    split
    · exact fun _ _ => trivial
    · rename_i hvalid
      obtain ⟨e, hentry, hunexpired, rfl⟩ := Redis.entry_of_getApiKeyCache hcached
      exact absurd ⟨e, hentry, hunexpired, by simpa using hvalid⟩ (hdead'.unserved v hv')
  · refine Prog.ensures_bind ?_
    refine Prog.ensures_perform (fun u hu _ => ?_) fun _ _ _ => trivial
    refine Prog.ensures_perform (fun w hw _ => ?_) fun _ _ _ => trivial
    have hinactive : w.row.isActive = false := ((hdead'.frozen hu).frozen hw).inactive
    -- a revoked row is never found
    have hnone : (exec (.getByApiKeyIfValid v (exec .now u).2) w).2 = [] :=
      if_neg (Bool.eq_false_iff.mp (Row.matchesIfValid_of_revoked hinactive _ _))
    split
    · exact Prog.ensures_perform (fun _ _ _ => fun _ _ _ _ => trivial) fun _ _ _ => trivial
    · rename_i hfound
      rw [hnone] at hfound
      cases hfound
    · rename_i hne _
      exact absurd hnone hne

/-! ## Runs of the service -/

/-- Along `before`, request `i` revokes the row and returns; request `j`, which starts
next, validates a value `v` of the row and is told it is valid along `after`. -/
def AcceptsAfterRevoke (settings : Settings) (s₀ : Store)
    (before after : List (Label Env Request)) (i j : Nat) (v : KeyValue) : Prop :=
  ∃ p₁ p₂ result,
    Run (service settings).step (Pool.idle s₀) before p₁ ∧
    p₁.Returned i .revoke .revoked ∧ v ∈ p₁.shared.row.values ∧
    Run (service settings).step p₁ (.spawn j (.validate v.1) :: after) p₂ ∧
    p₂.Returned j (.validate v.1) (.valid result)

/-- **Revocation is final** in every run in which no live payload is written for a row
that is already revoked: no validation that starts after `revoke_by_obj` has
returned accepts the row's current or rotated-out value. -/
theorem revocation_final (settings : Settings) (s₀ : Store)
    (before after : List (Label Env Request)) (i j : Nat) (v : KeyValue)
    (hfresh : Guarded (service settings).step (System.Obeys freshWrites) (Pool.idle s₀)
      (before ++ .spawn j (.validate v.1) :: after)) :
    ¬ AcceptsAfterRevoke settings s₀ before after i j v := by
  rintro ⟨p₁, p₂, result, hbefore, hrevoked, hv, hafter, haccepted⟩
  obtain ⟨hfresh₁, hfresh₂⟩ := guarded_append hfresh hbefore
  -- the revocation left a dead row behind
  have hdead : Dead p₁.shared :=
    System.follow_all (Y := service settings) (A := freshWrites) exec_frozen env_frozen
      hbefore hfresh₁ (fun r s _ => code_ensures settings r s) (fun _ => rfl) hrevoked
      _ (freshWrites.refl _) rfl rfl
  obtain ⟨m, hspawn, hrest⟩ := run_cons_iff.mp hafter
  obtain ⟨hshared, hthread⟩ := (service settings).step_spawn hspawn
  have hvalidate := validate_ensures settings p₁.shared hdead hv
  rw [← hshared] at hvalidate
  obtain ⟨prog, hprog, hensures⟩ :=
    System.follow (Y := service settings) (A := freshWrites) exec_frozen env_frozen
      hrest (hfresh₂.2 m hspawn) hthread hvalidate
  rw [haccepted] at hprog
  cases hprog
  exact hensures _ (freshWrites.refl _) result rfl

/-! ### Two schedules of one revocation -/

def sampleSettings : Settings := ⟨365, 86400⟩

/-- An active key whose hash has been evicted from Redis. -/
def sampleStore : Store where
  now := 0
  row :=
    { id := 7
      applicationId := 3
      apiKey := sampleKey
      permissions := [1, 2]
      expiresAt := some (daySeconds 30 * second)
      isActive := true
      createdBy := none
      cachedData := some (Record.ofList [("id", .int 7), ("tier_id", .str "gold")])
      rotatedKey := none
      rotatedKeyExpiresAt := none }
  application := some ⟨1, .active⟩
  tenant := some ⟨1, .active, some goldTier, none⟩
  redis := fun _ => none

/-- A cache miss: the validator has read the row and is about to write its hash. -/
def missThenRead : List (Label Env Request) :=
  [.spawn 0 (.validate sampleKey.1), .run 0 .ok, .run 0 .ok, .run 0 .ok]

/-- The validator's remaining steps. -/
def rehydrate : List (Label Env Request) := [.run 0 .ok, .run 0 .ok]

/-- A whole revocation. -/
def revokeAll : List (Label Env Request) :=
  [.spawn 1 .revoke, .run 1 .ok, .run 1 .ok, .run 1 .ok, .run 1 .ok]

/-- The claim's violation, found by running: the validator writes its hash after the
revocation has returned, and the next validation is served from it. -/
theorem accepts_after_revoke :
    AcceptsAfterRevoke sampleSettings sampleStore (missThenRead ++ revokeAll ++ rehydrate)
      [.run 2 .ok] 1 2 sampleKey := by
  have hrun : ((missThenRead ++ revokeAll ++ rehydrate).foldlM
      (service sampleSettings).step (Pool.idle sampleStore)).bind (fun p₁ =>
        ([.spawn 2 (.validate sampleKey.1), .run 2 .ok].foldlM
          (service sampleSettings).step p₁).map fun p₂ =>
            (p₁.answer 1, p₁.shared.row.values, p₂.answer 2)) =
      some (some (.revoke, .revoked), [sampleKey],
        some (.validate sampleKey.1,
          .valid (Record.ofList [("id", .str "7"), ("tier_id", .str "gold")]))) := by
    decide +kernel
  obtain ⟨p₁, h₁, h₂⟩ := Option.bind_eq_some_iff.mp hrun
  obtain ⟨p₂, hafter, hobserved⟩ := Option.map_eq_some_iff.mp h₂
  obtain ⟨hrevoked, hrest⟩ := Prod.mk.inj hobserved
  obtain ⟨hvalues, haccepted⟩ := Prod.mk.inj hrest
  refine ⟨p₁, p₂, _, h₁, Pool.returned_of_answer hrevoked, ?_, hafter,
    Pool.returned_of_answer haccepted⟩
  rw [hvalues]
  exact List.mem_singleton_self _

/-- The other order of the same requests: the hash is written first, the revocation
deletes it, and the value is refused. -/
theorem revocation_final_sample :
    Guarded (service sampleSettings).step (System.Obeys freshWrites) (Pool.idle sampleStore)
      ((missThenRead ++ rehydrate ++ revokeAll) ++
        .spawn 2 (.validate sampleKey.1) :: [.run 2 .ok, .run 2 .ok, .run 2 .ok, .run 2 .ok]) ∧
    ¬ AcceptsAfterRevoke sampleSettings sampleStore (missThenRead ++ rehydrate ++ revokeAll)
      [.run 2 .ok, .run 2 .ok, .run 2 .ok, .run 2 .ok] 1 2 sampleKey := by
  have hfresh : Guarded (service sampleSettings).step (System.Obeys freshWrites)
      (Pool.idle sampleStore) ((missThenRead ++ rehydrate ++ revokeAll) ++
        .spawn 2 (.validate sampleKey.1) ::
          [.run 2 .ok, .run 2 .ok, .run 2 .ok, .run 2 .ok]) :=
    guarded_of_check (System.obeys_of_check noStaleWrite_of_check) (by decide +kernel)
  exact ⟨hfresh, revocation_final _ _ _ _ _ _ _ hfresh⟩

end Ai4iCore.ApiKey
