import Ai4iCore.Kafka.BandOnce

/-!
# The cached fast path loses no alert

Deciding on a cached `LedgerState` is safe for a row that does not reset because
a copy is never *ahead* of the table. Two facts carry this. Every value held
anywhere — L1, Redis, or a call in flight — was held before the step, is a JSON
copy of one that was, or is the committed row itself (`moved_held`): nothing is
cached before its commit. And the committed row only moves up, so a copy that
was behind stays behind (`Behind.mono`).

The abstract evaluator (`directStep`) has no cache: it decides on the row and
claims, in one step. `ended` lists the evaluations that end along a run of the
cached system, where each of them ends: at its SKIP, or at its claim. Running
the abstract evaluator on exactly these fires exactly the same alerts.
-/

namespace Ai4iCore.Kafka

open StepSystem

universe u

variable {ν : Type u}

/-! ## Where held values come from -/

/-- The values a phase still has to send. -/
def Phase.entries : Phase ν → List (LedgerRef × LedgerState ν)
  | .fill entries => entries
  | .write entries => entries
  | _ => []

/-- Every ledger state a call holds. -/
def Batch.values (b : Batch ν) : List (LedgerRef × LedgerState ν) :=
  b.ledger ++ b.changed ++ b.refreshed ++ b.phase.entries

/-- `st` is held for `r` in an L1, in Redis or by a call in flight. -/
inductive Held (s : Sys ν) (r : LedgerRef) (st : LedgerState ν) : Prop where
  | l1 (pod : Nat) (h : s.l1 pod r = some st)
  | redis (h : s.redis r = some st)
  | batch (i : Nat) (b : Batch ν) (hb : s.batch i = some b) (h : (r, st) ∈ b.values)

/-- Where a value held after a step comes from. -/
def Sourced (s s' : Sys ν) (r : LedgerRef) (st : LedgerState ν) : Prop :=
  Held s r st ∨ (∃ st₀, Held s r st₀ ∧ st = st₀.throughJson) ∨ st = stateOf (s'.db r)

theorem mem_values {b : Batch ν} {e : LedgerRef × LedgerState ν} :
    e ∈ b.values ↔ e ∈ b.ledger ∨ e ∈ b.changed ∨ e ∈ b.refreshed ∨ e ∈ b.phase.entries := by
  unfold Batch.values
  rw [List.mem_append, List.mem_append, List.mem_append, or_assoc, or_assoc]

/-- Overwriting one key adds its value and keeps the rest. -/
theorem update_eq_some {cache : LedgerRef → Option (LedgerState ν)} {ref r : LedgerRef}
    {copy : Option (LedgerState ν)} {st : LedgerState ν}
    (h : Function.update cache ref copy r = some st) :
    (r = ref ∧ copy = some st) ∨ cache r = some st := by
  by_cases hr : r = ref
  · subst hr
    rw [Function.update_self] at h
    exact .inl ⟨rfl, h⟩
  · rw [Function.update_of_ne hr] at h
    exact .inr h

theorem putAll_eq_some {cache : LedgerRef → Option (LedgerState ν)}
    {entries : List (LedgerRef × LedgerState ν)} {r : LedgerRef} {st : LedgerState ν}
    (h : putAll cache entries r = some st) : (r, st) ∈ entries ∨ cache r = some st := by
  induction entries generalizing cache with
  | nil => exact .inr h
  | cons e entries ih =>
    obtain hmem | hold := ih h
    · exact .inl (List.mem_cons_of_mem _ hmem)
    · obtain ⟨rfl, he⟩ | hold := update_eq_some hold
      · obtain rfl := Option.some.inj he
        exact .inl List.mem_cons_self
      · exact .inr hold

theorem mem_hits {cache : LedgerRef → Option (LedgerState ν)} {refs : List LedgerRef}
    {r : LedgerRef} {st : LedgerState ν} (h : (r, st) ∈ hits cache refs) :
    cache r = some st := by
  obtain ⟨r₀, -, hr₀⟩ := List.mem_filterMap.mp h
  obtain ⟨st₀, hst₀, heq⟩ := Option.map_eq_some_iff.mp hr₀
  obtain ⟨rfl, rfl⟩ := Prod.mk.inj heq
  exact hst₀

/-- Filling an L1 adds the entries and keeps the rest. -/
theorem fillL1_eq_some {s : Sys ν} {pod pod' : Nat}
    {entries : List (LedgerRef × LedgerState ν)} {r : LedgerRef} {st : LedgerState ν}
    (h : (s.fillL1 pod entries).l1 pod' r = some st) :
    (r, st) ∈ entries ∨ s.l1 pod' r = some st := by
  by_cases hp : pod' = pod
  · subst hp
    refine putAll_eq_some ?_
    simpa [Sys.fillL1] using h
  · exact .inr (by simpa [Sys.fillL1, Function.update_of_ne hp] using h)

/-- Case analysis of a held value after a step that replaces one call. -/
theorem held_cases {s s' : Sys ν} {r : LedgerRef} {st : LedgerState ν} {i : Nat}
    {b : Batch ν} {Q : Prop} (h : Held s' r st)
    (hbatch : s'.batch = Function.update s.batch i (some b))
    (hl1 : ∀ pod, s'.l1 pod r = some st → Q) (hredis : s'.redis r = some st → Q)
    (hb : (r, st) ∈ b.values → Q) (hold : Held s r st → Q) : Q := by
  cases h with
  | l1 pod h => exact hl1 pod h
  | redis h => exact hredis h
  | batch j c hc h =>
    rw [hbatch] at hc
    by_cases hj : j = i
    · subst hj
      rw [Function.update_self] at hc
      obtain rfl := Option.some.inj hc
      exact hb h
    · rw [Function.update_of_ne hj] at hc
      exact hold (.batch j c hc h)

section

variable {s : Sys ν} {i : Nat} {b : Batch ν} {r ref : LedgerRef} {st : LedgerState ν}

/-- A call that only moves to a phase with nothing to send holds what it held. -/
theorem held_of_rephase {s' : Sys ν} {phase : Phase ν} (hb : s.batch i = some b)
    (h : Held (s'.setBatch i { b with phase := phase }) r st) (hphase : phase.entries = [])
    (hl1 : s'.l1 = s.l1) (hredis : s'.redis = s.redis) (hbatch : s'.batch = s.batch) :
    Held s r st := by
  refine held_cases (s := s) h (by rw [← hbatch]; rfl)
    (fun pod hp => .l1 pod (by rw [← hl1]; exact hp))
    (fun hr => .redis (by rw [← hredis]; exact hr)) (fun hv => ?_) id
  refine .batch i b hb (mem_values.mpr ?_)
  obtain hv | hv | hv | hv := mem_values.mp hv
  · exact .inl hv
  · exact .inr (.inl hv)
  · exact .inr (.inr (.inl hv))
  · rw [hphase] at hv
    exact (nomatch hv)

/-- A call that has committed `row` holds it in `changed`, and else what it held. -/
theorem sourced_of_commit {s' : Sys ν} {row : Row ν} {fired : List (LedgerRef × ν)}
    {phase : Phase ν} (hb : s.batch i = some b)
    (h : Held (s'.setBatch i { b with changed := b.changed.set ref (stateOf (some row)),
                                      fired := fired, phase := phase }) r st)
    (hphase : phase.entries = []) (hl1 : s'.l1 = s.l1) (hredis : s'.redis = s.redis)
    (hbatch : s'.batch = s.batch) :
    Held s r st ∨ (r = ref ∧ st = stateOf (some row)) := by
  refine held_cases (s := s) h (by rw [← hbatch]; rfl)
    (fun pod hp => .inl (.l1 pod (by rw [← hl1]; exact hp)))
    (fun hr => .inl (.redis (by rw [← hredis]; exact hr))) (fun hv => ?_) .inl
  obtain hv | hv | hv | hv := mem_values.mp hv
  · exact .inl (.batch i b hb (mem_values.mpr (.inl hv)))
  · obtain hv | hv := Dict.mem_set hv
    · exact .inr (Prod.mk.inj hv)
    · exact .inl (.batch i b hb (mem_values.mpr (.inr (.inl hv))))
  · exact .inl (.batch i b hb (mem_values.mpr (.inr (.inr (.inl hv)))))
  · rw [hphase] at hv
    exact (nomatch hv)

/-- Sending a value to Redis copies it there as JSON. -/
theorem held_of_send {s' : Sys ν} {st₀ : LedgerState ν} {rest : List (LedgerRef × LedgerState ν)}
    {phase : Phase ν} (hb : s.batch i = some b) (hsend : (ref, st₀) :: rest = b.phase.entries)
    (h : Held (s'.setBatch i { b with phase := phase }) r st)
    (hphase : ∀ e ∈ phase.entries, e ∈ rest) (hl1 : s'.l1 = s.l1)
    (hredis : s'.redis = s.redis ∨
      s'.redis = Function.update s.redis ref (some st₀.throughJson))
    (hbatch : s'.batch = s.batch) :
    Held s r st ∨ ∃ st₀, Held s r st₀ ∧ st = st₀.throughJson := by
  have hentry : ∀ e ∈ b.phase.entries, e ∈ b.values :=
    fun e he => mem_values.mpr (.inr (.inr (.inr he)))
  refine held_cases (s := s) h (by rw [← hbatch]; rfl)
    (fun pod hp => .inl (.l1 pod (by rw [← hl1]; exact hp))) (fun hr => ?_) (fun hv => ?_) .inl
  · obtain hredis | hredis := hredis
    · exact .inl (.redis (hredis ▸ hr))
    · obtain ⟨rfl, hcopy⟩ | hr := update_eq_some (hredis ▸ hr)
      · refine .inr ⟨st₀, .batch i b hb (hentry _ ?_), (Option.some.inj hcopy).symm⟩
        rw [← hsend]
        exact List.mem_cons_self
      · exact .inl (.redis hr)
  · left
    obtain hv | hv | hv | hv := mem_values.mp hv
    · exact .batch i b hb (mem_values.mpr (.inl hv))
    · exact .batch i b hb (mem_values.mpr (.inr (.inl hv)))
    · exact .batch i b hb (mem_values.mpr (.inr (.inr (.inl hv))))
    · refine .batch i b hb (hentry _ ?_)
      rw [← hsend]
      exact List.mem_cons_of_mem _ (hphase _ hv)

theorem fillStep_held {st₀ : LedgerState ν} {rest : List (LedgerRef × LedgerState ν)} {ok : Bool}
    (hb : s.batch i = some b) (hphase : b.phase = .fill ((ref, st₀) :: rest))
    (h : Held (fillStep s i b ref st₀ rest ok) r st) :
    Sourced s (fillStep s i b ref st₀ rest ok) r st := by
  unfold fillStep at h
  have hrest : ∀ e ∈ (if rest.isEmpty then .decide else .fill rest : Phase ν).entries,
      e ∈ rest := by
    intro e he
    split at he
    · exact (nomatch he)
    · exact he
  have hsource := held_of_send hb (by rw [hphase]; rfl) h hrest
    (by split <;> rfl) (by split <;> simp) (by split <;> rfl)
  exact hsource.elim .inl fun h => .inr (.inl h)

variable [LinearOrder ν] {cooldownS : Int}

/-- A FIRE caches at most the row it has just committed. -/
theorem fireStep_held {band : ν} {rest : List (Pending ν)} {outcome : TxOutcome}
    (hb : s.batch i = some b) (h : Held (fireStep s i b ref band rest outcome) r st) :
    Sourced s (fireStep s i b ref band rest outcome) r st := by
  unfold fireStep at h ⊢
  cases outcome with
  | rolledBack => exact .inl (held_of_rephase hb h rfl rfl rfl rfl)
  | committedUnseen =>
    cases hc : claimBand (s.db ref) band s.clock with
    | none =>
      simp only [hc] at h
      exact .inl (held_of_rephase hb h rfl rfl rfl rfl)
    | some row =>
      simp only [hc] at h
      exact .inl (held_of_rephase hb h rfl rfl rfl rfl)
  | committed =>
    cases hc : claimBand (s.db ref) band s.clock with
    | none =>
      simp only [hc] at h
      exact .inl (held_of_rephase hb h rfl rfl rfl rfl)
    | some row =>
      simp only [hc] at h
      obtain h | ⟨rfl, rfl⟩ := sourced_of_commit hb h rfl rfl rfl rfl
      · exact .inl h
      · exact .inr (.inr (by simp [Sys.setBatch]))

omit [LinearOrder ν] in
/-- A RESET caches at most the row it has just committed. -/
theorem resetStep_held {rest : List (Pending ν)} {outcome : TxOutcome}
    (hb : s.batch i = some b) (h : Held (resetStep cooldownS s i b ref rest outcome) r st) :
    Sourced s (resetStep cooldownS s i b ref rest outcome) r st := by
  unfold resetStep at h ⊢
  cases outcome with
  | rolledBack => exact .inl (held_of_rephase hb h rfl rfl rfl rfl)
  | committedUnseen =>
    cases hc : resetBand (s.db ref) cooldownS s.clock with
    | none =>
      simp only [hc] at h
      exact .inl (held_of_rephase hb h rfl rfl rfl rfl)
    | some row =>
      simp only [hc] at h
      exact .inl (held_of_rephase hb h rfl rfl rfl rfl)
  | committed =>
    cases hc : resetBand (s.db ref) cooldownS s.clock with
    | none =>
      simp only [hc] at h
      exact .inl (held_of_rephase hb h rfl rfl rfl rfl)
    | some row =>
      simp only [hc] at h
      obtain h | ⟨rfl, rfl⟩ := sourced_of_commit hb h rfl rfl rfl rfl
      · exact .inl h
      · exact .inr (.inr (by simp [Sys.setBatch]))

theorem claimStep_held {p : Pending ν} {rest : List (Pending ν)} {outcome : TxOutcome}
    (hb : s.batch i = some b) (h : Held (claimStep cooldownS s i b p rest outcome) r st) :
    Sourced s (claimStep cooldownS s i b p rest outcome) r st := by
  unfold claimStep at h ⊢
  split at h
  · rename_i hfire
    rw [if_pos hfire]
    cases hband : p.band with
    | none =>
      rw [hband] at h
      exact .inl (held_of_rephase hb h rfl rfl rfl rfl)
    | some band =>
      rw [hband] at h
      exact fireStep_held hb h
  · rename_i hfire
    rw [if_neg hfire]
    exact resetStep_held hb h

omit [LinearOrder ν] in
theorem setRedisStep_held {st₀ : LedgerState ν} {rest : List (LedgerRef × LedgerState ν)}
    {ok : Bool} (hb : s.batch i = some b) (hphase : b.phase = .write ((ref, st₀) :: rest))
    (h : Held (setRedisStep s i b ref st₀ rest ok) r st) :
    Sourced s (setRedisStep s i b ref st₀ rest ok) r st := by
  unfold setRedisStep at h
  have hrest : ∀ e ∈ (if rest.isEmpty then .done else .write rest : Phase ν).entries,
      e ∈ rest := by
    intro e he
    split at he
    · exact (nomatch he)
    · exact he
  have hsource := held_of_send hb (by rw [hphase]; rfl) h hrest
    (by split <;> rfl) (by split <;> simp) (by split <;> rfl)
  exact hsource.elim .inl fun h => .inr (.inl h)

omit [LinearOrder ν] in
/-- What a call finds in Redis it takes over, and fills its L1 with. -/
theorem redisGetStep_held {misses : List LedgerRef} {ok : Bool} (hb : s.batch i = some b)
    (h : Held (redisGetStep s i b misses ok) r st) :
    Sourced s (redisGetStep s i b misses ok) r st := by
  unfold redisGetStep at h ⊢
  split at h
  · rename_i hok
    rw [if_pos hok]
    refine held_cases (s := s) h rfl (fun pod hp => ?_)
      (fun hr => .inl (.redis hr)) (fun hv => ?_) .inl
    · obtain hp | hp := fillL1_eq_some hp
      · exact .inl (.redis (mem_hits hp))
      · exact .inl (.l1 pod hp)
    · obtain hv | hv | hv | hv := mem_values.mp hv
      · obtain hv | hv := Dict.mem_setAll hv
        · exact .inl (.redis (mem_hits hv))
        · exact .inl (.batch i b hb (mem_values.mpr (.inl hv)))
      · exact .inl (.batch i b hb (mem_values.mpr (.inr (.inl hv))))
      · exact .inl (.batch i b hb (mem_values.mpr (.inr (.inr (.inl hv)))))
      · dsimp only at hv
        split at hv <;> exact (nomatch hv)
  · rename_i hok
    rw [if_neg hok]
    exact .inl (held_of_rephase hb h rfl rfl rfl rfl)

omit [LinearOrder ν] in
/-- What a call loads from the table is the committed row. -/
theorem dbReadStep_held {misses : List LedgerRef} {redisOk ok : Bool} (hb : s.batch i = some b)
    (h : Held (dbReadStep s i b misses redisOk ok) r st) :
    Sourced s (dbReadStep s i b misses redisOk ok) r st := by
  unfold dbReadStep at h ⊢
  split at h
  · rename_i hok
    rw [if_pos hok]
    -- whatever was loaded is the committed row
    have hload : (r, st) ∈ misses.map (fun r => (r, stateOf (s.db r))) →
        st = stateOf (s.db r) := by
      intro hmem
      obtain ⟨r₀, -, heq⟩ := List.mem_map.mp hmem
      obtain ⟨rfl, rfl⟩ := Prod.mk.inj heq
      rfl
    refine held_cases (s := s) h rfl (fun pod hp => ?_)
      (fun hr => .inl (.redis hr)) (fun hv => ?_) .inl
    · obtain hp | hp := fillL1_eq_some hp
      · exact .inr (.inr (hload hp))
      · exact .inl (.l1 pod hp)
    · obtain hv | hv | hv | hv := mem_values.mp hv
      · obtain hv | hv := Dict.mem_setAll hv
        · exact .inr (.inr (hload hv))
        · exact .inl (.batch i b hb (mem_values.mpr (.inl hv)))
      · exact .inl (.batch i b hb (mem_values.mpr (.inr (.inl hv))))
      · exact .inl (.batch i b hb (mem_values.mpr (.inr (.inr (.inl hv)))))
      · dsimp only at hv
        split at hv
        · exact .inr (.inr (hload hv))
        · exact (nomatch hv)
  · rename_i hok
    rw [if_neg hok]
    exact .inl (held_of_rephase hb h rfl rfl rfl rfl)

omit [LinearOrder ν] in
/-- What a call writes to L1, and is going to send, is what it has. -/
theorem writeLedgerStep_held (hb : s.batch i = some b)
    (h : Held (writeLedgerStep s i b) r st) : Sourced s (writeLedgerStep s i b) r st := by
  have hown : (r, st) ∈ Dict.setAll [] (b.refreshed ++ b.changed) → Held s r st := by
    intro hmem
    refine .batch i b hb (mem_values.mpr ?_)
    obtain hmem | hmem := Dict.mem_setAll hmem
    · obtain hmem | hmem := List.mem_append.mp hmem
      · exact .inr (.inr (.inl hmem))
      · exact .inr (.inl hmem)
    · exact (nomatch hmem)
  refine held_cases (s := s) h rfl (fun pod hp => ?_)
    (fun hr => .inl (.redis hr)) (fun hv => ?_) .inl
  · obtain hp | hp := fillL1_eq_some hp
    · exact .inl (hown hp)
    · exact .inl (.l1 pod hp)
  · obtain hv | hv | hv | hv := mem_values.mp hv
    · exact .inl (.batch i b hb (mem_values.mpr (.inl hv)))
    · exact .inl (.batch i b hb (mem_values.mpr (.inr (.inl hv))))
    · exact .inl (.batch i b hb (mem_values.mpr (.inr (.inr (.inl hv)))))
    · dsimp only at hv
      split at hv
      · exact (nomatch hv)
      · exact .inl (hown hv)

/-- Nothing is cached before its commit: a held value was held before the step,
is a JSON copy of one that was, or is the committed row. -/
theorem moved_held {s' : Sys ν} {a : Action ν} (hm : Moved cooldownS s a s') (h : Held s' r st) :
    Sourced s s' r st := by
  cases hm with
  | start i pod items waits hb =>
    refine held_cases (s := s) h rfl (fun pod hp => .inl (.l1 pod hp))
      (fun hr => .inl (.redis hr)) (fun hv => ?_) .inl
    obtain hv | hv | hv | hv := mem_values.mp hv
    · exact .inl (.l1 pod (mem_hits hv))
    · exact (nomatch hv)
    · exact (nomatch hv)
    · unfold startBatch at hv
      dsimp only at hv
      split at hv <;> exact (nomatch hv)
  | redisGet i b misses ok hb hphase => exact redisGetStep_held hb h
  | dbRead i b misses redisOk ok hb hphase => exact dbReadStep_held hb h
  | fill i b ref st₀ rest ok hb hphase => exact fillStep_held hb hphase h
  | join i j b b' ref st₀ hb hb' hphase hst =>
    refine held_cases (s := s) h rfl (fun pod hp => .inl (.l1 pod hp))
      (fun hr => .inl (.redis hr)) (fun hv => ?_) .inl
    obtain hv | hv := mem_values.mp hv
    · obtain hv | hv := Dict.mem_set hv
      · obtain ⟨rfl, rfl⟩ := Prod.mk.inj hv
        exact .inl (.batch j b' hb' (mem_values.mpr (.inl (Dict.mem_of_get? hst))))
      · exact .inl (.batch i b hb (mem_values.mpr (.inl hv)))
    · exact .inl (.batch i b hb (mem_values.mpr (.inr hv)))
  | decide i b now gate hb hphase =>
    refine .inl (held_of_rephase hb h ?_ rfl rfl rfl)
    split <;> rfl
  | claim i b p rest outcome hb hphase => exact claimStep_held hb h
  | reread i b ref rest ok hb hphase =>
    refine held_cases (s := s) h rfl (fun pod hp => .inl (.l1 pod hp))
      (fun hr => .inl (.redis hr)) (fun hv => ?_) .inl
    obtain hv | hv | hv | hv := mem_values.mp hv
    · exact .inl (.batch i b hb (mem_values.mpr (.inl hv)))
    · exact .inl (.batch i b hb (mem_values.mpr (.inr (.inl hv))))
    · dsimp only at hv
      split at hv
      · obtain hv | hv := Dict.mem_set hv
        · obtain ⟨rfl, rfl⟩ := Prod.mk.inj hv
          exact .inr (.inr rfl)
        · exact .inl (.batch i b hb (mem_values.mpr (.inr (.inr (.inl hv)))))
      · exact .inl (.batch i b hb (mem_values.mpr (.inr (.inr (.inl hv)))))
    · exact (nomatch hv)
  | writeLedger i b hb hphase => exact writeLedgerStep_held hb h
  | setRedis i b ref st₀ rest ok hb hphase => exact setRedisStep_held hb hphase h
  | crash i =>
    cases h with
    | l1 pod h => exact .inl (.l1 pod h)
    | redis h => exact .inl (.redis h)
    | batch j c hc h =>
      by_cases hj : j = i
      · subst hj
        simp at hc
      · exact .inl (.batch j c (by simpa [Function.update_of_ne hj] using hc) h)
  | expireRedis ref =>
    cases h with
    | l1 pod h => exact .inl (.l1 pod h)
    | redis h =>
      obtain ⟨-, hcopy⟩ | h := update_eq_some h
      · cases hcopy
      · exact .inl (.redis h)
    | batch j c hc h => exact .inl (.batch j c hc h)
  | dropL1 pod ref =>
    cases h with
    | l1 pod' h =>
      by_cases hp : pod' = pod
      · subst hp
        obtain ⟨-, hcopy⟩ | h := update_eq_some
          (by simpa using h : Function.update (s.l1 pod') ref none r = some st)
        · cases hcopy
        · exact .inl (.l1 pod' h)
      · exact .inl (.l1 pod' (by simpa [Function.update_of_ne hp] using h))
    | redis h => exact .inl (.redis h)
    | batch j c hc h => exact .inl (.batch j c hc h)
  | tick d =>
    cases h with
    | l1 pod h => exact .inl (.l1 pod h)
    | redis h => exact .inl (.redis h)
    | batch j c hc h => exact .inl (.batch j c hc h)

end

/-! ## Copies are behind the table -/

variable [LinearOrder ν]

/-- A copy that is not ahead of the committed row. -/
structure Behind (st : LedgerState ν) (row : Option (Row ν)) : Prop where
  band : ∀ c, st.currentBand = some c →
    ∃ row₀ c₀, row = some row₀ ∧ row₀.currentBand = some c₀ ∧ c ≤ c₀
  opened : st.exists? = true → ∃ row₀, row = some row₀ ∧ row₀.triggered = true

/-- The table of a row that does not reset holds only open incidents, and every
copy of it is behind. -/
structure CacheInv (r : LedgerRef) (s : Sys ν) : Prop where
  triggered : ∀ row, s.db r = some row → row.triggered = true
  behind : ∀ st, Held s r st → Behind st (s.db r)

theorem Behind.throughJson {st : LedgerState ν} {row : Option (Row ν)} (h : Behind st row) :
    Behind st.throughJson row :=
  ⟨h.band, h.opened⟩

theorem behind_stateOf {row : Option (Row ν)}
    (h : ∀ row₀, row = some row₀ → row₀.triggered = true) : Behind (stateOf row) row := by
  cases row with
  | none => exact ⟨fun c hc => (nomatch hc), fun hex => (nomatch hex)⟩
  | some row => exact ⟨fun c hc => ⟨row, c, rfl, hc, le_rfl⟩, fun _ => ⟨row, rfl, h row rfl⟩⟩

/-- The committed row only moves up: what was behind it stays behind. -/
theorem Behind.mono {st : LedgerState ν} {row : Option (Row ν)} {row' : Row ν} {band : ν}
    {now : Int} (h : Behind st row) (hrow : ∀ row₀, row = some row₀ → row₀.triggered = true)
    (hclaim : claimBand row band now = some row') : Behind st (some row') := by
  obtain ⟨rfl, hlow⟩ := claimBand_eq_some hclaim
  refine ⟨fun c hc => ?_, fun _ => ⟨_, rfl, rfl⟩⟩
  obtain ⟨row₀, c₀, hrow₀, hc₀, hle⟩ := h.band c hc
  obtain ⟨c₁, hc₁, hlt⟩ := hlow row₀ hrow₀ (hrow row₀ hrow₀)
  obtain rfl := Option.some.inj (hc₀.symm.trans hc₁)
  exact ⟨_, band, rfl, rfl, (hle.trans_lt hlt).le⟩

theorem cacheInv_moved {cooldownS : Int} {r : LedgerRef} (hspec : r.spec.resets = false)
    {s s' : Sys ν} {a : Action ν} (hs : PendingSound s) (h : CacheInv r s)
    (hm : Moved cooldownS s a s') : CacheInv r s' := by
  have hrow : (∀ row, s'.db r = some row → row.triggered = true) ∧
      ∀ st, Behind st (s.db r) → Behind st (s'.db r) := by
    cases moved_effect hs hm with
    | quiet hdb =>
      rw [hdb]
      exact ⟨h.triggered, fun _ hb => hb⟩
    | claimed ref band row hclaim hdb =>
      rw [hdb]
      by_cases hr : r = ref
      · subst hr
        rw [Function.update_self]
        refine ⟨fun row' hrow' => ?_, fun st hb => hb.mono h.triggered hclaim⟩
        rw [← Option.some.inj hrow', (claimBand_eq_some hclaim).1]
      · rw [Function.update_of_ne hr]
        exact ⟨h.triggered, fun _ hb => hb⟩
    | rearmed ref row hreset hclaim hdb =>
      have hr : r ≠ ref := by
        rintro rfl
        rw [hspec] at hreset
        cases hreset
      rw [hdb, Function.update_of_ne hr]
      exact ⟨h.triggered, fun _ hb => hb⟩
  refine ⟨hrow.1, fun st hst => ?_⟩
  obtain hold | ⟨st₀, hold, rfl⟩ | rfl := moved_held hm hst
  · exact hrow.2 st (h.behind st hold)
  · exact (hrow.2 st₀ (h.behind st₀ hold)).throughJson
  · exact behind_stateOf hrow.1

/-- SKIP on a copy: the claim would be lost at this very moment. -/
theorem CacheInv.claim_lost {cooldownS now : Int} {r : LedgerRef} {s : Sys ν}
    (h : CacheInv r s) {st : LedgerState ν} (hst : Held s r st) {v : ν}
    (hskip : Ledger.decide r.spec (some v) st now cooldownS = .skip) :
    claimBand (s.db r) v s.clock = none := by
  obtain ⟨-, -, c, hc, hle⟩ := decide_eq_skip hskip
  obtain ⟨row, c₀, hrow, hc₀, hle₀⟩ := (h.behind st hst).band c hc
  rw [hrow]
  exact claimBand_eq_none (h.triggered row hrow) hc₀ (hle.trans hle₀)

/-! ## The evaluator without a cache -/

/-- One ledger row and the alerts fired on it. -/
structure Direct (ν : Type u) where
  row : Option (Row ν)
  fired : List ν

/-- One evaluation that reached a band: the database's clock, and how its
transaction ends if it makes one. -/
structure DirectAction (ν : Type u) where
  band : ν
  now : Int
  outcome : TxOutcome

/-- Decide on the row itself, and claim it on FIRE. -/
def directStep (spec : NotificationSpec) (cooldownS : Int) (t : Direct ν)
    (x : DirectAction ν) : Option (Direct ν) :=
  if Ledger.decide spec (some x.band) (stateOf t.row) x.now cooldownS = .fire then
    match x.outcome, claimBand t.row x.band x.now with
    | .committed, some row => some ⟨some row, t.fired ++ [x.band]⟩
    | .committedUnseen, some row => some { t with row := some row }
    | _, _ => some t
  else some t

/-- The evaluations of `r` that the decide step of a call ends with a SKIP. -/
def skippedOf (cooldownS now : Int) (gate : Evaluation ν → Bool) (b : Batch ν)
    (r : LedgerRef) (clock : Int) : List (DirectAction ν) :=
  b.items.filterMap fun e =>
    if gate e = true ∧ e.ref = r then
      (b.ledger.get? e.ref).bind fun st =>
        (bandFor e.observed e.bands).bind fun band =>
          if Ledger.decide r.spec (some band.value) st now cooldownS = .skip then
            some ⟨band.value, clock, .committed⟩
          else none
    else none

/-- The evaluations of `r` that end at a step: SKIPs, and claims. -/
def endedAt (cooldownS : Int) (r : LedgerRef) (s : Sys ν) : Action ν → List (DirectAction ν)
  | .decide i now gate =>
    match s.batch i with
    | some b => skippedOf cooldownS now gate b r s.clock
    | none => []
  | .claim i outcome =>
    match s.batch i with
    | some b =>
      match b.phase with
      | .claims (p :: _) =>
        if p.ref = r ∧ p.decision = .fire then
          match p.band with
          | some band => [⟨band.value, s.clock, outcome⟩]
          | none => []
        else []
      | _ => []
    | none => []
  | _ => []

/-- The evaluations of `r` that end along a run, in order. -/
def ended (cooldownS : Int) (r : LedgerRef) : Sys ν → List (Action ν) → List (DirectAction ν)
  | _, [] => []
  | s, a :: as =>
    endedAt cooldownS r s a ++
      match step cooldownS s a with
      | some s' => ended cooldownS r s' as
      | none => []

/-- What a call of the cached system shows of row `r`. -/
def directOf (r : LedgerRef) (s : Sys ν) : Direct ν := ⟨s.db r, wonBands r s.log⟩

/-- A claim that wins is one the evaluator on the row would make. -/
theorem decide_of_claim {spec : NotificationSpec} {cooldownS : Int} {row : Option (Row ν)}
    {band : ν} {now : Int} {row' : Row ν} (h : claimBand row band now = some row') :
    Ledger.decide spec (some band) (stateOf row) now cooldownS = .fire := by
  cases row with
  | none => rfl
  | some row =>
    by_cases htrig : row.triggered = true
    · obtain ⟨c, hc, hlt⟩ := (claimBand_eq_some h).2 row rfl htrig
      simp [Ledger.decide, stateOf, htrig, hc, hlt]
    · simp [Ledger.decide, stateOf, htrig]

/-- On a row where the claim would be lost the evaluator fires nothing. -/
theorem directStep_of_lost {spec : NotificationSpec} {cooldownS : Int} {t : Direct ν}
    {x : DirectAction ν} (h : claimBand t.row x.band x.now = none) :
    directStep spec cooldownS t x = some t := by
  unfold directStep
  split
  · rw [h]
    cases x.outcome <;> rfl
  · rfl

theorem directStep_of_won {spec : NotificationSpec} {cooldownS : Int} {t : Direct ν}
    {x : DirectAction ν} {row : Row ν} (h : claimBand t.row x.band x.now = some row) :
    directStep spec cooldownS t x = match x.outcome with
      | .committed => some ⟨some row, t.fired ++ [x.band]⟩
      | .committedUnseen => some { t with row := some row }
      | .rolledBack => some t := by
  unfold directStep
  rw [if_pos (decide_of_claim h), h]
  cases x.outcome <;> rfl

/-- A list of evaluations that would all lose fires nothing. -/
theorem run_lost {spec : NotificationSpec} {cooldownS : Int} {t : Direct ν}
    {xs : List (DirectAction ν)} (h : ∀ x ∈ xs, claimBand t.row x.band x.now = none) :
    Run (directStep spec cooldownS) t xs t := by
  induction xs with
  | nil => exact Run.nil t
  | cons x xs ih =>
    refine run_cons_iff.mpr ⟨t, directStep_of_lost (h x List.mem_cons_self), ?_⟩
    exact ih fun y hy => h y (List.mem_cons_of_mem _ hy)

/-- The SKIPs of a decide step are of evaluations whose claim would be lost. -/
theorem skippedOf_lost {cooldownS now : Int} {gate : Evaluation ν → Bool} {r : LedgerRef}
    {s : Sys ν} {i : Nat} {b : Batch ν} (h : CacheInv r s) (hb : s.batch i = some b) :
    ∀ x ∈ skippedOf cooldownS now gate b r s.clock,
      claimBand (directOf r s).row x.band x.now = none := by
  intro x hx
  obtain ⟨e, -, he⟩ := List.mem_filterMap.mp hx
  split at he
  · rename_i hgate
    obtain ⟨st, hst, he⟩ := Option.bind_eq_some_iff.mp he
    obtain ⟨band, -, he⟩ := Option.bind_eq_some_iff.mp he
    split at he
    · rename_i hskip
      obtain rfl := Option.some.inj he
      have hheld : Held s r st := by
        refine .batch i b hb (mem_values.mpr (.inl ?_))
        rw [← hgate.2]
        exact Dict.mem_of_get? hst
      exact h.claim_lost hheld hskip
    · cases he
  · cases he

/-- A FIRE of the cached system is the same evaluation made on the row. -/
theorem fireStep_direct {cooldownS : Int} {r : LedgerRef} {s : Sys ν} {i : Nat} {b : Batch ν}
    {band : ν} {rest : List (Pending ν)} {outcome : TxOutcome} :
    directStep r.spec cooldownS (directOf r s) ⟨band, s.clock, outcome⟩
      = some (directOf r (fireStep s i b r band rest outcome)) := by
  cases hc : claimBand (s.db r) band s.clock with
  | none =>
    rw [directStep_of_lost (t := directOf r s) (x := ⟨band, s.clock, outcome⟩) hc]
    cases outcome <;> simp [fireStep, hc, directOf, Sys.setBatch]
  | some row =>
    rw [directStep_of_won (t := directOf r s) (x := ⟨band, s.clock, outcome⟩) hc]
    cases outcome with
    | committed => simp [fireStep, hc, directOf, Sys.setBatch, wonBands_snoc_won]
    | rolledBack => simp [fireStep, directOf, Sys.setBatch]
    | committedUnseen => simp [fireStep, hc, directOf, Sys.setBatch]

/-- A FIRE on another row leaves this one alone. -/
theorem fireStep_other {r ref : LedgerRef} (hne : ref ≠ r) {s : Sys ν} {i : Nat} {b : Batch ν}
    {band : ν} {rest : List (Pending ν)} {outcome : TxOutcome} :
    directOf r (fireStep s i b ref band rest outcome) = directOf r s := by
  have hlog : ∀ t, wonBands r (s.log ++ [.won ref band t]) = wonBands r s.log :=
    fun t => wonBands_snoc_other (e := .won ref band t) hne s.log
  unfold fireStep
  cases outcome with
  | rolledBack => rfl
  | committedUnseen =>
    dsimp only
    split
    · simp [directOf, Sys.setBatch, Function.update_of_ne (Ne.symm hne)]
    · rfl
  | committed =>
    dsimp only
    split
    · simp [directOf, Sys.setBatch, Function.update_of_ne (Ne.symm hne), hlog]
    · rfl

omit [LinearOrder ν] in
/-- A RESET on another row leaves this one alone. -/
theorem resetStep_other {cooldownS : Int} {r ref : LedgerRef} (hne : ref ≠ r) {s : Sys ν}
    {i : Nat} {b : Batch ν} {rest : List (Pending ν)} {outcome : TxOutcome} :
    directOf r (resetStep cooldownS s i b ref rest outcome) = directOf r s := by
  have hlog : ∀ t, wonBands r (s.log ++ [.rearmed ref t]) = wonBands r s.log :=
    fun t => wonBands_snoc_other (e := .rearmed ref t) hne s.log
  unfold resetStep
  cases outcome with
  | rolledBack => rfl
  | committedUnseen =>
    dsimp only
    split
    · simp [directOf, Sys.setBatch, Function.update_of_ne (Ne.symm hne), hlog]
    · rfl
  | committed =>
    dsimp only
    split
    · simp [directOf, Sys.setBatch, Function.update_of_ne (Ne.symm hne), hlog]
    · rfl

/-- One step of the cached system is matched, on row `r`, by the evaluations that
end there, made on the row itself. -/
theorem direct_step {cooldownS : Int} {r : LedgerRef} (hspec : r.spec.resets = false)
    {s s' : Sys ν} {a : Action ν} (hs : PendingSound s) (h : CacheInv r s)
    (hm : Moved cooldownS s a s') :
    Run (directStep r.spec cooldownS) (directOf r s) (endedAt cooldownS r s a)
      (directOf r s') := by
  cases hm with
  | decide i b now gate hb hphase =>
    simp only [endedAt, hb]
    exact run_lost (skippedOf_lost h hb)
  | claim i b p rest outcome hb hphase =>
    simp only [endedAt, hb, hphase]
    unfold claimStep
    by_cases hfire : p.decision = .fire
    · rw [if_pos hfire]
      by_cases hr : p.ref = r
      · rw [if_pos ⟨hr, hfire⟩]
        cases p.band with
        | none => exact Run.nil _
        | some band =>
          rw [hr]
          exact run_cons_iff.mpr ⟨_, fireStep_direct, Run.nil _⟩
      · rw [if_neg (fun hc => hr hc.1)]
        cases p.band with
        | none => exact Run.nil _
        | some band => exact run_nil_iff.mpr (fireStep_other hr).symm
    · rw [if_neg hfire, if_neg (fun hc => hfire hc.2)]
      have hr : p.ref ≠ r := by
        rintro rfl
        have := hs i b p hb (by rw [hphase]; exact List.mem_cons_self) hfire
        rw [hspec] at this
        cases this
      exact run_nil_iff.mpr (resetStep_other hr).symm
  | redisGet i b misses ok => cases ok <;> exact Run.nil _
  | dbRead i b misses redisOk ok => cases ok <;> exact Run.nil _
  | fill i b ref st rest ok =>
    unfold fillStep
    dsimp only
    split <;> exact Run.nil _
  | setRedis i b ref st rest ok => cases ok <;> exact Run.nil _
  | start => exact Run.nil _
  | join => exact Run.nil _
  | reread => exact Run.nil _
  | writeLedger => exact Run.nil _
  | crash => exact Run.nil _
  | expireRedis => exact Run.nil _
  | dropL1 => exact Run.nil _
  | tick => exact Run.nil _

/-- The cached system refines the evaluator without a cache, on every row that
does not reset. -/
theorem direct_run {cooldownS : Int} {r : LedgerRef} (hspec : r.spec.resets = false)
    {s s' : Sys ν} {as : List (Action ν)} (hs : PendingSound s) (h : CacheInv r s)
    (hrun : Run (step cooldownS) s as s') :
    Run (directStep r.spec cooldownS) (directOf r s) (ended cooldownS r s as)
      (directOf r s') := by
  induction as generalizing s with
  | nil =>
    rw [run_nil_iff] at hrun
    exact hrun ▸ Run.nil _
  | cons a as ih =>
    obtain ⟨m, hstep, hrest⟩ := run_cons_iff.mp hrun
    have hm := step_moved hstep
    simp only [ended, hstep]
    exact run_append_iff.mpr ⟨_, direct_step hspec hs h hm,
      ih (pendingSound_moved hs hm) (cacheInv_moved hspec hs h hm) hrest⟩

/-- Nothing is cached and no call is in flight; every stored row of a type that
does not reset is an open incident, as claims write it. -/
structure Start (s : Sys ν) : Prop where
  idle : ∀ i, s.batch i = none
  noL1 : ∀ pod r, s.l1 pod r = none
  noRedis : ∀ r, s.redis r = none
  opened : ∀ r row, r.spec.resets = false → s.db r = some row → row.triggered = true

theorem start_inv {s : Sys ν} (h : Start s) :
    PendingSound s ∧ ∀ r, r.spec.resets = false → CacheInv r s := by
  refine ⟨fun i b p hb => ?_, fun r hspec => ⟨fun row => h.opened r row hspec, fun st hst => ?_⟩⟩
  · rw [h.idle i] at hb
    cases hb
  · cases hst with
    | l1 pod hl1 => exact absurd ((h.noL1 pod r).symm.trans hl1) (fun h => (nomatch h))
    | redis hr => exact absurd ((h.noRedis r).symm.trans hr) (fun h => (nomatch h))
    | batch i b hb => exact absurd ((h.idle i).symm.trans hb) (fun h => (nomatch h))

/-- **The cached fast path loses no alert.** For a row that does not reset, in
every reachable state: a band held in an L1 or in Redis is at most the committed
one; when `decide` on any held copy says SKIP, the claim would be lost at that
moment; and the alerts fired are those of the evaluator that decides on the
database, run on the evaluations that ended so far. -/
theorem cached_path_loses_no_alert (cooldownS : Int) {s s' : Sys ν} {as : List (Action ν)}
    (hstart : Start s) (hrun : Run (step cooldownS) s as s') (r : LedgerRef)
    (hspec : r.spec.resets = false) :
    (∀ st, (∃ pod, s'.l1 pod r = some st) ∨ s'.redis r = some st →
      ∀ c, st.currentBand = some c →
        ∃ row c₀, s'.db r = some row ∧ row.currentBand = some c₀ ∧ c ≤ c₀) ∧
    (∀ st, Held s' r st → ∀ v now,
      Ledger.decide r.spec (some v) st now cooldownS = .skip →
        claimBand (s'.db r) v s'.clock = none) ∧
    Run (directStep r.spec cooldownS) (directOf r s) (ended cooldownS r s as)
      (directOf r s') := by
  obtain ⟨hs, hc⟩ := start_inv hstart
  obtain ⟨-, h⟩ := hrun.invariant (P := fun s => PendingSound s ∧ CacheInv r s)
    (fun s a s' hi hstep => ⟨pendingSound_moved hi.1 (step_moved hstep),
      cacheInv_moved hspec hi.1 hi.2 (step_moved hstep)⟩) ⟨hs, hc r hspec⟩
  refine ⟨fun st hst => ?_, fun st hst v now => h.claim_lost hst,
    direct_run hspec hs (hc r hspec) hrun⟩
  obtain ⟨pod, hl1⟩ | hredis := hst
  · exact (h.behind st (.l1 pod hl1)).band
  · exact (h.behind st (.redis hredis)).band

/-- A second call on the same pod is answered by L1 and skips; the evaluator
without a cache, run on both evaluations, fires 80 once as well. -/
theorem cached_path_loses_no_alert_quota :
    Start (Sys.empty : Sys ℕ) ∧
    ∃ s', Run (step 3600) (Sys.empty : Sys ℕ) (quotaCall 0 85 ++
        [.start 1 0 [quotaEvaluation 85] [], .decide 1 0 fun _ => true]) s' ∧
      directOf quotaRow s' = ⟨some ⟨some 80, true, 0⟩, [80]⟩ ∧
      Run (directStep quotaRow.spec 3600) ⟨none, []⟩
        [⟨80, 0, .committed⟩, ⟨80, 0, .committed⟩] (directOf quotaRow s') := by
  have hstart : Start (Sys.empty : Sys ℕ) :=
    ⟨fun _ => rfl, fun _ _ => rfl, fun _ => rfl, fun _ _ _ h => (nomatch h)⟩
  obtain ⟨s', hrun, hdirect⟩ := exists_run_of_map (step 3600) (Sys.empty : Sys ℕ)
    (quotaCall 0 85 ++ [.start 1 0 [quotaEvaluation 85] [], .decide 1 0 fun _ => true])
    (directOf quotaRow) (x := ⟨some ⟨some 80, true, 0⟩, [80]⟩) rfl
  exact ⟨hstart, s', hrun, hdirect,
    (cached_path_loses_no_alert 3600 hstart hrun quotaRow rfl).2.2⟩

end Ai4iCore.Kafka
