import Ai4iCore.Kafka.Pipeline

/-!
# Threshold alerts fire once per band

Callers decide from copies of the ledger row that may be stale in any way; what
they may *do* is fixed by the two guarded statements. `LedgerEffect` says what a
step can do to the table and to the history of wins, and `BandHistory` links
the two: the bands won since the last reset lie at or below the stored band of
an open incident, and no win is later than the stored `triggered_at`. Both
facts survive every step, whatever the caches hold, so the theorem is stated
for a system whose L1 and Redis copies may change to anything at any moment
(`stepStale`).
-/

namespace Ai4iCore.Kafka

open StepSystem

universe u

variable {ν : Type u}

/-! ## The history of one row -/

/-- The bands won on `r`, oldest first. -/
def wonBands (r : LedgerRef) (log : List (LedgerEvent ν)) : List ν :=
  log.filterMap fun
    | .won ref band _ => if ref = r then some band else none
    | .rearmed _ _ => none

/-- No reset of `r` among these events. -/
def NoRearm (r : LedgerRef) (log : List (LedgerEvent ν)) : Prop :=
  ∀ t, LedgerEvent.rearmed r t ∉ log

theorem wonBands_append (r : LedgerRef) (l₁ l₂ : List (LedgerEvent ν)) :
    wonBands r (l₁ ++ l₂) = wonBands r l₁ ++ wonBands r l₂ :=
  List.filterMap_append ..

theorem wonBands_snoc_won (r : LedgerRef) (l : List (LedgerEvent ν)) (band : ν) (t : Int) :
    wonBands r (l ++ [.won r band t]) = wonBands r l ++ [band] := by
  rw [wonBands_append]
  simp [wonBands]

/-- The row an event is about. -/
def LedgerEvent.ref : LedgerEvent ν → LedgerRef
  | .won ref _ _ => ref
  | .rearmed ref _ => ref

theorem wonBands_snoc_other {r : LedgerRef} {e : LedgerEvent ν} (h : e.ref ≠ r)
    (l : List (LedgerEvent ν)) : wonBands r (l ++ [e]) = wonBands r l := by
  rw [wonBands_append]
  cases e with
  | won ref band t => simpa [wonBands, LedgerEvent.ref] using h
  | rearmed ref t => simp [wonBands]

/-! ## Stale copies -/

/-- A step of the code, or a cache copy replaced by an arbitrary one. -/
inductive StaleAction (ν : Type u) where
  | code (a : Action ν)
  | staleRedis (ref : LedgerRef) (copy : Option (LedgerState ν))
  | staleL1 (pod : Nat) (ref : LedgerRef) (copy : Option (LedgerState ν))

variable [LinearOrder ν]

def stepStale (cooldownS : Int) (s : Sys ν) : StaleAction ν → Option (Sys ν)
  | .code a => step cooldownS s a
  | .staleRedis ref copy => some { s with redis := Function.update s.redis ref copy }
  | .staleL1 pod ref copy =>
    some { s with l1 := Function.update s.l1 pod (Function.update (s.l1 pod) ref copy) }

/-! ## What a step does to the table and the history -/

/-- The claims and resets a call still has to make. -/
def Phase.pending : Phase ν → List (Pending ν)
  | .claims todo => todo
  | .reread _ todo => todo
  | _ => []

/-- Every pending evaluation that is not a FIRE is on a row that resets. -/
def PendingSound (s : Sys ν) : Prop :=
  ∀ i b p, s.batch i = some b → p ∈ b.phase.pending →
    p.decision ≠ .fire → p.ref.spec.resets = true

/-- What one step does to the ledger table and to the history. -/
inductive LedgerEffect (cooldownS : Int) (s s' : Sys ν) : Prop where
  | quiet (hdb : s'.db = s.db) (hlog : s'.log = s.log) (hclock : s.clock ≤ s'.clock)
  | claimed (ref : LedgerRef) (band : ν) (row : Row ν)
      (hclaim : claimBand (s.db ref) band s.clock = some row)
      (hdb : s'.db = Function.update s.db ref (some row))
      (hlog : s'.log = s.log ∨ s'.log = s.log ++ [.won ref band s.clock])
      (hclock : s'.clock = s.clock)
  | rearmed (ref : LedgerRef) (row : Row ν) (hspec : ref.spec.resets = true)
      (hreset : resetBand (s.db ref) cooldownS s.clock = some row)
      (hdb : s'.db = Function.update s.db ref (some row))
      (hlog : s'.log = s.log ++ [.rearmed ref s.clock])
      (hclock : s'.clock = s.clock)

theorem fireStep_effect (cooldownS : Int) (s : Sys ν) (i : Nat) (b : Batch ν)
    (ref : LedgerRef) (band : ν) (rest : List (Pending ν)) (outcome : TxOutcome) :
    LedgerEffect cooldownS s (fireStep s i b ref band rest outcome) := by
  cases outcome with
  | rolledBack => exact .quiet rfl rfl le_rfl
  | committedUnseen =>
    unfold fireStep
    cases hc : claimBand (s.db ref) band s.clock with
    | none => exact .quiet rfl rfl le_rfl
    | some row => exact .claimed ref band row hc rfl (.inl rfl) rfl
  | committed =>
    unfold fireStep
    cases hc : claimBand (s.db ref) band s.clock with
    | none => exact .quiet rfl rfl le_rfl
    | some row => exact .claimed ref band row hc rfl (.inr rfl) rfl

theorem resetStep_effect (cooldownS : Int) (s : Sys ν) (i : Nat) (b : Batch ν)
    (ref : LedgerRef) (hspec : ref.spec.resets = true) (rest : List (Pending ν))
    (outcome : TxOutcome) :
    LedgerEffect cooldownS s (resetStep cooldownS s i b ref rest outcome) := by
  cases outcome with
  | rolledBack => exact .quiet rfl rfl le_rfl
  | committedUnseen =>
    unfold resetStep
    cases hc : resetBand (s.db ref) cooldownS s.clock with
    | none => exact .quiet rfl rfl le_rfl
    | some row => exact .rearmed ref row hspec hc rfl rfl rfl
  | committed =>
    unfold resetStep
    cases hc : resetBand (s.db ref) cooldownS s.clock with
    | none => exact .quiet rfl rfl le_rfl
    | some row => exact .rearmed ref row hspec hc rfl rfl rfl

theorem claimStep_effect {cooldownS : Int} {s : Sys ν} {i : Nat} {b : Batch ν}
    {p : Pending ν} (hp : p.decision ≠ .fire → p.ref.spec.resets = true)
    (rest : List (Pending ν)) (outcome : TxOutcome) :
    LedgerEffect cooldownS s (claimStep cooldownS s i b p rest outcome) := by
  unfold claimStep
  by_cases hfire : p.decision = .fire
  · rw [if_pos hfire]
    cases p.band with
    | none => exact .quiet rfl rfl le_rfl
    | some band => exact fireStep_effect ..
  · rw [if_neg hfire]
    exact resetStep_effect _ _ _ _ _ (hp hfire) _ _

theorem moved_effect {cooldownS : Int} {s s' : Sys ν} {a : Action ν} (hs : PendingSound s)
    (h : Moved cooldownS s a s') : LedgerEffect cooldownS s s' := by
  cases h with
  | start => exact .quiet rfl rfl le_rfl
  | redisGet i b misses ok =>
    cases ok <;> exact .quiet rfl rfl le_rfl
  | dbRead i b misses redisOk ok =>
    cases ok <;> exact .quiet rfl rfl le_rfl
  | fill i b ref st rest ok =>
    unfold fillStep
    dsimp only
    split <;> exact .quiet rfl rfl le_rfl
  | join => exact .quiet rfl rfl le_rfl
  | decide => exact .quiet rfl rfl le_rfl
  | claim i b p rest outcome hb hphase =>
    refine claimStep_effect (fun hne => hs i b p hb ?_ hne) rest outcome
    rw [hphase]
    exact List.mem_cons_self
  | reread => exact .quiet rfl rfl le_rfl
  | writeLedger => exact .quiet rfl rfl le_rfl
  | setRedis i b ref st rest ok =>
    cases ok <;> exact .quiet rfl rfl le_rfl
  | crash => exact .quiet rfl rfl le_rfl
  | expireRedis => exact .quiet rfl rfl le_rfl
  | dropL1 => exact .quiet rfl rfl le_rfl
  | tick d => exact .quiet rfl rfl (by show s.clock ≤ s.clock + d; omega)

/-! ## Only rows that reset are reset -/

omit [LinearOrder ν] in
theorem pendingSound_update {s s' : Sys ν} {i : Nat} {b : Batch ν} (hs : PendingSound s)
    (hbatch : s'.batch = Function.update s.batch i (some b))
    (hb : ∀ p ∈ b.phase.pending, p.decision ≠ .fire → p.ref.spec.resets = true) :
    PendingSound s' := by
  intro j c p hc hp hne
  rw [hbatch] at hc
  by_cases hj : j = i
  · subst hj
    rw [Function.update_self] at hc
    obtain rfl := Option.some.inj hc
    exact hb p hp hne
  · rw [Function.update_of_ne hj] at hc
    exact hs j c p hc hp hne

theorem activeOf_sound {cooldownS now : Int} {gate : Evaluation ν → Bool} {b : Batch ν}
    {p : Pending ν} (hp : p ∈ activeOf cooldownS now gate b) (hne : p.decision ≠ .fire) :
    p.ref.spec.resets = true := by
  obtain ⟨e, -, he⟩ := List.mem_filterMap.mp hp
  split at he
  · obtain ⟨st, -, hst⟩ := Option.bind_eq_some_iff.mp he
    dsimp only at hst
    split at hst
    · rename_i hd
      obtain rfl := Option.some.inj hst
      have hreset := hd.resolve_left hne
      by_contra hspec
      exact decide_ne_reset (by simpa using hspec) _ _ _ _ hreset
    · cases hst
  · cases he

theorem claimStep_batch (cooldownS : Int) (s : Sys ν) (i : Nat) (b : Batch ν)
    (p : Pending ν) (rest : List (Pending ν)) (outcome : TxOutcome) :
    ∃ b', (claimStep cooldownS s i b p rest outcome).batch
        = Function.update s.batch i (some b') ∧ b'.phase.pending = rest := by
  unfold claimStep
  split
  · split
    · unfold fireStep
      cases outcome with
      | rolledBack => exact ⟨_, rfl, rfl⟩
      | committedUnseen => dsimp only; split <;> exact ⟨_, rfl, rfl⟩
      | committed => dsimp only; split <;> exact ⟨_, rfl, rfl⟩
    · exact ⟨_, rfl, rfl⟩
  · unfold resetStep
    cases outcome with
    | rolledBack => exact ⟨_, rfl, rfl⟩
    | committedUnseen => dsimp only; split <;> exact ⟨_, rfl, rfl⟩
    | committed => dsimp only; split <;> exact ⟨_, rfl, rfl⟩

theorem pendingSound_moved {cooldownS : Int} {s s' : Sys ν} {a : Action ν} (hs : PendingSound s)
    (h : Moved cooldownS s a s') : PendingSound s' := by
  -- all but the decide and claim phases leave a phase with nothing pending
  cases h with
  | start i pod items waits hb =>
    refine pendingSound_update hs rfl fun p hp => ?_
    unfold startBatch at hp
    dsimp only at hp
    split at hp <;> exact (nomatch hp)
  | redisGet i b misses ok hb hphase =>
    unfold redisGetStep
    split
    · refine pendingSound_update hs rfl fun p hp => ?_
      dsimp only at hp
      split at hp <;> exact (nomatch hp)
    · exact pendingSound_update hs rfl fun p hp => (nomatch hp)
  | dbRead i b misses redisOk ok hb hphase =>
    unfold dbReadStep
    split
    · refine pendingSound_update hs rfl fun p hp => ?_
      dsimp only at hp
      split at hp <;> exact (nomatch hp)
    · exact pendingSound_update hs rfl fun p hp => (nomatch hp)
  | fill i b ref st rest ok hb hphase =>
    have hbatch : (fillStep s i b ref st rest ok).batch = Function.update s.batch i
        (some { b with phase := if rest.isEmpty then .decide else .fill rest }) := by
      unfold fillStep
      dsimp only
      split <;> rfl
    refine pendingSound_update hs hbatch fun p hp => ?_
    dsimp only at hp
    split at hp <;> exact (nomatch hp)
  | join i j b b' ref st hb hb' hphase hst =>
    refine pendingSound_update hs rfl fun p hp => ?_
    rw [hphase] at hp
    exact (nomatch hp)
  | decide i b now gate hb hphase =>
    refine pendingSound_update hs rfl fun p hp hne => ?_
    dsimp only at hp
    split at hp
    · exact (nomatch hp)
    · exact activeOf_sound hp hne
  | claim i b p rest outcome hb hphase =>
    obtain ⟨b', hbatch, hpending⟩ := claimStep_batch cooldownS s i b p rest outcome
    refine pendingSound_update hs hbatch fun q hq hne => hs i b q hb ?_ hne
    rw [hphase]
    exact List.mem_cons_of_mem _ (hpending ▸ hq)
  | reread i b ref rest ok hb hphase =>
    refine pendingSound_update hs rfl fun p hp hne => hs i b p hb ?_ hne
    rw [hphase]
    exact hp
  | writeLedger i b hb hphase =>
    refine pendingSound_update hs rfl fun p hp => ?_
    dsimp only at hp
    split at hp <;> exact (nomatch hp)
  | setRedis i b ref st rest ok hb hphase =>
    have hbatch : (setRedisStep s i b ref st rest ok).batch = Function.update s.batch i
        (some { b with phase := if rest.isEmpty then .done else .write rest }) := by
      unfold setRedisStep
      dsimp only
      split <;> rfl
    refine pendingSound_update hs hbatch fun p hp => ?_
    dsimp only at hp
    split at hp <;> exact (nomatch hp)
  | crash i =>
    intro j c p hc hp hne
    by_cases hj : j = i
    · subst hj
      simp at hc
    · exact hs j c p (by simpa [Function.update_of_ne hj] using hc) hp hne
  | expireRedis ref => exact hs
  | dropL1 pod ref => exact hs
  | tick d => exact hs

/-! ## The invariant of a row's history -/

/-- What links the history of `r` to its stored row:
1. the bands won since any point after the last reset are at or below the band
   of the open incident the row stores;
2. no win is later than `now()` or than the stored `triggered_at`;
3. between resets the won bands increase strictly;
4. every reset came at least the cooldown after every win before it;
5. a row that does not reset was never reset. -/
structure BandHistory (cooldownS : Int) (r : LedgerRef) (s : Sys ν) : Prop where
  stored : ∀ pre mid, s.log = pre ++ mid → NoRearm r mid → ∀ band ∈ wonBands r mid,
    ∃ row c, s.db r = some row ∧ row.triggered = true ∧ row.currentBand = some c ∧ band ≤ c
  wonAt : ∀ band t, LedgerEvent.won r band t ∈ s.log →
    t ≤ s.clock ∧ ∃ row, s.db r = some row ∧ t ≤ row.triggeredAt
  increasing : ∀ pre mid post, s.log = pre ++ mid ++ post → NoRearm r mid →
    (wonBands r mid).Pairwise (· < ·)
  cooled : ∀ pre t post, s.log = pre ++ .rearmed r t :: post → ∀ band t',
    LedgerEvent.won r band t' ∈ pre → t' + cooldownS * 1000000 ≤ t
  unreset : r.spec.resets = false → NoRearm r s.log

theorem bandHistory_init (cooldownS : Int) (r : LedgerRef) {s : Sys ν} (h : s.log = []) :
    BandHistory cooldownS r s := by
  refine { stored := ?_, wonAt := ?_, increasing := ?_, cooled := ?_, unreset := ?_ }
  · intro pre mid hlog _ band hband
    rw [h] at hlog
    obtain ⟨-, rfl⟩ := List.append_eq_nil_iff.mp hlog.symm
    exact (nomatch hband)
  · intro band t hmem
    rw [h] at hmem
    exact (nomatch hmem)
  · intro pre mid post hlog _
    rw [h] at hlog
    obtain ⟨hpm, -⟩ := List.append_eq_nil_iff.mp hlog.symm
    obtain ⟨-, rfl⟩ := List.append_eq_nil_iff.mp hpm
    exact List.Pairwise.nil
  · intro pre t post hlog
    rw [h] at hlog
    exact absurd hlog.symm (by simp)
  · intro _ t hmem
    rw [h] at hmem
    exact (nomatch hmem)

/-- A longer history splits where the shorter one did, or at its new end. -/
theorem append_snoc_split {β : Type u} {pre mid l : List β} {e : β}
    (h : l ++ [e] = pre ++ mid) :
    (mid = [] ∧ pre = l ++ [e]) ∨ ∃ mid', mid = mid' ++ [e] ∧ l = pre ++ mid' := by
  rcases List.eq_nil_or_concat mid with rfl | ⟨mid', e', rfl⟩
  · exact .inl ⟨rfl, by simpa using h.symm⟩
  · right
    rw [List.concat_eq_append] at h ⊢
    rw [← List.append_assoc] at h
    obtain ⟨hl, he⟩ := List.append_inj' h rfl
    exact ⟨mid', by rw [List.singleton_inj.mp he], hl⟩

/-- A step that leaves the row alone, and logs nothing about it, keeps its history. -/
theorem bandHistory_frame {cooldownS : Int} {r : LedgerRef} {s s' : Sys ν}
    (h : BandHistory cooldownS r s) (hdb : s'.db r = s.db r) (hclock : s.clock ≤ s'.clock)
    (hlog : s'.log = s.log ∨ ∃ e, s'.log = s.log ++ [e] ∧ e.ref ≠ r) :
    BandHistory cooldownS r s' := by
  obtain hlog | ⟨e, hlog, he⟩ := hlog
  · refine { stored := ?_, wonAt := ?_, increasing := ?_, cooled := ?_, unreset := ?_ }
    · rw [hlog, hdb]
      exact h.stored
    · rw [hlog, hdb]
      exact fun band t hmem => ⟨(h.wonAt band t hmem).1.trans hclock, (h.wonAt band t hmem).2⟩
    · rw [hlog]
      exact h.increasing
    · rw [hlog]
      exact h.cooled
    · rw [hlog]
      exact h.unreset
  · have hnot : ∀ {mid}, NoRearm r (mid ++ [e]) → NoRearm r mid :=
      fun hm t ht => hm t (List.mem_append_left _ ht)
    refine { stored := ?_, wonAt := ?_, increasing := ?_, cooled := ?_, unreset := ?_ }
    · intro pre mid hl hno band hband
      rw [hdb]
      rw [hlog] at hl
      obtain ⟨rfl, -⟩ | ⟨mid', rfl, hl'⟩ := append_snoc_split hl
      · exact (nomatch hband)
      · rw [wonBands_snoc_other he] at hband
        exact h.stored pre mid' hl' (hnot hno) band hband
    · intro band t hmem
      rw [hlog] at hmem
      rw [hdb]
      obtain hmem | hmem := List.mem_append.mp hmem
      · exact ⟨(h.wonAt band t hmem).1.trans hclock, (h.wonAt band t hmem).2⟩
      · rw [List.mem_singleton] at hmem
        subst hmem
        exact absurd rfl he
    · intro pre mid post hl hno
      rw [hlog] at hl
      obtain ⟨rfl, hl'⟩ | ⟨post', rfl, hl'⟩ := append_snoc_split hl
      · obtain ⟨rfl, -⟩ | ⟨mid', rfl, hl''⟩ := append_snoc_split hl'.symm
        · exact List.Pairwise.nil
        · rw [wonBands_snoc_other he]
          exact h.increasing pre mid' [] (by simpa using hl'') (hnot hno)
      · exact h.increasing pre mid post' hl' hno
    · intro pre t post hl
      rw [hlog] at hl
      obtain ⟨hnil, -⟩ | ⟨post', hpost, hl'⟩ := append_snoc_split hl
      · exact absurd hnil (by simp)
      · cases post' with
        | nil =>
          obtain ⟨rfl, -⟩ := List.cons.inj hpost
          exact absurd rfl he
        | cons e' post' =>
          obtain ⟨rfl, -⟩ := List.cons.inj hpost
          exact h.cooled pre t post' hl'
    · intro hspec t hmem
      rw [hlog] at hmem
      obtain hmem | hmem := List.mem_append.mp hmem
      · exact h.unreset hspec t hmem
      · rw [List.mem_singleton] at hmem
        subst hmem
        exact he rfl

/-- A claim that nobody saw win raises the stored band and logs nothing. -/
theorem bandHistory_unseen {cooldownS : Int} {r : LedgerRef} {s s' : Sys ν} {band : ν}
    {row : Row ν} (h : BandHistory cooldownS r s)
    (hclaim : claimBand (s.db r) band s.clock = some row) (hdb : s'.db r = some row)
    (hlog : s'.log = s.log) (hclock : s'.clock = s.clock) : BandHistory cooldownS r s' := by
  obtain ⟨rfl, hlow⟩ := claimBand_eq_some hclaim
  refine { stored := ?_, wonAt := ?_, increasing := ?_, cooled := ?_, unreset := ?_ }
  · intro pre mid hl hno b hb
    obtain ⟨row₀, c, hrow, htrig, hc, hle⟩ := h.stored pre mid (hlog ▸ hl) hno b hb
    obtain ⟨c', hc', hlt⟩ := hlow row₀ hrow htrig
    obtain rfl := Option.some.inj (hc.symm.trans hc')
    exact ⟨_, band, hdb, rfl, rfl, (hle.trans_lt hlt).le⟩
  · intro b t hmem
    rw [hlog] at hmem
    have hle := (h.wonAt b t hmem).1
    exact ⟨hclock ▸ hle, _, hdb, hle⟩
  · rw [hlog]
    exact h.increasing
  · rw [hlog]
    exact h.cooled
  · rw [hlog]
    exact h.unreset

/-- Every band won on the row since its last reset is below a band that is won now. -/
theorem BandHistory.lt_of_claim {cooldownS : Int} {r : LedgerRef} {s : Sys ν} {band : ν}
    {row : Row ν} (h : BandHistory cooldownS r s)
    (hclaim : claimBand (s.db r) band s.clock = some row) {pre mid : List (LedgerEvent ν)}
    (hl : s.log = pre ++ mid) (hno : NoRearm r mid) {b : ν} (hb : b ∈ wonBands r mid) :
    b < band := by
  obtain ⟨row₀, c, hrow, htrig, hc, hle⟩ := h.stored pre mid hl hno b hb
  obtain ⟨c', hc', hlt⟩ := (claimBand_eq_some hclaim).2 row₀ hrow htrig
  obtain rfl := Option.some.inj (hc.symm.trans hc')
  exact hle.trans_lt hlt

/-- A won claim: the new band is above every band won since the last reset. -/
theorem bandHistory_won {cooldownS : Int} {r : LedgerRef} {s s' : Sys ν} {band : ν}
    {row : Row ν} (h : BandHistory cooldownS r s)
    (hclaim : claimBand (s.db r) band s.clock = some row) (hdb : s'.db r = some row)
    (hlog : s'.log = s.log ++ [.won r band s.clock]) (hclock : s'.clock = s.clock) :
    BandHistory cooldownS r s' := by
  obtain ⟨rfl, -⟩ := claimBand_eq_some hclaim
  have hnot : ∀ {mid}, NoRearm r (mid ++ [LedgerEvent.won r band s.clock]) → NoRearm r mid :=
    fun hm t ht => hm t (List.mem_append_left _ ht)
  refine { stored := ?_, wonAt := ?_, increasing := ?_, cooled := ?_, unreset := ?_ }
  · intro pre mid hl hno b hb
    rw [hlog] at hl
    obtain ⟨rfl, -⟩ | ⟨mid', rfl, hl'⟩ := append_snoc_split hl
    · exact (nomatch hb)
    · refine ⟨_, band, hdb, rfl, rfl, ?_⟩
      rw [wonBands_snoc_won] at hb
      obtain hb | hb := List.mem_append.mp hb
      · exact (h.lt_of_claim hclaim hl' (hnot hno) hb).le
      · exact (List.mem_singleton.mp hb).le
  · intro b t hmem
    rw [hlog] at hmem
    have hle : t ≤ s.clock := by
      obtain hmem | hmem := List.mem_append.mp hmem
      · exact (h.wonAt b t hmem).1
      · rw [List.mem_singleton, LedgerEvent.won.injEq] at hmem
        exact hmem.2.2.le
    exact ⟨hclock ▸ hle, _, hdb, hle⟩
  · intro pre mid post hl hno
    rw [hlog] at hl
    obtain ⟨rfl, hl'⟩ | ⟨post', rfl, hl'⟩ := append_snoc_split hl
    · obtain ⟨rfl, -⟩ | ⟨mid', rfl, hl''⟩ := append_snoc_split hl'.symm
      · exact List.Pairwise.nil
      · rw [wonBands_snoc_won, List.pairwise_append]
        refine ⟨h.increasing pre mid' [] (by simpa using hl'') (hnot hno),
          List.pairwise_singleton _ _, fun a ha b hb => ?_⟩
        rw [List.mem_singleton.mp hb]
        exact h.lt_of_claim hclaim hl'' (hnot hno) ha
    · exact h.increasing pre mid post' hl' hno
  · intro pre t post hl
    rw [hlog] at hl
    obtain ⟨hnil, -⟩ | ⟨post', hpost, hl'⟩ := append_snoc_split hl
    · exact absurd hnil (by simp)
    · cases post' with
      | nil => exact absurd (List.cons.inj hpost).1 (fun h => (nomatch h))
      | cons e' post' =>
        obtain ⟨rfl, -⟩ := List.cons.inj hpost
        exact h.cooled pre t post' hl'
  · intro hspec t hmem
    rw [hlog] at hmem
    obtain hmem | hmem := List.mem_append.mp hmem
    · exact h.unreset hspec t hmem
    · exact absurd (List.mem_singleton.mp hmem) (fun h => (nomatch h))

/-- A reset: the cooldown has passed since the stored `triggered_at`, hence since
every win, and a new stretch of wins begins. -/
theorem bandHistory_rearmed {cooldownS : Int} {r : LedgerRef} {s s' : Sys ν} {row : Row ν}
    (h : BandHistory cooldownS r s) (hspec : r.spec.resets = true)
    (hreset : resetBand (s.db r) cooldownS s.clock = some row) (hdb : s'.db r = some row)
    (hlog : s'.log = s.log ++ [.rearmed r s.clock]) (hclock : s'.clock = s.clock) :
    BandHistory cooldownS r s' := by
  obtain ⟨row₀, hrow, htrig, hcool, rfl⟩ := resetBand_eq_some hreset
  have hend : ∀ {mid}, ¬ NoRearm r (mid ++ [LedgerEvent.rearmed (ν := ν) r s.clock]) :=
    fun hm => hm s.clock (List.mem_append_right _ (List.mem_singleton_self _))
  refine { stored := ?_, wonAt := ?_, increasing := ?_, cooled := ?_, unreset := ?_ }
  · intro pre mid hl hno b hb
    rw [hlog] at hl
    obtain ⟨rfl, -⟩ | ⟨mid', rfl, -⟩ := append_snoc_split hl
    · exact (nomatch hb)
    · exact absurd hno hend
  · intro b t hmem
    rw [hlog] at hmem
    obtain hmem | hmem := List.mem_append.mp hmem
    · obtain ⟨hle, row₁, hrow₁, hat⟩ := h.wonAt b t hmem
      obtain rfl := Option.some.inj (hrow.symm.trans hrow₁)
      exact ⟨hclock ▸ hle, _, hdb, hat⟩
    · exact absurd (List.mem_singleton.mp hmem) (fun h => (nomatch h))
  · intro pre mid post hl hno
    rw [hlog] at hl
    obtain ⟨rfl, hl'⟩ | ⟨post', rfl, hl'⟩ := append_snoc_split hl
    · obtain ⟨rfl, -⟩ | ⟨mid', rfl, -⟩ := append_snoc_split hl'.symm
      · exact List.Pairwise.nil
      · exact absurd hno hend
    · exact h.increasing pre mid post' hl' hno
  · intro pre t post hl
    rw [hlog] at hl
    obtain ⟨hnil, -⟩ | ⟨post', hpost, hl'⟩ := append_snoc_split hl
    · exact absurd hnil (by simp)
    · cases post' with
      | nil =>
        obtain ⟨ht, -⟩ := List.cons.inj hpost
        obtain ⟨-, rfl⟩ := LedgerEvent.rearmed.inj ht
        intro b t' hmem
        obtain ⟨-, row₁, hrow₁, hat⟩ := h.wonAt b t' (by rw [hl']; simpa using hmem)
        obtain rfl := Option.some.inj (hrow.symm.trans hrow₁)
        omega
      | cons e' post' =>
        obtain ⟨rfl, -⟩ := List.cons.inj hpost
        exact h.cooled pre t post' hl'
  · intro hspec'
    rw [hspec] at hspec'
    cases hspec'

/-- One step keeps the history of every row. -/
theorem bandHistory_effect {cooldownS : Int} (r : LedgerRef) {s s' : Sys ν}
    (h : BandHistory cooldownS r s) (he : LedgerEffect cooldownS s s') :
    BandHistory cooldownS r s' := by
  cases he with
  | quiet hdb hlog hclock => exact bandHistory_frame h (by rw [hdb]) hclock (.inl hlog)
  | claimed ref band row hclaim hdb hlog hclock =>
    by_cases hr : ref = r
    · subst hr
      have hrow : s'.db ref = some row := by rw [hdb, Function.update_self]
      obtain hlog | hlog := hlog
      · exact bandHistory_unseen h hclaim hrow hlog hclock
      · exact bandHistory_won h hclaim hrow hlog hclock
    · have hrow : s'.db r = s.db r := by rw [hdb, Function.update_of_ne (Ne.symm hr)]
      refine bandHistory_frame h hrow hclock.ge ?_
      obtain hlog | hlog := hlog
      · exact .inl hlog
      · exact .inr ⟨_, hlog, hr⟩
  | rearmed ref row hspec hreset hdb hlog hclock =>
    by_cases hr : ref = r
    · subst hr
      exact bandHistory_rearmed h hspec hreset (by rw [hdb, Function.update_self]) hlog hclock
    · have hrow : s'.db r = s.db r := by rw [hdb, Function.update_of_ne (Ne.symm hr)]
      exact bandHistory_frame h hrow hclock.ge (.inr ⟨_, hlog, hr⟩)

/-- The invariant of a run: what is pending is sound, and the row's history is. -/
theorem stale_step {cooldownS : Int} (r : LedgerRef) {s s' : Sys ν} {a : StaleAction ν}
    (h : PendingSound s ∧ BandHistory cooldownS r s) (hstep : stepStale cooldownS s a = some s') :
    PendingSound s' ∧ BandHistory cooldownS r s' := by
  cases a with
  | code a =>
    have hm := step_moved hstep
    exact ⟨pendingSound_moved h.1 hm, bandHistory_effect r h.2 (moved_effect h.1 hm)⟩
  | staleRedis ref copy =>
    cases hstep
    exact ⟨h.1, bandHistory_frame h.2 rfl le_rfl (.inl rfl)⟩
  | staleL1 pod ref copy =>
    cases hstep
    exact ⟨h.1, bandHistory_frame h.2 rfl le_rfl (.inl rfl)⟩

/-- **Threshold alerts fire once per band.** From any ledger, any cache contents
and any copies that change under the callers' feet: on a row that does not
reset the won bands increase strictly; on any row they do between consecutive
resets; and a reset comes at least the cooldown after every earlier win. -/
theorem bands_fire_once (cooldownS : Int) {s s' : Sys ν} {as : List (StaleAction ν)}
    (hidle : ∀ i, s.batch i = none) (hlog : s.log = [])
    (hrun : Run (stepStale cooldownS) s as s') (r : LedgerRef) :
    (r.spec.resets = false → (wonBands r s'.log).Pairwise (· < ·)) ∧
    (∀ pre mid post, s'.log = pre ++ mid ++ post → NoRearm r mid →
      (wonBands r mid).Pairwise (· < ·)) ∧
    (∀ pre t post, s'.log = pre ++ .rearmed r t :: post → ∀ band t',
      LedgerEvent.won r band t' ∈ pre → t' + cooldownS * 1000000 ≤ t) := by
  have hsound : PendingSound s := by
    intro i b p hb
    rw [hidle i] at hb
    cases hb
  obtain ⟨-, h⟩ := hrun.invariant (fun _ _ _ => stale_step r)
    ⟨hsound, bandHistory_init cooldownS r hlog⟩
  refine ⟨fun hspec => ?_, h.increasing, h.cooled⟩
  exact h.increasing [] s'.log [] (by simp) (h.unreset hspec)

/-- A quota row, for a concrete run. -/
def quotaRow : LedgerRef := ⟨.quotaThreshold, "t1", [("billing_month", "2026-01")]⟩

/-- An evaluation of `quotaRow` with bands at 80 and 90. -/
def quotaEvaluation (observed : ℕ) : Evaluation ℕ :=
  ⟨quotaRow, [⟨80, .warning⟩, ⟨90, .critical⟩], observed⟩

/-- The steps of a call that fires: it reads through every tier, claims, and
writes the caches back. -/
def quotaCall (i observed : ℕ) : List (Action ℕ) :=
  [.start i 0 [quotaEvaluation observed] [], .redisGet i true, .dbRead i true, .fill i true,
   .decide i 0 fun _ => true, .claim i .committed, .writeLedger i, .setRedis i true]

/-- Two calls that reach 80 and then 90, the second one after both copies are
lost, win both bands in this order. -/
theorem bands_fire_once_quota :
    ∃ s', Run (stepStale 3600) (Sys.empty : Sys ℕ)
        ((quotaCall 0 85).map .code ++ [.staleL1 0 quotaRow none, .staleRedis quotaRow none]
          ++ (quotaCall 1 95).map .code) s' ∧
      wonBands quotaRow s'.log = [80, 90] ∧ (wonBands quotaRow s'.log).Pairwise (· < ·) := by
  obtain ⟨s', hrun, hwon⟩ := exists_run_of_map (stepStale 3600) (Sys.empty : Sys ℕ)
    ((quotaCall 0 85).map .code ++ [.staleL1 0 quotaRow none, .staleRedis quotaRow none]
      ++ (quotaCall 1 95).map .code) (fun s => wonBands quotaRow s.log) (x := [80, 90]) rfl
  exact ⟨s', hrun, hwon, (bands_fire_once 3600 (fun _ => rfl) rfl hrun quotaRow).1 rfl⟩

end Ai4iCore.Kafka
