import Ai4iCore.Kafka.Emit

/-!
# No won claim disappears

A claim that was won is never made again, so its event must leave a trace: an event that was
handed to Kafka and names its subject, or a failure row with its event id and its subject.
`_deliver` leaves one or the other for every member (`deliver_accounts`), whatever the
recipients' lookup and the publisher do. What is left to show is that no won claim is lost on
the way to `_deliver`: in the groups of a batch, or among the claims of a fan-out
(`won_claims_accounted`).
-/

namespace Ai4iCore.Kafka

universe u

variable {ν : Type u}

/-! ## Traces -/

/-- The output has an event or a failure row for a won claim. -/
def Output.Accounts (o : Output ν) (w : Won) : Prop :=
  (∃ e ∈ o.sent, e.eventId = w.eventId ∧ e.tenantId = w.tenantId ∧
    w.subject ∈ failureSubjects e.subject e.subjects) ∨
  ∃ f ∈ o.failures, f.eventId = some w.eventId ∧ f.tenantId = some w.tenantId ∧
    f.subject = some w.subject

theorem Output.Accounts.left {o : Output ν} {w : Won} (h : o.Accounts w) (o' : Output ν) :
    (o ++ o').Accounts w := by
  obtain ⟨e, he, hw⟩ | ⟨f, hf, hw⟩ := h
  · exact .inl ⟨e, List.mem_append_left _ he, hw⟩
  · exact .inr ⟨f, List.mem_append_left _ hf, hw⟩

theorem Output.Accounts.right {o' : Output ν} {w : Won} (h : o'.Accounts w) (o : Output ν) :
    (o ++ o').Accounts w := by
  obtain ⟨e, he, hw⟩ | ⟨f, hf, hw⟩ := h
  · exact .inl ⟨e, List.mem_append_right _ he, hw⟩
  · exact .inr ⟨f, List.mem_append_right _ hf, hw⟩

theorem Output.Accounts.concat {o : Output ν} {w : Won} (h : o.Accounts w)
    {outputs : List (Output ν)} (ho : o ∈ outputs) : (Output.concat outputs).Accounts w := by
  induction outputs with
  | nil => exact absurd ho List.not_mem_nil
  | cons o' outputs ih =>
    obtain rfl | ho := List.mem_cons.mp ho
    · exact h.left _
    · exact (ih ho).right o'

@[simp] theorem won_append (o o' : Output ν) : (o ++ o').won = o.won ++ o'.won := rfl

theorem won_concat {outputs : List (Output ν)} (h : ∀ o ∈ outputs, o.won = []) :
    (Output.concat outputs).won = [] := by
  induction outputs with
  | nil => rfl
  | cons o outputs ih =>
    show (o ++ Output.concat outputs).won = []
    rw [won_append, h o List.mem_cons_self, ih fun o' ho' => h o' (List.mem_cons_of_mem _ ho')]
    rfl

/-! ## Deliveries -/

theorem publish_accounts (io : DeliveryIo ν) (e : Envelope ν) (notificationId : Nat)
    {subject : Subject} (h : subject ∈ failureSubjects e.subject e.subjects) :
    (io.publish e notificationId).Accounts ⟨e.eventId, e.tenantId, subject⟩ := by
  unfold DeliveryIo.publish
  split
  · exact .inl ⟨e, List.mem_singleton_self e, rfl, rfl, h⟩
  · exact .inr ⟨_, List.mem_map_of_mem h, rfl, rfl, rfl⟩

theorem record_accounts (d : Delivery ν) (row : SettingsRow ν) (code : FailureCode)
    {subject : Subject} (h : subject ∈ failureSubjects d.subject d.subjects) :
    (d.record row code).Accounts ⟨d.eventId, d.tenantId, subject⟩ :=
  .inr ⟨_, List.mem_map_of_mem h, rfl, rfl, rfl⟩

/-- `_deliver` leaves a trace of every member. -/
theorem deliver_accounts (io : DeliveryIo ν) (row : SettingsRow ν) (d : Delivery ν)
    {subject : Subject} (h : subject ∈ failureSubjects d.subject d.subjects) :
    (io.deliver row d).Accounts ⟨d.eventId, d.tenantId, subject⟩ := by
  unfold DeliveryIo.deliver
  split
  · exact record_accounts d row _ h
  · split
    · exact record_accounts d row _ h
    · exact publish_accounts io (d.envelope row _ _) row.id h

/-- A delivery claims nothing. -/
theorem deliver_won (io : DeliveryIo ν) (row : SettingsRow ν) (d : Delivery ν) :
    (io.deliver row d).won = [] := by
  unfold DeliveryIo.deliver
  split
  · rfl
  · split
    · rfl
    · unfold DeliveryIo.publish
      split <;> rfl

theorem mem_failureSubjects_single (subject : Subject) :
    subject ∈ failureSubjects subject [] := List.mem_singleton_self subject

theorem mem_failureSubjects {subject : Subject} {subjects : List Subject}
    (h : subject ∈ subjects) (own : Subject) : subject ∈ failureSubjects own subjects := by
  have hsome : ¬ subjects.isEmpty = true := fun hnil => by
    rw [List.isEmpty_iff.mp hnil] at h
    exact List.not_mem_nil h
  rw [failureSubjects, if_neg hsome]
  exact h

/-! ## STATE events -/

theorem claimAndDeliver_accounts (io : StateIo ν) (table : StateTable) (call : StateEmit)
    (row : SettingsRow ν) (subs : TenantSubscriptions) (subject : Subject) {w : Won}
    (hw : w ∈ (io.claimAndDeliver table call row subs subject).won) :
    (io.claimAndDeliver table call row subs subject).Accounts w := by
  unfold StateIo.claimAndDeliver at hw ⊢
  dsimp only at hw ⊢
  refine Output.Accounts.right ?_ _
  rw [won_append, List.nil_append] at hw
  split at hw
  · exact absurd hw List.not_mem_nil
  · split at hw
    · rename_i hwon
      rw [won_append, deliver_won, List.append_nil] at hw
      obtain rfl := List.mem_singleton.mp hw
      rw [if_pos hwon]
      exact (deliver_accounts io.toDeliveryIo row _ (mem_failureSubjects_single subject)).right _
    · exact absurd hw List.not_mem_nil

theorem emitState_accounts (t : TextChecks) (io : StateIo ν) (table : StateTable)
    (call : StateEmit) {w : Won} (hw : w ∈ (emitState t io table call).won) :
    (emitState t io table call).Accounts w := by
  unfold emitState at hw ⊢
  split at hw
  · exact absurd hw List.not_mem_nil
  · dsimp only at hw ⊢
    split at hw
    · exact absurd hw List.not_mem_nil
    · split at hw
      · exact absurd hw List.not_mem_nil
      · split at hw
        · rename_i hgate
          rw [if_pos hgate]
          exact claimAndDeliver_accounts io table call _ _ _ hw
        · exact absurd hw List.not_mem_nil

/-- Every claim of a fan-out gets its own delivery, or its own failure row. -/
theorem deliverAll_accounts (io : StateIo ν) (row : SettingsRow ν) (read : CacheRead ν)
    {won : List (StateClaim × StateItem)} (adminId : Nat) {p : StateClaim × StateItem}
    (hp : p ∈ won) : (io.deliverAll row read won adminId).Accounts
      ⟨p.1.eventId, p.1.tenantId, p.1.subject⟩ := by
  unfold StateIo.deliverAll
  dsimp only
  split
  · exact .inr ⟨_, List.mem_map_of_mem hp, rfl, rfl, rfl⟩
  · refine Output.Accounts.left (Output.Accounts.concat ?_ (List.mem_map_of_mem hp)) _
    exact deliver_accounts io.toDeliveryIo row _ (mem_failureSubjects_single p.1.subject)

theorem deliverAll_won (io : StateIo ν) (row : SettingsRow ν) (read : CacheRead ν)
    (won : List (StateClaim × StateItem)) (adminId : Nat) :
    (io.deliverAll row read won adminId).won = [] := by
  unfold StateIo.deliverAll
  dsimp only
  split
  · rfl
  · rw [won_append, won_concat, List.nil_append]
    · split
      · rfl
      · split
        · exact deliver_won io.toDeliveryIo row _
        · rfl
    · intro o ho
      obtain ⟨p, -, rfl⟩ := List.mem_map.mp ho
      exact deliver_won io.toDeliveryIo row _

/-- What the bulk statement wins are claims it was given. -/
theorem mem_of_claimStateBulk {now : Int} {notificationId : Nat} {table table' : StateTable}
    {claims won : List StateClaim}
    (h : claimStateBulk now notificationId table claims = .ok (table', won)) {c : StateClaim}
    (hc : c ∈ won) : c ∈ claims := by
  unfold claimStateBulk at h
  cases hfold : claims.foldlM (bulkRow now notificationId) ⟨table, [], []⟩ with
  | error e =>
    rw [hfold] at h
    cases h
  | ok p =>
    rw [hfold] at h
    cases h
    exact (List.mem_filter.mp hc).1

theorem claimAll_accounts (io : StateIo ν) (table : StateTable) (row : SettingsRow ν)
    (read : CacheRead ν) (claims : List (StateClaim × StateItem)) {w : Won}
    (hw : w ∈ (io.claimAll table row read claims).won) :
    (io.claimAll table row read claims).Accounts w := by
  unfold StateIo.claimAll at hw ⊢
  dsimp only at hw ⊢
  split at hw
  · exact absurd hw List.not_mem_nil
  · split at hw
    · exact absurd hw List.not_mem_nil
    · rename_i now hstatement _ won hbulk
      have hnil : ∀ items, (if won.isEmpty then ({} : Output ν) else
          io.deliverAll row read items (io.freshId + claims.length)).won = [] := by
        intro items
        split
        · rfl
        · exact deliverAll_won io row read _ _
      rw [won_append, hnil, List.append_nil] at hw
      obtain ⟨c, hc, rfl⟩ := List.mem_map.mp hw
      have hsome : ¬ won.isEmpty = true := fun hempty => by
        rw [List.isEmpty_iff.mp hempty] at hc
        exact List.not_mem_nil hc
      rw [if_neg hsome]
      -- the item of a won claim is found by its event id
      obtain ⟨p, hp, rfl⟩ := List.mem_map.mp (mem_of_claimStateBulk hbulk hc)
      have hitem : ∃ item, Dict.get? (claims.map fun p => (p.1.eventId, p.2)) p.1.eventId =
          some item := by
        refine Dict.exists_get? ?_
        rw [List.map_map]
        exact List.mem_map_of_mem (f := fun p => p.1.eventId) hp
      obtain ⟨item, hitem⟩ := hitem
      refine (deliverAll_accounts io row read _ (p := (p.1, item)) ?_).right _
      exact List.mem_filterMap.mpr ⟨p.1, hc, by rw [hitem]; rfl⟩

theorem emitStateBulk_accounts (t : TextChecks) (io : StateIo ν) (table : StateTable)
    (name : String) (items : List StateItem) {w : Won}
    (hw : w ∈ (emitStateBulk t io table name items).won) :
    (emitStateBulk t io table name items).Accounts w := by
  unfold emitStateBulk at hw ⊢
  split at hw
  · exact absurd hw List.not_mem_nil
  · dsimp only at hw ⊢
    refine Output.Accounts.right ?_ _
    rw [won_append, List.nil_append] at hw
    split at hw
    · exact absurd hw List.not_mem_nil
    · rename_i hvalid
      rw [if_neg hvalid]
      split at hw
      · exact absurd hw List.not_mem_nil
      · split at hw
        · exact absurd hw List.not_mem_nil
        · rename_i hread
          rw [if_neg hread]
          split at hw
          · exact absurd hw List.not_mem_nil
          · rename_i hclaims
            rw [if_neg hclaims]
            exact claimAll_accounts io table _ _ _ hw

/-! ## Groups of a batch -/

/-- Whose alert an evaluation is. -/
def ActiveEvaluation.group (a : ActiveEvaluation ν) : NotificationName × String :=
  (a.ref.name, a.ref.tenantId)

/-- The event ids given so far: each group has at most one, and all are older than `id`. -/
structure GroupIds (id : Nat) (groups : Dict (NotificationName × String) Nat) : Prop where
  older : ∀ g i, groups.get? g = some i → i < id
  oneGroup : ∀ g g' i, groups.get? g = some i → groups.get? g' = some i → g = g'

/-- What `giveId` gives: the fresh id or the group's own, and nothing else is new. -/
theorem giveId_spec {id : Nat} {groups : Dict (NotificationName × String) Nat}
    (h : GroupIds id groups) (grouped : Bool) (g : NotificationName × String) :
    ((giveId grouped groups g id).1 = id ∨ groups.get? g = some (giveId grouped groups g id).1) ∧
    GroupIds (id + 1) (giveId grouped groups g id).2 ∧
    ∀ g' i, (giveId grouped groups g id).2.get? g' = some i →
      groups.get? g' = some i ∨ g' = g ∧ i = (giveId grouped groups g id).1 := by
  cases grouped with
  | false =>
    refine ⟨.inl rfl, ⟨fun g' i hi => ?_, h.oneGroup⟩, fun g' i hi => .inl hi⟩
    exact Nat.lt_succ_of_lt (h.older g' i hi)
  | true =>
    have hgiven : (groups.get? g).getD id = id ∨
        groups.get? g = some ((groups.get? g).getD id) := by
      cases hg : groups.get? g with
      | none => exact .inl rfl
      | some i => exact .inr rfl
    have hnew : ∀ g' i, (groups.set g ((groups.get? g).getD id)).get? g' = some i →
        groups.get? g' = some i ∨ g' = g ∧ i = (groups.get? g).getD id := by
      intro g' i hi
      rw [Dict.get?_set] at hi
      split at hi
      · rename_i heq
        exact .inr ⟨heq, (Option.some.inj hi).symm⟩
      · exact .inl hi
    -- the group's id is not the id of another group
    have hown : ∀ g', groups.get? g' = some ((groups.get? g).getD id) → g' = g := by
      intro g' hg'
      obtain hid | hid := hgiven
      · rw [hid] at hg'
        exact absurd (h.older g' id hg') (Nat.lt_irrefl id)
      · exact h.oneGroup g' g _ hg' hid
    refine ⟨hgiven, ⟨fun g' i hi => ?_, fun g' g'' i hi hi' => ?_⟩, hnew⟩
    · obtain hold | ⟨-, rfl⟩ := hnew g' i hi
      · exact Nat.lt_succ_of_lt (h.older g' i hold)
      · obtain hid | hid := hgiven
        · omega
        · exact Nat.lt_succ_of_lt (h.older g _ hid)
    · obtain hold | ⟨rfl, heq⟩ := hnew g' i hi <;> obtain hold' | ⟨rfl, heq'⟩ := hnew g'' i hi'
      · exact h.oneGroup g' g'' i hold hold'
      · exact hown g' (heq' ▸ hold)
      · exact (hown g'' (heq ▸ hold')).symm
      · rfl

/-- Evaluations with one event id are of one group. -/
theorem prepare_groups {active : List (ActiveEvaluation ν)} (hnew : ∀ a ∈ active, a.eventId = none)
    {id : Nat} {groups : Dict (NotificationName × String) Nat} (h : GroupIds id groups) :
    (∀ a ∈ (prepare id groups active).1, ∀ i, a.eventId = some i →
      id ≤ i ∨ groups.get? a.group = some i) ∧
    ∀ a ∈ (prepare id groups active).1, ∀ b ∈ (prepare id groups active).1, ∀ i,
      a.eventId = some i → b.eventId = some i → a.group = b.group := by
  induction active generalizing id groups with
  | nil => exact ⟨fun a ha => absurd ha List.not_mem_nil, fun a ha => absurd ha List.not_mem_nil⟩
  | cons a active ih =>
    have hrest := fun b hb => hnew b (List.mem_cons_of_mem _ hb)
    rw [prepare]
    split
    · dsimp only
      obtain ⟨hgiven, hgroups, hnew'⟩ := giveId_spec h a.item.groupDetails.isSome a.group
      obtain ⟨hids, hsame⟩ := ih hrest hgroups
      -- an evaluation behind this one has its id only in the same group
      have hshare : ∀ b ∈ (prepare (id + 1) (giveId a.item.groupDetails.isSome groups a.group id).2
          active).1, b.eventId = some (giveId a.item.groupDetails.isSome groups a.group id).1 →
          b.group = a.group := by
        intro b hb hi
        obtain hge | hget := hids b hb _ hi
        · obtain hid | hid := hgiven
          · omega
          · have hlt := h.older _ _ hid
            omega
        · obtain hold | ⟨heq, -⟩ := hnew' _ _ hget
          · obtain hid | hid := hgiven
            · rw [hid] at hold
              exact absurd (h.older _ _ hold) (Nat.lt_irrefl id)
            · exact h.oneGroup _ _ _ hold hid
          · exact heq
      refine ⟨fun b hb i hi => ?_, fun b hb c hc i hi hi' => ?_⟩
      · obtain rfl | hb := List.mem_cons.mp hb
        · obtain rfl := Option.some.inj hi
          obtain hid | hid := hgiven
          · exact .inl (Nat.le_of_eq hid.symm)
          · exact .inr hid
        · obtain hge | hget := hids b hb i hi
          · exact .inl (Nat.le_of_succ_le hge)
          · obtain hold | ⟨heq, rfl⟩ := hnew' _ _ hget
            · exact .inr hold
            · obtain hid | hid := hgiven
              · exact .inl (Nat.le_of_eq hid.symm)
              · exact .inr (heq ▸ hid)
      · obtain rfl | hb := List.mem_cons.mp hb
        · obtain rfl := Option.some.inj hi
          obtain rfl | hc := List.mem_cons.mp hc
          · rfl
          · exact (hshare c hc hi').symm
        · obtain rfl | hc := List.mem_cons.mp hc
          · obtain rfl := Option.some.inj hi'
            exact hshare b hb hi
          · exact hsame b hb c hc i hi hi'
    · dsimp only
      obtain ⟨hids, hsame⟩ := ih hrest h
      have hnone := hnew a List.mem_cons_self
      refine ⟨fun b hb i hi => ?_, fun b hb c hc i hi hi' => ?_⟩
      · obtain rfl | hb := List.mem_cons.mp hb
        · exact absurd (hnone.symm.trans hi) (Option.some_ne_none _).symm
        · exact hids b hb i hi
      · obtain rfl | hb := List.mem_cons.mp hb
        · exact absurd (hnone.symm.trans hi) (Option.some_ne_none _).symm
        · obtain rfl | hc := List.mem_cons.mp hc
          · exact absurd (hnone.symm.trans hi') (Option.some_ne_none _).symm
          · exact hsame b hb c hc i hi hi'

/-- The fired evaluations of the claim loop are active ones that had an event id. -/
theorem claimLoop_fired [LinearOrder ν] {cooldownS : Int} {statement : Nat → Option Int} {n : Nat}
    {table : LedgerRef → Option (Row ν)} {active : List (ActiveEvaluation ν)}
    {m : FiredEvaluation ν} (hm : m ∈ (claimLoop cooldownS statement n table active).1) :
    ∃ a ∈ active, a.ref = m.ref ∧ a.eventId = some m.eventId := by
  induction active generalizing n table with
  | nil => exact absurd hm List.not_mem_nil
  | cons a active ih =>
    have hlater : ∀ {n table}, m ∈ (claimLoop cooldownS statement n table active).1 →
        ∃ b ∈ a :: active, b.ref = m.ref ∧ b.eventId = some m.eventId := by
      intro n table hm
      obtain ⟨b, hb, hspec⟩ := ih hm
      exact ⟨b, List.mem_cons_of_mem _ hb, hspec⟩
    rw [claimLoop] at hm
    split at hm
    · split at hm
      · rename_i band eventId now hband hid hnow
        split at hm
        · obtain rfl | hm := List.mem_cons.mp hm
          · exact ⟨a, List.mem_cons_self, rfl, hid⟩
          · exact hlater hm
        · exact hlater hm
      · exact hlater hm
    · split at hm
      · split at hm
        · exact hlater hm
        · exact hlater hm
      · exact hlater hm

/-- The groups of the evaluations `seen`: each is under its event id, and nothing else is. -/
structure Grouped (seen : List (FiredEvaluation ν))
    (groups : Dict Nat (List (FiredEvaluation ν))) : Prop where
  found : ∀ m ∈ seen, ∃ members, groups.get? m.eventId = some members ∧ m ∈ members
  sound : ∀ g ∈ groups, ∀ m ∈ g.2, m ∈ seen ∧ m.eventId = g.1

theorem Grouped.add {seen : List (FiredEvaluation ν)} {groups : Dict Nat (List (FiredEvaluation ν))}
    (h : Grouped seen groups) (m : FiredEvaluation ν) :
    Grouped (seen ++ [m]) (groups.set m.eventId ((groups.get? m.eventId).getD [] ++ [m])) := by
  constructor
  case found =>
    intro x hx
    rw [Dict.get?_set]
    split
    · rename_i heq
      refine ⟨_, rfl, ?_⟩
      obtain hx | hx := List.mem_append.mp hx
      · obtain ⟨members, hget, hmem⟩ := h.found x hx
        rw [← heq, hget]
        exact List.mem_append_left _ hmem
      · exact List.mem_append_right _ hx
    · rename_i hne
      obtain hx | hx := List.mem_append.mp hx
      · exact h.found x hx
      · exact absurd (congrArg FiredEvaluation.eventId (List.mem_singleton.mp hx)) hne
  case sound =>
    intro g hg x hx
    obtain rfl | hg := Dict.mem_set hg
    · obtain hx | hx := List.mem_append.mp hx
      · cases hget : groups.get? m.eventId with
        | none =>
          rw [hget] at hx
          exact absurd hx List.not_mem_nil
        | some members =>
          rw [hget] at hx
          obtain ⟨hmem, hid⟩ := h.sound _ (Dict.mem_of_get? hget) x hx
          exact ⟨List.mem_append_left _ hmem, hid⟩
      · obtain rfl := List.mem_singleton.mp hx
        exact ⟨List.mem_append_right _ hx, rfl⟩
    · obtain ⟨hmem, hid⟩ := h.sound g hg x hx
      exact ⟨List.mem_append_left _ hmem, hid⟩

theorem groupByEvent_grouped (fired : List (FiredEvaluation ν)) :
    Grouped fired (groupByEvent fired) := by
  induction fired using List.reverseRecOn with
  | nil => exact ⟨fun m hm => absurd hm List.not_mem_nil, fun g hg => absurd hg List.not_mem_nil⟩
  | append_singleton seen m ih =>
    rw [groupByEvent, List.foldl_append]
    exact ih.add m

/-! ## BAND events -/

section Band

variable [LinearOrder ν]

theorem maxMember_mem (best : FiredEvaluation ν) (members : List (FiredEvaluation ν)) :
    maxMember best members ∈ best :: members := by
  induction members generalizing best with
  | nil => exact List.mem_singleton_self best
  | cons m members ih =>
    rw [maxMember]
    split
    · exact List.mem_cons_of_mem _ (ih m)
    · obtain hbest | hrest := List.mem_cons.mp (ih best)
      · rw [hbest]
        exact List.mem_cons_self
      · exact List.mem_cons_of_mem _ (List.mem_cons_of_mem _ hrest)

/-- The event of a group accounts for each of its members. -/
theorem deliverGroup_accounts (io : BatchIo ν) {members : List (FiredEvaluation ν)}
    {m : FiredEvaluation ν} (hm : m ∈ members)
    (hsame : ∀ x ∈ members, x.eventId = m.eventId ∧ x.ref.tenantId = m.ref.tenantId) :
    (io.deliverGroup members).Accounts ⟨m.eventId, m.ref.tenantId, m.ref.subject⟩ := by
  match members, hm, hsame with
  | [x], hm, _ =>
    obtain rfl := List.mem_singleton.mp hm
    exact deliver_accounts io.toDeliveryIo m.row _ (mem_failureSubjects_single m.ref.subject)
  | x :: y :: rest, hm, hsame =>
    obtain ⟨hid, htenant⟩ := hsame _ (maxMember_mem x (y :: rest))
    rw [← hid, ← htenant]
    have hmem : m.ref.subject ∈ (x :: y :: rest).map fun z => z.ref.subject :=
      List.mem_map_of_mem (f := fun z : FiredEvaluation ν => z.ref.subject) hm
    exact (deliver_accounts io.toDeliveryIo _ _ (mem_failureSubjects hmem [])).right _

theorem deliverGroup_won (io : BatchIo ν) (members : List (FiredEvaluation ν)) :
    (io.deliverGroup members).won = [] := by
  match members with
  | [] => rfl
  | [x] => exact deliver_won io.toDeliveryIo _ _
  | x :: y :: rest =>
    show ([] : List Won) ++ (io.deliver _ _).won = []
    rw [deliver_won]
    rfl

theorem judge_eventId {cooldownS now : Int} {e : BandEvaluation ν} {row : SettingsRow ν}
    {subs : Option TenantSubscriptions} {state : LedgerState ν} {a : ActiveEvaluation ν}
    (h : judge cooldownS now e row subs state = some a) : a.eventId = none := by
  unfold judge at h
  dsimp only at h
  split at h
  · cases h
    rfl
  · cases h

/-- An active evaluation has no event id before `prepare`. -/
theorem active_eventId {t : TextChecks} {io : BatchIo ν} {cooldownS : Int}
    {items : List (BandItem ν)} {a : ActiveEvaluation ν}
    (ha : a ∈ (io.active t cooldownS items).1) : a.eventId = none := by
  unfold BatchIo.active at ha
  dsimp only at ha
  split at ha
  · exact absurd ha List.not_mem_nil
  · split at ha
    · exact absurd ha List.not_mem_nil
    · rename_i settings hsettings
      obtain ⟨hfilled, -⟩ := List.mem_filter.mp ha
      obtain ⟨b, hb, rfl⟩ := List.mem_map.mp hfilled
      have hnone : b.eventId = none := by
        obtain ⟨r, hr, hok⟩ := List.mem_filterMap.mp hb
        obtain ⟨e, -, rfl⟩ := List.mem_map.mp hr
        cases heval : evaluate cooldownS io.now _ settings io.peekAgain e with
        | error f =>
          rw [heval] at hok
          cases hok
        | ok a =>
          rw [heval] at hok
          cases hok
          obtain ⟨row, subs, st, hjudge⟩ := evaluate_eq_ok heval
          exact judge_eventId hjudge
      split
      · exact hnone
      · exact hnone

/-- Fired evaluations with one event id are of one tenant. -/
theorem fired_tenant {t : TextChecks} {io : BatchIo ν} {cooldownS : Int}
    {table : LedgerRef → Option (Row ν)} {items : List (BandItem ν)} {x y : FiredEvaluation ν}
    (hx : x ∈ (io.fired cooldownS table (prepare io.freshId []
      (io.active t cooldownS items).1).1).1)
    (hy : y ∈ (io.fired cooldownS table (prepare io.freshId []
      (io.active t cooldownS items).1).1).1)
    (hid : x.eventId = y.eventId) : x.ref.tenantId = y.ref.tenantId := by
  have hempty : GroupIds io.freshId [] := by
    constructor <;> simp [Dict.get?]
  have hnew : ∀ a ∈ (io.active t cooldownS items).1, a.eventId = none :=
    fun a ha => active_eventId ha
  obtain ⟨-, hgroups⟩ := prepare_groups hnew hempty
  unfold BatchIo.fired at hx hy
  split at hx
  · rename_i hopens
    rw [if_pos hopens] at hy
    obtain ⟨a, ha, hra, hia⟩ := claimLoop_fired hx
    obtain ⟨b, hb, hrb, hib⟩ := claimLoop_fired hy
    have hgroup := hgroups a ha b hb x.eventId hia (hid ▸ hib)
    rw [← hra, ← hrb]
    exact congrArg Prod.snd hgroup
  · exact absurd hx List.not_mem_nil

theorem emitBandBatch_accounts (t : TextChecks) (io : BatchIo ν) (cooldownS : Int)
    (table : LedgerRef → Option (Row ν)) (items : List (BandItem ν)) {w : Won}
    (hw : w ∈ (emitBandBatch t io cooldownS table items).won) :
    (emitBandBatch t io cooldownS table items).Accounts w := by
  unfold emitBandBatch at hw ⊢
  dsimp only at hw ⊢
  rw [won_append, won_concat, List.append_nil] at hw
  · obtain ⟨m, hm, rfl⟩ := List.mem_map.mp hw
    have hgrouped := groupByEvent_grouped (io.fired cooldownS table
      (prepare io.freshId [] (io.active t cooldownS items).1).1).1
    obtain ⟨members, hget, hmem⟩ := hgrouped.found m hm
    have hgroup := Dict.mem_of_get? hget
    refine Output.Accounts.right (Output.Accounts.concat (deliverGroup_accounts io hmem ?_)
      (List.mem_map_of_mem (f := fun g : Nat × List (FiredEvaluation ν) => io.deliverGroup g.2)
        hgroup)) _
    intro x hx
    obtain ⟨hfired, hid⟩ := hgrouped.sound _ hgroup x hx
    exact ⟨hid, fired_tenant hfired hm hid⟩
  · intro o ho
    obtain ⟨g, -, rfl⟩ := List.mem_map.mp ho
    exact deliverGroup_won io g.2

/-- **No won claim disappears.** Whatever the cache answers, whichever statements, lookups and
sends fail: each claim that `emit_state`, `emit_state_bulk` or `emit_band_batch` wins is named
by an event handed to Kafka, or by a failure row with its event id and subject. -/
theorem won_claims_accounted (t : TextChecks) :
    (∀ (io : StateIo ν) (table : StateTable) (call : StateEmit),
      ∀ w ∈ (emitState t io table call).won, (emitState t io table call).Accounts w) ∧
    (∀ (io : StateIo ν) (table : StateTable) (name : String) (items : List StateItem),
      ∀ w ∈ (emitStateBulk t io table name items).won,
        (emitStateBulk t io table name items).Accounts w) ∧
    ∀ (io : BatchIo ν) (cooldownS : Int) (table : LedgerRef → Option (Row ν))
      (items : List (BandItem ν)), ∀ w ∈ (emitBandBatch t io cooldownS table items).won,
        (emitBandBatch t io cooldownS table items).Accounts w :=
  ⟨fun io table call _ hw => emitState_accounts t io table call hw,
    fun io table name items _ hw => emitStateBulk_accounts t io table name items hw,
    fun io cooldownS table items _ hw => emitBandBatch_accounts t io cooldownS table items hw⟩

end Band

def quotaAlert : SettingsRow Nat where
  id := 7
  name := .quotaThreshold
  type := .alert
  scope := .global
  channels := ["EMAIL"]
  recipientRoles := [("TENANT ADMIN", true)]
  bands := [⟨80, .warning⟩]
  monScope := fun _ => rfl

def unreachableKafka : BatchIo Nat where
  lookup := fun _ _ => some ([⟨"admin@a", "A"⟩], none)
  send := fun _ => false
  peekSettings := none
  peekSubscriptions := fun _ => none
  read := fun _ _ => ⟨some fun name => if name = .quotaThreshold then some quotaAlert else none,
    fun _ => some ⟨fun _ => none⟩, fun _ => some noLedgerRow, false⟩
  peekAgain := fun _ => none
  readAgain := fun _ => ⟨none, fun _ => none, fun _ => none, false⟩
  now := 0
  sessionOpens := true
  statement := fun _ => some 0
  freshId := 100

def quotaItem (taskType : String) : BandItem Nat where
  name := "QUOTA_THRESHOLD"
  tenantId := some "a"
  subject := [("billing_month", "2025-01"), ("model_task_type", taskType)]
  observed := 85
  details := .values []
  fallbackDetails := []
  groupDetails := some fun _ => none

/-- A tenant over 80% of two quotas, in one grouped alert, while Kafka is unreachable. -/
theorem won_claims_accounted_unreachable :
    let o := emitBandBatch ⟨fun _ => false, fun _ _ => true⟩ unreachableKafka 3600 (fun _ => none)
      [quotaItem "asr", quotaItem "tts"]
    o.won.length = 2 ∧ ∀ w ∈ o.won, o.Accounts w :=
  ⟨by decide +kernel, (won_claims_accounted _).2.2 unreachableKafka 3600 _ _⟩

end Ai4iCore.Kafka
