import Ai4iCore.Base.Substitution
import Ai4iCore.Task.Words

/-!
# Tenant grouping

`inject_tenant_into_promql` (config_renderer.py): alerts are routed by tenant, so sums that group by
`(endpoint)` or `(le, endpoint)` are made to group by `tenant` as well. It is two substitutions,
which are left out where the expression has `, tenant)` anywhere.

What is substituted is a grouping in front of the sum, with one blank after a `sum` in small
letters. PromQL takes any white space and any case there, and a grouping behind the sum as well
(`Grouped`). `tenant_grouping_iff` says for which expressions no such sum is left over. All of this
is about the text: what stands in a string literal counts as well.
-/

namespace Ai4iCore.Alert.TenantGrouping

open Substitution (Text Matcher lit anyCase spaced seq sub Rewrites Reads Over Blocks IsBlock
  eq_of_lit seq_append)
open Ai4iCore.Task (isSpace)

/-! ## The function -/

/-- `\(\s*le\s*,\s*endpoint\s*\)`, or the same without `le`, after white space. -/
def labels (le : Bool) : List Matcher :=
  spaced isSpace (lit ['(']) ::
    (if le then [spaced isSpace (lit ['l', 'e']), spaced isSpace (lit [','])] else []) ++
    [spaced isSpace (lit ['e', 'n', 'd', 'p', 'o', 'i', 'n', 't']), spaced isSpace (lit [')'])]

/-- The regular expressions. -/
def regex (le : Bool) : Matcher := seq (lit ['s', 'u', 'm', ' ', 'b', 'y'] :: labels le)

/-- `, tenant)`. -/
def tenantMark : Text := [',', ' ', 't', 'e', 'n', 'a', 'n', 't', ')']

/-- What is put in. -/
def tagged (le : Bool) : Text :=
  ['s', 'u', 'm', ' ', 'b', 'y', ' ', '('] ++ (if le then ['l', 'e', ',', ' '] else []) ++
    ['e', 'n', 'd', 'p', 'o', 'i', 'n', 't'] ++ tenantMark

/-- `inject_tenant_into_promql`. -/
def injectTenantIntoPromql (expr : Text) : Text :=
  if expr = [] then expr
  else if expr.tails.any fun t => tenantMark.isPrefixOf t then expr
  else sub (regex false) (tagged false) 0 (sub (regex true) (tagged true) 0 expr)

/-! ## What is meant -/

/-- `by` after white space that has to be there, in any case. -/
def gapBy : Matcher := fun t =>
  match t with
  | [] => none
  | c :: _ => if isSpace c then spaced isSpace (anyCase ['b', 'y']) t else none

/-- A sum with the grouping in front of it. -/
def sumBy (le : Bool) : Matcher := seq (anyCase ['s', 'u', 'm'] :: gapBy :: labels le)

/-- Parentheses that are opened are closed, after so many that are open. -/
def closes : Nat → Text → Bool
  | depth, [] => depth = 0
  | depth, c :: t =>
    if c = '(' then closes (depth + 1) t
    else if c = ')' then depth ≠ 0 && closes (depth - 1) t
    else closes depth t

/-- The grouping behind a sum. -/
def byAfter (le : Bool) : Matcher :=
  seq (spaced isSpace (anyCase ['b', 'y']) :: labels le)

/-- A sum with the grouping behind its argument. -/
def SumThenBy (le : Bool) (t : Text) : Prop :=
  ∃ argument rest, seq [anyCase ['s', 'u', 'm'], spaced isSpace (lit ['('])] t =
      some (argument ++ ')' :: rest) ∧ closes 0 argument = true ∧ (byAfter le rest).isSome = true

/-- A sum that groups by `(endpoint)` or `(le, endpoint)` begins here. -/
def Grouped (t : Text) : Prop := ∃ le, (sumBy le t).isSome = true ∨ SumThenBy le t

/-- Somewhere in the expression is a sum of which this is true. -/
def Somewhere (P : Text → Prop) (expr : Text) : Prop := ∃ before t, expr = before ++ t ∧ P t

/-- Nothing but groupings is changed, each to the same with `tenant`. -/
def OnlyGroupings : Text → Text → Prop :=
  Rewrites (fun _ => True) fun w w' => ∃ le, Reads (sumBy le) w ∧ w' = tagged le

/-- What is asked of the function. -/
structure Injects (expr : Text) : Prop where
  idempotent : injectTenantIntoPromql (injectTenantIntoPromql expr) = injectTenantIntoPromql expr
  onlyGroupings : OnlyGroupings expr (injectTenantIntoPromql expr)
  everywhere : ¬Somewhere Grouped (injectTenantIntoPromql expr)

/-- Every sum that has to be rewritten is one that the regular expressions match, and no other
clause of the expression has the tenant already. -/
def Matched (expr : Text) : Prop :=
  (Somewhere Grouped expr → ¬tenantMark <:+: expr) ∧
    ∀ before t, expr = before ++ t → Grouped t → ∃ le, (regex le t).isSome = true

/-! ## Matches -/

/-- The letter that begins a sum and is nowhere else in a grouping. -/
def IsS (c : Char) : Prop := c = 's' ∨ c = 'S'

instance (c : Char) : Decidable (IsS c) := inferInstanceAs (Decidable (_ ∨ _))

theorem not_isS_of_isSpace {c : Char} (h : isSpace c = true) : ¬IsS c := by
  rintro (rfl | rfl)
  · exact absurd h (by decide)
  · exact absurd h (by decide)

theorem over_spaced_lit {k : Char} {word : Text} (hk : isSpace k = false)
    (hword : ∀ c ∈ k :: word, ¬IsS c) :
    Over (fun c => ¬IsS c) (spaced isSpace (lit (k :: word))) :=
  Substitution.over_spaced (Substitution.over_lit hword) (Substitution.starts_lit hk)
    fun _ => not_isS_of_isSpace

theorem over_labels (le : Bool) : ∀ m ∈ labels le, Over (fun c => ¬IsS c) m := by
  have hopen := @over_spaced_lit '(' [] (by decide) (by simp [IsS])
  have hle := @over_spaced_lit 'l' ['e'] (by decide) (by simp [IsS])
  have hcomma := @over_spaced_lit ',' [] (by decide) (by simp [IsS])
  have hendpoint := @over_spaced_lit 'e' ['n', 'd', 'p', 'o', 'i', 'n', 't'] (by decide)
    (by simp [IsS])
  have hclose := @over_spaced_lit ')' [] (by decide) (by simp [IsS])
  unfold labels
  cases le <;> simp_all

theorem over_spaced_by : Over (fun c => ¬IsS c) (spaced isSpace (anyCase ['b', 'y'])) :=
  Substitution.over_spaced (Substitution.over_anyCase (by simp [IsS]))
    (Substitution.starts_anyCase (by decide)) fun _ => not_isS_of_isSpace

theorem over_gapBy : Over (fun c => ¬IsS c) gapBy := by
  intro t rest h
  cases t with
  | nil => cases h
  | cons c t =>
    unfold gapBy at h
    dsimp only at h
    split at h
    · rename_i hc
      obtain ⟨w, hw, hS, hreads⟩ := over_spaced_by _ _ h
      cases w with
      | nil =>
        -- the match is not empty
        have := hreads []
        cases this
      | cons d w =>
        obtain ⟨rfl, rfl⟩ := List.cons.inj hw
        refine ⟨c :: w, rfl, hS, fun rest' => ?_⟩
        change (if isSpace c then spaced isSpace (anyCase ['b', 'y']) (c :: (w ++ rest'))
          else none) = some rest'
        rw [if_pos hc]
        exact hreads rest'
    · cases h

theorem blocks_regex (le : Bool) : Blocks IsS (regex le) :=
  Substitution.blocks_seq (Substitution.blocks_lit (by decide) (by simp [IsS])) (over_labels le)

theorem blocks_sumBy (le : Bool) : Blocks IsS (sumBy le) := by
  refine Substitution.blocks_seq (Substitution.blocks_anyCase (by decide) (by simp [IsS])) ?_
  intro m hm
  rcases List.mem_cons.mp hm with rfl | hm
  · exact over_gapBy
  · exact over_labels le m hm

theorem over_byAfter (le : Bool) : Over (fun c => ¬IsS c) (byAfter le) := by
  refine Substitution.over_seq ?_
  intro m hm
  rcases List.mem_cons.mp hm with rfl | hm
  · exact over_spaced_by
  · exact over_labels le m hm

/-- A sum and the parenthesis of its argument. -/
def sumOpen : Matcher := seq [anyCase ['s', 'u', 'm'], spaced isSpace (lit ['('])]

theorem blocks_sumOpen : Blocks IsS sumOpen := by
  refine Substitution.blocks_seq (Substitution.blocks_anyCase (by decide) (by simp [IsS])) ?_
  intro m hm
  rw [List.mem_singleton.mp hm]
  exact over_spaced_lit (by decide) (by simp [IsS])

/-- What the regular expressions match is a sum with the grouping in front of it. -/
theorem sumBy_of_regex {le : Bool} {t rest : Text} (h : regex le t = some rest) :
    sumBy le t = some rest := by
  obtain ⟨t₁, ht₁, hrest⟩ := Option.bind_eq_some_iff.mp h
  obtain rfl := eq_of_lit ht₁
  exact hrest

/-- It is no sum with the argument first. -/
theorem sumOpen_of_regex {le : Bool} {t rest : Text} (h : regex le t = some rest) :
    sumOpen t = none := by
  obtain ⟨t₁, ht₁, -⟩ := Option.bind_eq_some_iff.mp h
  obtain rfl := eq_of_lit ht₁
  rfl

theorem isBlock_tagged (le : Bool) : IsBlock IsS (tagged le) := by
  cases le
  · exact ⟨'s', _, rfl, by decide, by simp [IsS, tenantMark]⟩
  · exact ⟨'s', _, rfl, by decide, by simp [IsS, tenantMark]⟩

/-- What is put in is no sum that has to be rewritten. -/
theorem sumBy_tagged (le le' : Bool) (rest : Text) : sumBy le' (tagged le ++ rest) = none := by
  cases le <;> cases le' <;> rfl

theorem sumOpen_tagged (le : Bool) (rest : Text) : sumOpen (tagged le ++ rest) = none := by
  cases le <;> rfl

/-! ## Arguments of a sum -/

theorem closes_append {u : Text} (hu : ∀ c ∈ u, c ≠ '(' ∧ c ≠ ')') (depth : Nat) (t : Text) :
    closes depth (u ++ t) = closes depth t := by
  induction u with
  | nil => rfl
  | cons c u ih =>
    obtain ⟨hopen, hclose⟩ := hu c List.mem_cons_self
    rw [List.cons_append, closes, if_neg hopen, if_neg hclose]
    exact ih fun d hd => hu d (List.mem_cons_of_mem c hd)

/-- A grouping in front of a sum: one pair of parentheses, at its end. -/
def IsClause (w : Text) : Prop :=
  IsBlock IsS w ∧ (∀ rest, sumOpen (w ++ rest) = none) ∧
    ∃ u v, w = u ++ '(' :: (v ++ [')']) ∧ (∀ c ∈ u, c ≠ '(' ∧ c ≠ ')') ∧
      ∀ c ∈ v, c ≠ '(' ∧ c ≠ ')'

theorem isClause_tagged (le : Bool) : IsClause (tagged le) := by
  refine ⟨isBlock_tagged le, sumOpen_tagged le, ['s', 'u', 'm', ' ', 'b', 'y', ' '],
    (if le then ['l', 'e', ',', ' '] else []) ++
      ['e', 'n', 'd', 'p', 'o', 'i', 'n', 't', ',', ' ', 't', 'e', 'n', 'a', 'n', 't'], ?_, ?_, ?_⟩
  · cases le <;> rfl
  · simp
  · cases le <;> simp

theorem not_paren_of_isSpace {c : Char} (h : isSpace c = true) : c ≠ '(' ∧ c ≠ ')' := by
  constructor
  · rintro rfl
    exact absurd h (by decide)
  · rintro rfl
    exact absurd h (by decide)

/-- One character after white space. -/
theorem eq_of_spaced_lit {k : Char} {t rest : Text} (h : spaced isSpace (lit [k]) t = some rest) :
    ∃ gap, t = gap ++ k :: rest ∧ ∀ c ∈ gap, isSpace c = true := by
  refine ⟨t.takeWhile isSpace, ?_, fun c hc => List.mem_takeWhile_imp hc⟩
  have hrest : t.dropWhile isSpace = [k] ++ rest := eq_of_lit h
  rw [← List.singleton_append, ← hrest, List.takeWhile_append_dropWhile]

/-- Between the parentheses of a grouping. -/
def inner (le : Bool) : List Matcher :=
  (if le then [spaced isSpace (lit ['l', 'e']), spaced isSpace (lit [','])] else []) ++
    [spaced isSpace (lit ['e', 'n', 'd', 'p', 'o', 'i', 'n', 't'])]

theorem over_inner (le : Bool) : ∀ m ∈ inner le, Over (fun c => c ≠ '(' ∧ c ≠ ')') m := by
  have hlit : ∀ {k : Char} {word : Text}, isSpace k = false →
      (∀ c ∈ k :: word, c ≠ '(' ∧ c ≠ ')') →
      Over (fun c => c ≠ '(' ∧ c ≠ ')') (spaced isSpace (lit (k :: word))) :=
    fun hk hword => Substitution.over_spaced (Substitution.over_lit hword)
      (Substitution.starts_lit hk) fun _ => not_paren_of_isSpace
  have hle := @hlit 'l' ['e'] (by decide) (by simp)
  have hcomma := @hlit ',' [] (by decide) (by simp)
  have hendpoint := @hlit 'e' ['n', 'd', 'p', 'o', 'i', 'n', 't'] (by decide) (by simp)
  unfold inner
  cases le <;> simp_all

theorem isClause_of_reads {le : Bool} {w : Text} (h : Reads (regex le) w) : IsClause w := by
  refine ⟨(blocks_regex le).isBlock h, fun rest => sumOpen_of_regex (h rest), ?_⟩
  have hw := h []
  rw [List.append_nil] at hw
  have hregex : regex le = seq ([lit ['s', 'u', 'm', ' ', 'b', 'y'], spaced isSpace (lit ['('])] ++
      (inner le ++ [spaced isSpace (lit [')'])])) := by
    cases le <;> rfl
  rw [hregex, seq_append] at hw
  obtain ⟨t₂, ht₂, hinner⟩ := Option.bind_eq_some_iff.mp hw
  rw [seq_append] at hinner
  obtain ⟨t₃, ht₃, hlast⟩ := Option.bind_eq_some_iff.mp hinner
  obtain ⟨t₁, ht₁, ht₂⟩ := Option.bind_eq_some_iff.mp ht₂
  obtain ⟨t₂', ht₂', heq⟩ := Option.bind_eq_some_iff.mp ht₂
  obtain rfl := Option.some.inj heq
  obtain ⟨t₄, ht₄, heq⟩ := Option.bind_eq_some_iff.mp hlast
  obtain rfl := Option.some.inj heq
  obtain ⟨gap, hgap, hspace⟩ := eq_of_spaced_lit ht₂'
  obtain ⟨v, hv, hparens, -⟩ := Substitution.over_seq (over_inner le) _ _ ht₃
  obtain ⟨gap', hgap', hspace'⟩ := eq_of_spaced_lit ht₄
  have hword : ∀ c ∈ (['s', 'u', 'm', ' ', 'b', 'y'] : Text), c ≠ '(' ∧ c ≠ ')' := by simp
  refine ⟨['s', 'u', 'm', ' ', 'b', 'y'] ++ gap, v ++ gap', ?_, ?_, ?_⟩
  · rw [eq_of_lit ht₁, hgap, hv, hgap']
    simp [List.append_assoc]
  · intro c hc
    rcases List.mem_append.mp hc with hc | hc
    · exact hword c hc
    · exact not_paren_of_isSpace (hspace c hc)
  · intro c hc
    rcases List.mem_append.mp hc with hc | hc
    · exact hparens c hc
    · exact not_paren_of_isSpace (hspace' c hc)

theorem IsClause.closes_append {w : Text} (hw : IsClause w) (depth : Nat) (t : Text) :
    closes depth (w ++ t) = closes depth t := by
  obtain ⟨-, -, u, v, rfl, hu, hv⟩ := hw
  rw [List.append_assoc, TenantGrouping.closes_append hu, List.cons_append, closes, if_pos rfl,
    List.append_assoc, TenantGrouping.closes_append hv, List.singleton_append, closes,
    if_neg (by decide), if_pos rfl]
  simp

/-- An argument does not end inside of a grouping. -/
theorem IsClause.cut_close {w a x t : Text} {depth : Nat} (hw : IsClause w)
    (ha : closes depth a = true) (h : w ++ t = a ++ ')' :: x) :
    ∃ a', a = w ++ a' ∧ t = a' ++ ')' :: x := by
  rcases List.append_eq_append_iff.mp h with ⟨a', rfl, ht⟩ | ⟨y, hy, hx⟩
  · exact ⟨a', rfl, ht⟩
  · obtain ⟨-, -, u, v, hclause, hu, hv⟩ := hw
    cases y with
    | nil =>
      rw [List.append_nil] at hy
      exact ⟨[], by rw [List.append_nil, hy], hx.symm⟩
    | cons e y =>
      obtain ⟨rfl, -⟩ := List.cons.inj hx
      rw [hclause] at hy
      have hdrop := congrArg List.dropLast hy
      have hleft : (u ++ '(' :: (v ++ [')'])).dropLast = u ++ '(' :: v := by
        have happend : u ++ '(' :: (v ++ [')']) = (u ++ '(' :: v) ++ [')'] := by simp
        rw [happend, List.dropLast_concat]
      rw [hleft] at hdrop
      exfalso
      cases y with
      | nil =>
        -- the parenthesis of the grouping would be open in the argument
        rw [List.dropLast_concat] at hdrop
        rw [← hdrop, TenantGrouping.closes_append hu, closes, if_pos rfl] at ha
        have hnil := TenantGrouping.closes_append hv (depth + 1) []
        rw [List.append_nil] at hnil
        rw [hnil] at ha
        simp [closes] at ha
      | cons f y =>
        rw [List.dropLast_append_of_ne_nil (List.cons_ne_nil _ _)] at hdrop
        have hmem : ')' ∈ u ++ '(' :: v := by
          rw [hdrop]
          simp
        rcases List.mem_append.mp hmem with hmem | hmem
        · exact (hu _ hmem).2 rfl
        · rcases List.mem_cons.mp hmem with hmem | hmem
          · exact absurd hmem (by decide)
          · exact (hv _ hmem).2 rfl

/-- Groupings in the place of groupings. -/
def Regrouped : Text → Text → Prop :=
  Rewrites (fun _ => True) fun w w' => IsClause w ∧ IsClause w'

theorem Regrouped.symm {t t' : Text} (h : Regrouped t t') : Regrouped t' t :=
  (Rewrites.symm h).mono (fun _ _ => trivial) fun _ _ hw => ⟨hw.2, hw.1⟩

/-- The argument of a sum stays one. -/
theorem Regrouped.argument {s s' : Text} (h : Regrouped s s') {a x : Text} {depth : Nat}
    (hs : s = a ++ ')' :: x) (ha : closes depth a = true) :
    ∃ a' x', s' = a' ++ ')' :: x' ∧ closes depth a' = true ∧ Regrouped x x' := by
  induction h generalizing a depth with
  | nil => simp at hs
  | @keep c t t' _ ht ih =>
    cases a with
    | nil =>
      obtain ⟨rfl, rfl⟩ := List.cons.inj hs
      exact ⟨[], t', rfl, ha, ht⟩
    | cons d a =>
      obtain ⟨rfl, hs'⟩ := List.cons.inj hs
      unfold closes at ha
      split at ha
      · rename_i hopen
        obtain ⟨a', x', rfl, ha', hx⟩ := ih hs' ha
        refine ⟨c :: a', x', rfl, ?_, hx⟩
        rw [closes, if_pos hopen, ha']
      · rename_i hopen
        split at ha
        · rename_i hclose
          rw [Bool.and_eq_true] at ha
          obtain ⟨a', x', rfl, ha', hx⟩ := ih hs' ha.2
          refine ⟨c :: a', x', rfl, ?_, hx⟩
          rw [closes, if_neg hopen, if_pos hclose, ha', ha.1]
          rfl
        · rename_i hclose
          obtain ⟨a', x', rfl, ha', hx⟩ := ih hs' ha
          refine ⟨c :: a', x', rfl, ?_, hx⟩
          rw [closes, if_neg hopen, if_neg hclose, ha']
  | @swap w w' t t' hw ht ih =>
    obtain ⟨a₁, rfl, ht₁⟩ := hw.1.cut_close ha hs
    rw [hw.1.closes_append] at ha
    obtain ⟨a', x', rfl, ha', hx⟩ := ih ht₁ ha
    refine ⟨w' ++ a', x', (List.append_assoc ..).symm, ?_, hx⟩
    rw [hw.2.closes_append, ha']

/-- A sum with the grouping behind its argument stays one. -/
theorem Regrouped.sumThenBy {t t' : Text} (h : Regrouped t t') {le : Bool}
    (ht : SumThenBy le t) : SumThenBy le t' := by
  obtain ⟨argument, rest, hopen, hcloses, hby⟩ := ht
  obtain ⟨c, u, rfl, hc, hu, hreads⟩ := blocks_sumOpen _ _ hopen
  generalize hs : c :: (u ++ (argument ++ ')' :: rest)) = s at h
  cases h with
  | nil => cases hs
  | keep _ ht =>
    obtain ⟨rfl, rfl⟩ := List.cons.inj hs
    obtain ⟨x, rfl, hx⟩ := ht.follow_left (fun _ _ hw => hw.1.1) hu
    obtain ⟨argument', rest', rfl, hcloses', hrest⟩ := Regrouped.argument hx rfl hcloses
    refine ⟨argument', rest', hreads _, hcloses', ?_⟩
    obtain ⟨r, hr⟩ := Option.isSome_iff_exists.mp hby
    obtain ⟨w, rfl, hw, hread⟩ := over_byAfter le _ _ hr
    obtain ⟨r', rfl, -⟩ := Rewrites.follow_left (fun _ _ hw => hw.1.1) hw hrest
    rw [hread]
    rfl
  | @swap w w' t t' hw _ =>
    have hnone := hw.1.2.1 t
    rw [← hs] at hnone
    rw [sumOpen, hopen] at hnone
    cases hnone

/-! ## What is injected -/

/-- The expression and what the substitutions make of it. -/
def Injected : Text → Text → Prop :=
  Rewrites (fun t => ∀ le, regex le t = none) fun w w' => ∃ le, Reads (regex le) w ∧ w' = tagged le

theorem injected_sub (expr : Text) :
    Injected expr (sub (regex false) (tagged false) 0 (sub (regex true) (tagged true) 0 expr)) := by
  have hnone : ∀ rest, regex false (tagged true ++ rest) = none := fun rest => rfl
  refine (Substitution.rewrites_sub_sub (blocks_regex true) (blocks_regex false)
    (isBlock_tagged true) (isBlock_tagged false) hnone expr).mono ?_ ?_
  · rintro t ⟨htrue, hfalse⟩ le
    cases le
    · exact hfalse
    · exact htrue
  · rintro w w' (⟨hreads, rfl⟩ | ⟨hreads, rfl⟩)
    · exact ⟨true, hreads, rfl⟩
    · exact ⟨false, hreads, rfl⟩

theorem Injected.isBlock_left {w w' : Text} (h : ∃ le, Reads (regex le) w ∧ w' = tagged le) :
    IsBlock IsS w := by
  obtain ⟨le, hreads, -⟩ := h
  exact (blocks_regex le).isBlock hreads

theorem Injected.isBlock_right {w w' : Text} (h : ∃ le, Reads (regex le) w ∧ w' = tagged le) :
    IsBlock IsS w' := by
  obtain ⟨le, -, rfl⟩ := h
  exact isBlock_tagged le

theorem Injected.regrouped {t t' : Text} (h : Injected t t') : Regrouped t t' := by
  refine Rewrites.mono (fun _ _ => trivial) ?_ h
  rintro w w' ⟨le, hreads, rfl⟩
  exact ⟨isClause_of_reads hreads, isClause_tagged le⟩

theorem Injected.onlyGroupings {t t' : Text} (h : Injected t t') : OnlyGroupings t t' := by
  refine Rewrites.mono (fun _ _ => trivial) ?_ h
  rintro w w' ⟨le, hreads, rfl⟩
  exact ⟨le, fun rest => sumBy_of_regex (hreads rest), rfl⟩

/-- Nothing is put in, or the mark of a tenant is there. -/
theorem Injected.eq_or_mark {t t' : Text} (h : Injected t t') : t' = t ∨ tenantMark <:+: t' := by
  induction h with
  | nil => exact .inl rfl
  | keep _ _ ih =>
    rcases ih with rfl | hmark
    · exact .inl rfl
    · exact .inr (hmark.trans (List.suffix_cons _ _).isInfix)
  | @swap w w' t t' hw _ _ =>
    obtain ⟨le, -, rfl⟩ := hw
    exact .inr ⟨['s', 'u', 'm', ' ', 'b', 'y', ' ', '('] ++
      (if le then ['l', 'e', ',', ' '] else []) ++ ['e', 'n', 'd', 'p', 'o', 'i', 'n', 't'],
      t', rfl⟩

theorem any_mark_iff (expr : Text) :
    (expr.tails.any fun t => tenantMark.isPrefixOf t) = true ↔ tenantMark <:+: expr := by
  rw [List.any_eq_true, List.infix_iff_prefix_suffix]
  constructor
  · rintro ⟨t, ht, hprefix⟩
    exact ⟨t, List.isPrefixOf_iff_prefix.mp hprefix, (List.mem_tails _ _).mp ht⟩
  · rintro ⟨t, hprefix, hsuffix⟩
    exact ⟨t, (List.mem_tails _ _).mpr hsuffix, List.isPrefixOf_iff_prefix.mpr hprefix⟩

/-- With the mark nothing is done, without it the substitutions are. -/
theorem inject_cases (expr : Text) :
    (tenantMark <:+: expr ∧ injectTenantIntoPromql expr = expr) ∨
      (¬tenantMark <:+: expr ∧ Injected expr (injectTenantIntoPromql expr)) := by
  by_cases hmark : tenantMark <:+: expr
  · refine .inl ⟨hmark, ?_⟩
    unfold injectTenantIntoPromql
    rw [if_pos ((any_mark_iff expr).mpr hmark)]
    split <;> rfl
  · refine .inr ⟨hmark, ?_⟩
    unfold injectTenantIntoPromql
    rw [if_neg fun h => hmark ((any_mark_iff expr).mp h)]
    split
    · rename_i hempty
      rw [hempty]
      exact .nil
    · exact injected_sub expr

/-- Once is enough. -/
theorem inject_idempotent (expr : Text) :
    injectTenantIntoPromql (injectTenantIntoPromql expr) = injectTenantIntoPromql expr := by
  have hmarked : ∀ t, tenantMark <:+: t → injectTenantIntoPromql t = t := by
    intro t ht
    rcases inject_cases t with ⟨-, heq⟩ | ⟨hnot, -⟩
    · exact heq
    · exact absurd ht hnot
  rcases inject_cases expr with ⟨-, heq⟩ | ⟨-, hinjected⟩
  · rw [heq, heq]
  · rcases hinjected.eq_or_mark with heq | hmark
    · rw [heq, heq]
    · exact hmarked _ hmark

theorem onlyGroupings_refl (t : Text) : OnlyGroupings t t := by
  induction t with
  | nil => exact .nil
  | cons c t ih => exact .keep trivial ih

theorem inject_onlyGroupings (expr : Text) : OnlyGroupings expr (injectTenantIntoPromql expr) := by
  rcases inject_cases expr with ⟨-, heq⟩ | ⟨-, hinjected⟩
  · rw [heq]
    exact onlyGroupings_refl expr
  · exact hinjected.onlyGroupings

/-- It begins with the letter of a sum. -/
theorem Grouped.exists_cons {t : Text} (h : Grouped t) : ∃ c u, t = c :: u ∧ IsS c := by
  obtain ⟨le, hsum | ⟨argument, rest, hopen, -, -⟩⟩ := h
  · obtain ⟨r, hr⟩ := Option.isSome_iff_exists.mp hsum
    obtain ⟨c, u, rfl, hc, -, -⟩ := blocks_sumBy le _ _ hr
    exact ⟨c, _, rfl, hc⟩
  · obtain ⟨c, u, rfl, hc, -, -⟩ := blocks_sumOpen _ _ hopen
    exact ⟨c, _, rfl, hc⟩

/-- A sum that the regular expressions do not match is left over. -/
theorem Injected.leaves {t t' : Text} (h : Injected t t') (hgrouped : Grouped t)
    (hregex : ∀ le, regex le t = none) : Grouped t' := by
  obtain ⟨le, hsum | hthen⟩ := hgrouped
  · obtain ⟨r, hr⟩ := Option.isSome_iff_exists.mp hsum
    obtain ⟨c, u, rfl, -, hu, hreads⟩ := blocks_sumBy le _ _ hr
    generalize hs : c :: (u ++ r) = s at h
    cases h with
    | nil => cases hs
    | keep _ ht =>
      obtain ⟨rfl, rfl⟩ := List.cons.inj hs
      obtain ⟨x, rfl, -⟩ := ht.follow_left (fun _ _ hw => Injected.isBlock_left hw) hu
      refine ⟨le, .inl ?_⟩
      rw [hreads]
      rfl
    | @swap w w' t t' hw _ =>
      obtain ⟨le', hreads', -⟩ := hw
      have hnone := hregex le'
      rw [hs, hreads'] at hnone
      cases hnone
  · exact ⟨le, .inr (h.regrouped.sumThenBy hthen)⟩

/-- A sum in the result that has to be rewritten was one before, and was not matched. -/
theorem Injected.grouped_before {t t' : Text} (h : Injected t t') (hgrouped : Grouped t') :
    Grouped t ∧ ∀ le, regex le t = none := by
  obtain ⟨le, hsum | hthen⟩ := hgrouped
  · obtain ⟨r, hr⟩ := Option.isSome_iff_exists.mp hsum
    obtain ⟨c, u, rfl, -, hu, hreads⟩ := blocks_sumBy le _ _ hr
    generalize hs : c :: (u ++ r) = s at h
    cases h with
    | nil => cases hs
    | keep hnone ht =>
      obtain ⟨rfl, rfl⟩ := List.cons.inj hs
      obtain ⟨x, rfl, -⟩ := ht.follow_right (fun _ _ hw => Injected.isBlock_right hw) hu
      refine ⟨⟨le, .inl ?_⟩, hnone⟩
      rw [hreads]
      rfl
    | @swap w w' t t' hw _ =>
      obtain ⟨le', -, rfl⟩ := hw
      have hnone := sumBy_tagged le' le t'
      rw [← hs, hr] at hnone
      cases hnone
  · have hbefore := h.regrouped.symm.sumThenBy hthen
    refine ⟨⟨le, .inr hbefore⟩, fun le' => ?_⟩
    -- after this sum comes its argument
    cases hmatch : regex le' t with
    | none => rfl
    | some rest =>
      obtain ⟨argument, rest', hopen, -, -⟩ := hbefore
      have hnone := sumOpen_of_regex hmatch
      rw [sumOpen, hopen] at hnone
      cases hnone

/-- **Tenant grouping is injected everywhere**, once is enough and nothing else is changed, if and
only if every sum that groups by `(endpoint)` or `(le, endpoint)` is written as the regular
expressions have it and, where there is one, no other clause has the tenant. -/
theorem tenant_grouping_iff (expr : Text) : Injects expr ↔ Matched expr := by
  constructor
  · rintro ⟨-, -, heverywhere⟩
    rcases inject_cases expr with ⟨-, heq⟩ | ⟨hmark, hinjected⟩
    · rw [heq] at heverywhere
      exact ⟨fun h => absurd h heverywhere,
        fun before t heq hgrouped => absurd ⟨before, t, heq, hgrouped⟩ heverywhere⟩
    · refine ⟨fun _ => hmark, fun before t heq hgrouped => ?_⟩
      by_contra hnot
      have hregex : ∀ le, regex le t = none := by
        intro le
        cases hmatch : regex le t with
        | none => rfl
        | some rest => exact absurd ⟨le, by rw [hmatch]; rfl⟩ hnot
      obtain ⟨c, u, rfl, hc⟩ := hgrouped.exists_cons
      obtain ⟨before', t', heq', ht'⟩ :=
        hinjected.split_left (fun _ _ hw => Injected.isBlock_left hw) hc heq
      exact heverywhere ⟨before', t', heq', Injected.leaves ht' hgrouped hregex⟩
  · rintro ⟨hmark, hmatched⟩
    refine ⟨inject_idempotent expr, inject_onlyGroupings expr, ?_⟩
    rcases inject_cases expr with ⟨hmarked, heq⟩ | ⟨-, hinjected⟩
    · rw [heq]
      exact fun h => hmark h hmarked
    · rintro ⟨before', t', heq', hgrouped⟩
      obtain ⟨c, u, rfl, hc⟩ := hgrouped.exists_cons
      obtain ⟨before, t, heq, ht⟩ :=
        hinjected.split_right (fun _ _ hw => Injected.isBlock_right hw) hc heq'
      obtain ⟨hbefore, hnone⟩ := Injected.grouped_before ht hgrouped
      obtain ⟨le, hle⟩ := hmatched before t heq hbefore
      rw [hnone le] at hle
      cases hle

/-- `sum by (endpoint, tenant)(e) / sum by (endpoint)(a)`: a ratio of which one side has the tenant
already. -/
def ratio : Text :=
  tagged false ++ ['(', 'e', ')', ' ', '/', ' ', 's', 'u', 'm', ' ', 'b', 'y', ' ', '(', 'e', 'n',
    'd', 'p', 'o', 'i', 'n', 't', ')', '(', 'a', ')']

/-- The other side stays without it. -/
theorem ratio_without_tenant : ¬Injects ratio := by
  intro h
  have heq : injectTenantIntoPromql ratio = ratio := by decide +kernel
  have heverywhere := h.everywhere
  rw [heq] at heverywhere
  refine heverywhere ⟨ratio.take 31, ratio.drop 31, (List.take_append_drop 31 ratio).symm, false,
    .inl ?_⟩
  decide +kernel

end Ai4iCore.Alert.TenantGrouping
