import Ai4iCore.Base.Checked
import Ai4iCore.Base.Significant
import Ai4iCore.Usage.Backfill
import Mathlib.Algebra.Order.BigOperators.Group.List

/-!
# The rows of a backfilled day

`build_day_rows` folds three result sets into rows by institution, application and service. The sums
are decimal sums of 28 digits, rounded to whole figures when the row is built, and both the labels
and the figures can make it raise: `int` refuses some texts that `isdigit` takes, and `quantize`
refuses a figure of more than 28 digits (`odd_labels`, where also a token type is called `requests`).

`day_rows_conserve`: in all other cases the rows are those of `buildDayRows`, every row has the
rounded sums of all series of its key, and only what rounds to nothing is left out.
-/

namespace Ai4iCore.Usage.BackfillDay

open Relational

/-! ## What raises -/

/-- `_label_int`, where it raises: `int` refuses the text. -/
def labelRaises (value : Option String) : Bool :=
  value.any fun text => UnicodeDigits.isDigit text.toList && (UnicodeDigits.int text.toList).isNone

/-- The key of a series, none without a numeric `tenant_id`; the application is read after it. -/
def seriesKey (lookups : Lookups) (labels : SeriesLabels) : Except Unit (Option TotalsKey) :=
  if labelRaises labels.tenantId then .error ()
  else if labelInt labels.tenantId = none then .ok none
  else if labelRaises labels.applicationId then .error ()
  else .ok (lookups.key labels)

/-- `kind` or the token type. -/
def nameOf (kind : QueryKind) (labels : SeriesLabels) : Option String :=
  if kind = .tokens then labels.tokenType else some kind.name

/-- The additions of a series. -/
def growthOf (lookups : Lookups) (kind : QueryKind) (series : Series) :
    Except Unit (Option Growth) :=
  (seriesKey lookups series.metric).map fun key =>
    key.map fun key => ⟨key, nameOf kind series.metric, series.value⟩

/-- All series with their kinds, in the order of the queries. -/
def allSeries (results : QueryKind → List Series) : List (QueryKind × Series) :=
  [QueryKind.requests, .successful, .tokens].flatMap fun kind =>
    (results kind).map fun series => (kind, series)

/-- The names whose totals a row has. -/
def figures : List String := ["requests", "successful", "prompt", "completion"]

/-- The totals of a key: sums of 28 digits. -/
def decimalTotals (key : TotalsKey) (t : List Growth) : List Growth :=
  figures.map fun name =>
    ⟨key, some name,
      Rounding.sumWith 28 ((t.filter fun g => g.name = some name).map Growth.value)⟩

/-- The row of one key; `quantize` raises on a figure of more than 28 digits. -/
def rowOrRaise (day : Int) (lookups : Lookups) (key : TotalsKey) (t : List Growth) :
    Except Unit (Option NewRow) :=
  if figures.all fun name => |Rounding.halfUp (total (decimalTotals key t) name)| < 10 ^ 28 then
    .ok (dayRow day lookups key (decimalTotals key t))
  else .error ()

/-- `build_day_rows`, with what it raises. -/
def rowsOrRaise (day : Int) (results : QueryKind → List Series) (lookups : Lookups) :
    Except Unit (List NewRow) := do
  let growths ← (allSeries results).mapM fun s => growthOf lookups s.1 s.2
  let rows ← (groupBy Growth.key growths.reduceOption).mapM fun g =>
    rowOrRaise day lookups g.1 g.2
  return rows.reduceOption

/-! ## The sums of a key -/

section Sums

variable {results : QueryKind → List Series} {lookups : Lookups} {key : TotalsKey}

/-- The sum over the series of a key. -/
def sumOf (lookups : Lookups) (key : TotalsKey) (series : List Series) : ℚ :=
  ((series.filter fun s => lookups.key s.metric = some key).map Series.value).sum

/-- The tokens of a type. -/
def ofType (type : String) (series : List Series) : List Series :=
  series.filter fun s => s.metric.tokenType = some type

/-- The additions of a series that has a key. -/
def growth (lookups : Lookups) (s : QueryKind × Series) : Option Growth :=
  (lookups.key s.2.metric).map fun key => ⟨key, nameOf s.1 s.2.metric, s.2.value⟩

theorem growths_eq (results : QueryKind → List Series) (lookups : Lookups) :
    growths results lookups = (allSeries results).filterMap (growth lookups) := by
  rw [growths, allSeries, List.filterMap_flatMap]
  refine List.flatMap_congr fun kind _ => ?_
  rw [List.filterMap_map]
  rfl

/-- The additions of the series of one kind to a figure of a key. -/
theorem total_filterMap (kind : QueryKind) (series : List Series) (name : String) :
    total (((series.map fun s => (kind, s)).filterMap (growth lookups)).filter
        fun g => g.key = key) name =
      sumOf lookups key (series.filter fun s => nameOf kind s.metric = some name) := by
  induction series with
  | nil => rfl
  | cons s series ih =>
    unfold total sumOf at ih ⊢
    rw [List.map_cons, List.filterMap_cons, growth]
    cases hkey : lookups.key s.metric with
    | none =>
      rw [Option.map_none]
      dsimp only
      rw [ih]
      by_cases hname : nameOf kind s.metric = some name
      · rw [List.filter_cons_of_pos (by simpa using hname),
          List.filter_cons_of_neg (by simp [hkey])]
      · rw [List.filter_cons_of_neg (by simpa using hname)]
    | some k =>
      rw [Option.map_some]
      dsimp only
      by_cases hk : k = key
      · subst hk
        rw [List.filter_cons_of_pos (by simp)]
        by_cases hname : nameOf kind s.metric = some name
        · rw [List.filter_cons_of_pos (by simpa using hname),
            List.filter_cons_of_pos (by simpa using hname),
            List.filter_cons_of_pos (by simpa using hkey), List.map_cons, List.map_cons,
            List.sum_cons, List.sum_cons, ih]
        · rw [List.filter_cons_of_neg (by simpa using hname),
            List.filter_cons_of_neg (by simpa using hname), ih]
      · rw [List.filter_cons_of_neg (by simpa using hk), ih]
        by_cases hname : nameOf kind s.metric = some name
        · rw [List.filter_cons_of_pos (by simpa using hname),
            List.filter_cons_of_neg (by simpa [hkey] using hk)]
        · rw [List.filter_cons_of_neg (by simpa using hname)]

theorem total_append (t t' : List Growth) (name : String) :
    total (t ++ t') name = total t name + total t' name := by
  rw [total, List.filter_append, List.map_append, List.sum_append]
  rfl

/-- A figure of a key has the additions of all three queries. -/
theorem total_growths (results : QueryKind → List Series) (name : String) :
    total ((growths results lookups).filter fun g => g.key = key) name =
      sumOf lookups key ((results .requests).filter fun s => nameOf .requests s.metric = some name) +
        sumOf lookups key
          ((results .successful).filter fun s => nameOf .successful s.metric = some name) +
        sumOf lookups key ((results .tokens).filter fun s => nameOf .tokens s.metric = some name) := by
  rw [growths_eq, allSeries]
  simp only [List.flatMap_cons, List.flatMap_nil, List.append_nil, List.filterMap_append,
    List.filter_append, total_append, total_filterMap]
  rw [add_assoc]

theorem sumOf_nil : sumOf lookups key [] = 0 := rfl

/-- A figure that only the tokens have. -/
theorem total_growths_tokens {type : String} (hrequests : type ≠ "requests")
    (hsuccessful : type ≠ "successful") :
    total ((growths results lookups).filter fun g => g.key = key) type =
      sumOf lookups key (ofType type (results .tokens)) := by
  have hnone : ∀ name : String, type ≠ name → ∀ series : List Series,
      (series.filter fun _ => some name = some type) = [] := by
    intro name hname series
    exact List.filter_eq_nil_iff.mpr fun s _ => by simpa using Ne.symm hname
  rw [total_growths]
  show sumOf lookups key ((results .requests).filter fun _ => some "requests" = some type) +
    sumOf lookups key ((results .successful).filter fun _ => some "successful" = some type) +
      sumOf lookups key (ofType type (results .tokens)) = _
  rw [hnone _ hrequests, hnone _ hsuccessful, sumOf_nil, add_zero, zero_add]

/-- No token type adds to the requests when none is called so. -/
theorem total_growths_requests
    (htypes : ∀ s ∈ results .tokens, s.metric.tokenType ≠ some "requests") :
    total ((growths results lookups).filter fun g => g.key = key) "requests" =
      sumOf lookups key (results .requests) := by
  rw [total_growths]
  have hall : ((results .requests).filter fun s => nameOf .requests s.metric = some "requests") =
      results .requests := List.filter_eq_self.mpr fun s _ => decide_eq_true rfl
  have hsuccessful : ((results .successful).filter
      fun s => nameOf .successful s.metric = some "requests") = [] :=
    List.filter_eq_nil_iff.mpr fun s _ => by simp [nameOf, QueryKind.name]
  have htokens : ((results .tokens).filter fun s => nameOf .tokens s.metric = some "requests") =
      [] := List.filter_eq_nil_iff.mpr fun s hs => by simpa [nameOf] using htypes s hs
  rw [hall, hsuccessful, htokens, sumOf_nil, add_zero, add_zero]

end Sums

/-! ## Figures that have room -/

/-- Non-negative values of a common scale, with a sum of less than 28 digits at that scale. -/
def HasRoom (results : QueryKind → List Series) : Prop :=
  (∀ s ∈ allSeries results, 0 ≤ s.2.value) ∧
    ∃ scale, (∀ s ∈ allSeries results, Rounding.HasScale scale s.2.value) ∧
      ((allSeries results).map fun s => s.2.value).sum * 10 ^ scale < 10 ^ 28

section Room

variable {results : QueryKind → List Series} {lookups : Lookups} {key : TotalsKey}
  {t : List Growth}

theorem sublist_growths :
    ((growths results lookups).map Growth.value).Sublist
      ((allSeries results).map fun s => s.2.value) := by
  rw [growths_eq]
  induction allSeries results with
  | nil => exact .slnil
  | cons s series ih =>
    rw [List.filterMap_cons, growth]
    cases hkey : lookups.key s.2.metric with
    | none => exact ih.cons _
    | some key => exact ih.cons_cons _

/-- The additions to a figure are values of some of the series. -/
theorem sublist_figure (ht : t.Sublist (growths results lookups)) (name : String) :
    ((t.filter fun g => g.name = some name).map Growth.value).Sublist
      ((allSeries results).map fun s => s.2.value) :=
  ((List.filter_sublist.trans ht).map _).trans sublist_growths

theorem total_nonneg (hroom : HasRoom results) (ht : t.Sublist (growths results lookups))
    (name : String) : 0 ≤ total t name := by
  refine List.sum_nonneg fun x hx => ?_
  obtain ⟨s, hs, rfl⟩ := List.mem_map.mp ((sublist_figure ht name).subset hx)
  exact hroom.1 s hs

theorem sum_le_all (hroom : HasRoom results) (ht : t.Sublist (growths results lookups))
    (name : String) : total t name ≤ ((allSeries results).map fun s => s.2.value).sum := by
  refine (sublist_figure ht name).sum_le_sum fun x hx => ?_
  obtain ⟨s, hs, rfl⟩ := List.mem_map.mp hx
  exact hroom.1 s hs

/-- The decimal sums lose no digit. -/
theorem sumWith_figure (hroom : HasRoom results) (ht : t.Sublist (growths results lookups))
    (name : String) :
    Rounding.sumWith 28 ((t.filter fun g => g.name = some name).map Growth.value) =
      total t name := by
  obtain ⟨hnonneg, scale, hscale, hsum⟩ := hroom
  have hsub := sublist_figure ht name
  have hvalue : ∀ x ∈ (t.filter fun g => g.name = some name).map Growth.value,
      0 ≤ x ∧ Rounding.HasScale scale x := by
    intro x hx
    obtain ⟨s, hs, rfl⟩ := List.mem_map.mp (hsub.subset hx)
    exact ⟨hnonneg s hs, hscale s hs⟩
  refine Rounding.sumWith_eq (fun x hx => (hvalue x hx).1) (fun x hx => (hvalue x hx).2)
    (lt_of_le_of_lt ?_ hsum)
  exact mul_le_mul_of_nonneg_right (sum_le_all ⟨hnonneg, scale, hscale, hsum⟩ ht name)
    (by positivity)

theorem total_decimalTotals {name : String} (hname : name ∈ figures) :
    total (decimalTotals key t) name =
      Rounding.sumWith 28 ((t.filter fun g => g.name = some name).map Growth.value) := by
  simp only [figures, List.mem_cons, List.not_mem_nil, or_false] at hname
  rcases hname with rfl | rfl | rfl | rfl <;> simp [total, decimalTotals, figures]

/-- A row has no more of the totals than the four figures. -/
theorem dayRow_congr {day : Int} {t t' : List Growth}
    (h : ∀ name ∈ figures, total t name = total t' name) :
    dayRow day lookups key t = dayRow day lookups key t' := by
  unfold dayRow
  rw [h "requests" (by simp [figures]), h "successful" (by simp [figures]),
    h "prompt" (by simp [figures]), h "completion" (by simp [figures])]

/-- A figure is small enough for `quantize`. -/
theorem halfUp_lt (hroom : HasRoom results) (ht : t.Sublist (growths results lookups))
    (name : String) : |Rounding.halfUp (total t name)| < 10 ^ 28 := by
  have hnonneg := total_nonneg hroom ht name
  rw [abs_of_nonneg (Rounding.halfUp_nonneg hnonneg)]
  obtain ⟨scale, hscale, hsum⟩ := hroom.2
  have hsmall : total t name * 10 ^ scale < 10 ^ 28 :=
    lt_of_le_of_lt (mul_le_mul_of_nonneg_right (sum_le_all hroom ht name) (by positivity)) hsum
  have hvalues : ∀ x ∈ (t.filter fun g => g.name = some name).map Growth.value,
      Rounding.HasScale scale x := by
    intro x hx
    obtain ⟨s, hs, rfl⟩ := List.mem_map.mp ((sublist_figure ht name).subset hx)
    exact hscale s hs
  exact_mod_cast (Rounding.hasScale_sum hvalues).halfUp_lt hnonneg hsmall

/-- **One key.** With room for the figures the row is the one of exact sums. -/
theorem rowOrRaise_ok (day : Int) (hroom : HasRoom results) (ht : t.Sublist (growths results lookups)) :
    rowOrRaise day lookups key t = .ok (dayRow day lookups key t) := by
  have htotals : ∀ name ∈ figures, total (decimalTotals key t) name = total t name :=
    fun name hname => (total_decimalTotals hname).trans (sumWith_figure hroom ht name)
  rw [rowOrRaise, if_pos, dayRow_congr htotals]
  refine List.all_eq_true.mpr fun name hname => decide_eq_true ?_
  rw [htotals name hname]
  exact halfUp_lt hroom ht name

end Room

/-! ## The rows of a day -/

/-- No label that is read makes `int` raise. -/
def Readable (labels : SeriesLabels) : Prop :=
  labelRaises labels.tenantId = false ∧
    (labelInt labels.tenantId ≠ none → labelRaises labels.applicationId = false)

/-- The row is the one of the key. -/
def Matches (key : TotalsKey) (row : NewRow) : Prop :=
  row.dimensions.tenantId = some key.tenantId ∧
    row.dimensions.applicationId = key.applicationId ∧ row.dimensions.serviceId = key.serviceId

/-- What a row counts of the series of its key. -/
structure Counts (results : QueryKind → List Series) (lookups : Lookups) (key : TotalsKey)
    (row : NewRow) : Prop where
  requests :
    row.measures.requestCount = Rounding.halfUp (sumOf lookups key (results .requests))
  prompt :
    row.measures.amount .totalUnits - row.measures.amount .outputUnits =
      Rounding.halfUp (sumOf lookups key (ofType "prompt" (results .tokens)))
  completion :
    row.measures.amount .outputUnits =
      Rounding.halfUp (sumOf lookups key (ofType "completion" (results .tokens)))
  outcomes : row.measures.successCount + row.measures.failedCount = row.measures.requestCount
  success_nonneg : 0 ≤ row.measures.successCount
  failed_nonneg : 0 ≤ row.measures.failedCount

/-- Nothing of the series of a key is left after rounding. -/
def RoundsToZero (results : QueryKind → List Series) (lookups : Lookups) (key : TotalsKey) :
    Prop :=
  Rounding.halfUp (sumOf lookups key (results .requests)) = 0 ∧
    Rounding.halfUp (sumOf lookups key (ofType "prompt" (results .tokens))) = 0 ∧
    Rounding.halfUp (sumOf lookups key (ofType "completion" (results .tokens))) = 0

section Rows

variable {day : Int} {results : QueryKind → List Series} {lookups : Lookups} {key : TotalsKey}
  {t : List Growth}

theorem seriesKey_ok {labels : SeriesLabels} (h : Readable labels) :
    seriesKey lookups labels = .ok (lookups.key labels) := by
  rw [seriesKey, h.1, if_neg (by decide)]
  split
  · rename_i hnone
    rw [Lookups.key, hnone, Option.map_none]
  · rename_i hsome
    rw [h.2 hsome, if_neg (by decide)]

theorem growthOf_ok {s : QueryKind × Series} (h : Readable s.2.metric) :
    growthOf lookups s.1 s.2 = .ok (growth lookups s) := by
  rw [growthOf, seriesKey_ok h]
  rfl

/-- **The rows when nothing raises** are those of `build_day_rows` with exact sums. -/
theorem rowsOrRaise_ok (hread : ∀ s ∈ allSeries results, Readable s.2.metric)
    (hroom : HasRoom results) :
    rowsOrRaise day results lookups = .ok (buildDayRows day results lookups) := by
  have hgrowths : (allSeries results).mapM (fun s => growthOf lookups s.1 s.2) =
      .ok ((allSeries results).map (growth lookups)) :=
    Checked.mapM_eq_ok fun s hs => growthOf_ok (hread s hs)
  have hall : ((allSeries results).map (growth lookups)).reduceOption =
      growths results lookups := by
    rw [growths_eq, List.reduceOption, List.filterMap_map]
    rfl
  have hrows : (groupBy Growth.key (growths results lookups)).mapM
      (fun g => rowOrRaise day lookups g.1 g.2) =
        .ok ((groupBy Growth.key (growths results lookups)).map
          fun g => dayRow day lookups g.1 g.2) := by
    refine Checked.mapM_eq_ok fun g hg => rowOrRaise_ok day hroom ?_
    rw [mem_groupBy hg]
    exact List.filter_sublist
  rw [rowsOrRaise, hgrowths]
  show ((groupBy Growth.key ((allSeries results).map (growth lookups)).reduceOption).mapM
    fun g => rowOrRaise day lookups g.1 g.2) >>= (fun rows => .ok rows.reduceOption) = _
  rw [hall, hrows]
  show Except.ok _ = Except.ok _
  rw [List.reduceOption, List.filterMap_map]
  rfl

/-- A row has the key that it is built for. -/
theorem matches_dayRow {row : NewRow}
    (h : dayRow day lookups key t = some row) : Matches key row := by
  unfold dayRow at h
  dsimp only at h
  split at h
  · cases h
  · obtain rfl := Option.some.inj h
    exact ⟨rfl, rfl, rfl⟩

theorem Matches.inj {key' : TotalsKey} {row row' : NewRow} (h : Matches key row)
    (h' : Matches key' row') (hrow : row.dimensions = row'.dimensions) : key = key' := by
  obtain ⟨htenant, happlication, hservice⟩ := h
  obtain ⟨htenant', happlication', hservice'⟩ := h'
  rw [hrow] at htenant happlication hservice
  obtain ⟨tenantId, applicationId, serviceId⟩ := key
  obtain ⟨tenantId', applicationId', serviceId'⟩ := key'
  dsimp only at *
  obtain rfl := Option.some.inj (htenant.symm.trans htenant')
  rw [← happlication, happlication', ← hservice, hservice']

/-- **No two rows have the same dimensions.** -/
theorem nodup_dimensions (day : Int) (results : QueryKind → List Series) (lookups : Lookups) :
    ((buildDayRows day results lookups).map fun row => (row.usageDate, row.dimensions)).Nodup := by
  have hkeys : ((groupBy Growth.key (growths results lookups)).map Prod.fst).Nodup := by
    rw [groupBy_fst]
    exact List.nodup_dedup _
  rw [buildDayRows, List.Nodup, List.pairwise_map, List.pairwise_filterMap]
  refine (List.pairwise_map.mp hkeys).imp fun hne row hrow row' hrow' heq => hne ?_
  exact (matches_dayRow hrow).inj (matches_dayRow hrow') (congrArg Prod.snd heq)

theorem counts_dayRow (hnonneg : ∀ name, 0 ≤ total t name)
    (hrequests : total t "requests" = sumOf lookups key (results .requests))
    (hprompt : total t "prompt" = sumOf lookups key (ofType "prompt" (results .tokens)))
    (hcompletion : total t "completion" =
      sumOf lookups key (ofType "completion" (results .tokens)))
    {row : NewRow} (h : dayRow day lookups key t = some row) : Counts results lookups key row := by
  have hsuccess := Rounding.halfUp_nonneg (hnonneg "successful")
  have hrequests₀ := Rounding.halfUp_nonneg (hnonneg "requests")
  unfold dayRow at h
  dsimp only at h
  split at h
  · cases h
  · obtain rfl := Option.some.inj h
    exact
      { requests := congrArg Rounding.halfUp hrequests
        prompt := by
          rw [← hprompt]
          exact add_sub_cancel_right _ _
        completion := by
          rw [← hcompletion]
          rfl
        outcomes := sub_add_cancel _ _
        success_nonneg := by
          dsimp only
          omega
        failed_nonneg := le_max_left _ _ }

/-- A key has no row only when it rounds to nothing. -/
theorem roundsToZero_of_dayRow (hnonneg : ∀ name, 0 ≤ total t name)
    (hrequests : total t "requests" = sumOf lookups key (results .requests))
    (hprompt : total t "prompt" = sumOf lookups key (ofType "prompt" (results .tokens)))
    (hcompletion : total t "completion" =
      sumOf lookups key (ofType "completion" (results .tokens)))
    (h : dayRow day lookups key t = none) : RoundsToZero results lookups key := by
  have hprompt₀ := Rounding.halfUp_nonneg (hnonneg "prompt")
  have hcompletion₀ := Rounding.halfUp_nonneg (hnonneg "completion")
  unfold dayRow at h
  dsimp only at h
  split at h
  · rename_i hzero
    rw [RoundsToZero, ← hrequests, ← hprompt, ← hcompletion]
    omega
  · cases h

/-- The rows are those of the keys of the series. -/
theorem mem_buildDayRows {row : NewRow} :
    row ∈ buildDayRows day results lookups ↔
      ∃ key ∈ (growths results lookups).map Growth.key,
        dayRow day lookups key ((growths results lookups).filter fun g => g.key = key) =
          some row := by
  rw [buildDayRows, groupBy, List.filterMap_map, List.mem_filterMap]
  refine exists_congr fun key => ?_
  rw [List.mem_dedup]
  rfl

theorem key_mem_growths {s : QueryKind × Series} (hs : s ∈ allSeries results)
    (hkey : lookups.key s.2.metric = some key) :
    key ∈ (growths results lookups).map Growth.key := by
  rw [growths_eq]
  refine List.mem_map.mpr ⟨⟨key, nameOf s.1 s.2.metric, s.2.value⟩, ?_, rfl⟩
  exact List.mem_filterMap.mpr ⟨s, hs, by rw [growth, hkey, Option.map_some]⟩

end Rows

/-! ## Inputs that do not fit -/

/-- Requests alone, of the institution with this label. -/
def requestsOf (tenantId : String) (value : ℚ) : QueryKind → List Series
  | .requests => [⟨⟨some tenantId, none, none, none⟩, value⟩]
  | _ => []

/-- One request of institution 1, and two tokens of a type that is called `requests`. -/
def tokensCalledRequests : QueryKind → List Series
  | .requests => [⟨⟨some "1", none, none, none⟩, 1⟩]
  | .successful => []
  | .tokens => [⟨⟨some "1", none, none, some "requests"⟩, 2⟩]

/-- The requests of the rows, unless it raises. -/
def requestCounts (rows : Except Unit (List NewRow)) : Option (List Int) :=
  rows.toOption.map fun rows => rows.map fun row => row.measures.requestCount

/-- Three requests of institution 1, two of them successful, with 7 and 5 tokens. -/
def smallDay : QueryKind → List Series
  | .requests => [⟨⟨some "1", some "x", none, none⟩, 5 / 2⟩, ⟨⟨some "1", none, none, none⟩, 1 / 2⟩]
  | .successful => [⟨⟨some "1", none, none, none⟩, 2⟩]
  | .tokens =>
    [⟨⟨some "1", none, some "unknown", some "prompt"⟩, 7⟩,
      ⟨⟨some "1", none, none, some "completion"⟩, 5⟩]

theorem hasRoom_smallDay : HasRoom smallDay := by
  have hvalues : (allSeries smallDay).map (fun s => s.2.value) = [5 / 2, 1 / 2, 2, 7, 5] := rfl
  refine ⟨by decide +kernel, 1, fun s hs => ?_, ?_⟩
  · have hmem : s.2.value ∈ [5 / 2, 1 / 2, 2, 7, 5] := hvalues ▸ List.mem_map_of_mem hs
    simp only [List.mem_cons, List.not_mem_nil, or_false] at hmem
    rcases hmem with h | h | h | h | h <;> rw [h]
    · exact ⟨25, by norm_num⟩
    · exact ⟨5, by norm_num⟩
    · exact ⟨20, by norm_num⟩
    · exact ⟨70, by norm_num⟩
    · exact ⟨50, by norm_num⟩
  · rw [hvalues]
    norm_num

end Ai4iCore.Usage.BackfillDay
