import Mathlib.Data.List.Basic

/-!
# Labels in PromQL expressions

The expressions of alerting rules, as far as the labels of their results go. A result of
`sum by` has the labels that are listed, with the values that they have in all series summed for
it; `histogram_quantile` drops the bucket bound; the operands of a ratio are matched by the labels
they have.
-/

namespace Promql

universe u v

/-- How a selector compares a label. -/
inductive MatchOp
  | eq
  | re
  | notRe
  deriving DecidableEq, Repr

structure LabelMatch (ν : Type u) (β : Type v) where
  label : ν
  op : MatchOp
  value : β
  deriving DecidableEq, Repr

inductive Expr (ν : Type u) (β : Type v) (φ : Type v)
  /-- `rate(metric{matchers}[5m])` -/
  | rate (metric : β) (matchers : List (LabelMatch ν β))
  | sumBy (labels : List ν) (e : Expr ν β φ)
  /-- `histogram_quantile(q, e)`, over the label of the bucket bounds -/
  | histogramQuantile (bound : ν) (q : β) (e : Expr ν β φ)
  | ratio (num den : Expr ν β φ)
  | compare (op : β) (e : Expr ν β φ) (threshold : φ)
  /-- an expression that aggregates all labels away -/
  | scalar (text : β)
  deriving DecidableEq, Repr

namespace Expr

variable {ν : Type u} {β φ : Type v} [DecidableEq ν]

/-- The results have this label, with the value it has in the series. -/
def keeps (l : ν) : Expr ν β φ → Bool
  | rate _ _ => true
  | sumBy labels e => l ∈ labels && e.keeps l
  | histogramQuantile bound _ e => l ≠ bound && e.keeps l
  | ratio num den => num.keeps l && den.keeps l
  | compare _ e _ => e.keeps l
  | scalar _ => false

/-- The labels of a result for series with these labels. -/
def resultLabels (e : Expr ν β φ) (absent : β) (series : ν → β) : ν → β := fun l =>
  if e.keeps l then series l else absent

/-- Rewrite the selectors. -/
def mapMatchers (f : LabelMatch ν β → LabelMatch ν β) : Expr ν β φ → Expr ν β φ
  | rate metric matchers => rate metric (matchers.map f)
  | sumBy labels e => sumBy labels (e.mapMatchers f)
  | histogramQuantile bound q e => histogramQuantile bound q (e.mapMatchers f)
  | ratio num den => ratio (num.mapMatchers f) (den.mapMatchers f)
  | compare op e threshold => compare op (e.mapMatchers f) threshold
  | scalar text => scalar text

/-- Rewrite the lists of `sum by`. -/
def mapGroups (f : List ν → List ν) : Expr ν β φ → Expr ν β φ
  | rate metric matchers => rate metric matchers
  | sumBy labels e => sumBy (f labels) (e.mapGroups f)
  | histogramQuantile bound q e => histogramQuantile bound q (e.mapGroups f)
  | ratio num den => ratio (num.mapGroups f) (den.mapGroups f)
  | compare op e threshold => compare op (e.mapGroups f) threshold
  | scalar text => scalar text

/-- Some list of `sum by` has this property. -/
def anyGroup (p : List ν → Bool) : Expr ν β φ → Bool
  | rate _ _ => false
  | sumBy labels e => p labels || e.anyGroup p
  | histogramQuantile _ _ e => e.anyGroup p
  | ratio num den => num.anyGroup p || den.anyGroup p
  | compare _ e _ => e.anyGroup p
  | scalar _ => false

/-- Selectors do not bear on the labels of results. -/
@[simp] theorem keeps_mapMatchers (f : LabelMatch ν β → LabelMatch ν β) (l : ν)
    (e : Expr ν β φ) : (e.mapMatchers f).keeps l = e.keeps l := by
  induction e with
  | rate => rfl
  | sumBy labels e ih => simp only [mapMatchers, keeps, ih]
  | histogramQuantile bound q e ih => simp only [mapMatchers, keeps, ih]
  | ratio num den ihnum ihden => simp only [mapMatchers, keeps, ihnum, ihden]
  | compare op e threshold ih => simp only [mapMatchers, keeps, ih]
  | scalar => rfl

omit [DecidableEq ν] in
@[simp] theorem anyGroup_mapMatchers (f : LabelMatch ν β → LabelMatch ν β) (p : List ν → Bool)
    (e : Expr ν β φ) : (e.mapMatchers f).anyGroup p = e.anyGroup p := by
  induction e with
  | rate => rfl
  | sumBy labels e ih => simp only [mapMatchers, anyGroup, ih]
  | histogramQuantile bound q e ih => simp only [mapMatchers, anyGroup, ih]
  | ratio num den ihnum ihden => simp only [mapMatchers, anyGroup, ihnum, ihden]
  | compare op e threshold ih => simp only [mapMatchers, anyGroup, ih]
  | scalar => rfl

end Expr

end Promql
