import LogQuery.Libraries
import LogQuery.Parser.Condition
import LogQuery.Syntax.Pipeline
import Mathlib.Tactic.Lemma

namespace LogQuery

/-- The value is not a list, and if it is a number, it is a finite one. -/
def Value.IsScalar : Value → Prop
  | .number x => x.isFinite = true
  | .list _ => False
  | _ => True

/-- The comparison is made with such a value: `IN` and `NOT IN` with a list of at least one scalar,
and all others with a scalar. -/
def Comparison.Suits : Comparison → Value → Prop
  | .isIn, value | .notIn, value =>
    ∃ items, value = .list items ∧ items ≠ [] ∧ ∀ v ∈ items, v.IsScalar
  | _, value => value.IsScalar

/-- Every comparison in the condition has a value that suits it, and every group has at least two
members. -/
inductive Condition.WellFormed : Condition → Prop where
  | compare {field : String} {comparison : Comparison} {value : Value} {negated : Bool}
      (h : comparison.Suits value) : WellFormed (.compare field comparison value negated)
  | group {logic : Connective} {members : List Condition} {negated : Bool}
      (hlength : 2 ≤ members.length) (h : ∀ c ∈ members, c.WellFormed) :
      WellFormed (.group logic members negated)

/-- Every literal in the expression is a scalar, and no field has the name `null` in any case of
letters. -/
inductive EvalExpr.WellFormed : EvalExpr → Prop where
  | literal {value : Value} (h : value.IsScalar) : WellFormed (.literal value)
  | field {name : String} (h : Text.equalIgnoringCase name "null" = false) :
      WellFormed (.field name)
  | binary {op : BinaryOperator} {left right : EvalExpr} (hleft : left.WellFormed)
      (hright : right.WellFormed) : WellFormed (.binary op left right)
  | call {function : String} {args : List EvalExpr} (h : ∀ e ∈ args, e.WellFormed) :
      WellFormed (.call function args)

/-- The aggregation has a field unless it is a count, and a percentile lies between one and
ninety-nine. -/
structure Aggregation.WellFormed (a : Aggregation) : Prop where
  field : a.function ≠ .count → a.field.isSome = true
  percentile : ∀ percent, a.function = .percentile percent → 1 ≤ percent ∧ percent ≤ 99

/-- The span is a positive amount of time or a finite positive width. -/
def Span.WellFormed : Span → Prop
  | .time amount _ => 0 < amount
  | .numeric width => width.isPositive = true ∧ width.isFinite = true

/-- All lists that a statement cannot do without have items, all parts are well-formed, and a
pattern is one that the databases accept. -/
def Stage.WellFormed [Libraries] : Stage → Prop
  | .filter _ conditions => ∀ c ∈ conditions, c.WellFormed
  | .stats aggregations _ => aggregations ≠ [] ∧ ∀ a ∈ aggregations, a.WellFormed
  | .sort keys => keys ≠ []
  | .limit _ _ => True
  | .dedup names | .table names | .fields names _ | .frequent _ names _ => names ≠ []
  | .rename renamings => renamings ≠ []
  | .eval assignments => assignments ≠ [] ∧ ∀ a ∈ assignments, a.expr.WellFormed
  | .bin _ span _ => span.WellFormed
  | .timechart span aggregations _ =>
    span.WellFormed ∧ aggregations ≠ [] ∧ ∀ a ∈ aggregations, a.WellFormed
  | .rex _ pattern => Libraries.isPattern pattern = true

/-- Every stage of the pipeline is well-formed. -/
def Pipeline.WellFormed [Libraries] (p : Pipeline) : Prop := ∀ s ∈ p.stages, s.WellFormed

namespace Condition

/-- Negation keeps a condition well-formed. -/
lemma WellFormed.negate {c : Condition} (h : c.WellFormed) : c.negate.WellFormed := by
  cases h with
  | compare h => exact .compare h
  | group hlength h => exact .group hlength h

/-- The raw text of a row is searched for one value. -/
lemma wellFormed_inRaw {value : Value} (h : value.IsScalar) : (inRaw value).WellFormed := .compare h

/-- Flattening the outermost conjunction keeps its members. -/
lemma wellFormed_topLevel {o : Option Condition} (h : ∀ c ∈ o, c.WellFormed) :
    ∀ c ∈ topLevel o, c.WellFormed := by
  simp only [topLevel]
  split
  · simp
  · next members =>
    cases h _ rfl with
    | group _ h => exact h
  · next c _ => simpa using h c

end Condition

end LogQuery
