import LogQuery.Syntax.EvalExpr
import Mathlib.Tactic.Lemma

namespace LogQuery

/-- The first expression is the second one or an operand of it, at any depth. -/
inductive EvalExpr.IsPart (e : EvalExpr) : EvalExpr → Prop where
  | self : IsPart e e
  | left {op : BinaryOperator} {left right : EvalExpr} :
      IsPart e left → IsPart e (.binary op left right)
  | right {op : BinaryOperator} {left right : EvalExpr} :
      IsPart e right → IsPart e (.binary op left right)
  | arg {function : String} {args : List EvalExpr} {a : EvalExpr} :
      a ∈ args → IsPart e a → IsPart e (.call function args)

/-- The first condition is the second one or a member of it, at any depth. -/
inductive Condition.IsPart (c : Condition) : Condition → Prop where
  | self : IsPart c c
  | member {logic : Connective} {members : List Condition} {negated : Bool} {m : Condition} :
      m ∈ members → IsPart c m → IsPart c (.group logic members negated)

/-! ### Induction on values, conditions and expressions -/

/-- Induction on values, with the members of a list at once. -/
lemma Value.induction {motive : Value → Prop} (string : ∀ s, motive (.string s))
    (number : ∀ x, motive (.number x)) (regex : ∀ p, motive (.regex p)) (null : motive .null)
    (list : ∀ items, (∀ v ∈ items, motive v) → motive (.list items)) (v : Value) : motive v := by
  match v with
  | .string s => exact string s
  | .number x => exact number x
  | .regex p => exact regex p
  | .null => exact null
  | .list items => exact list items fun v _ => v.induction string number regex null list

/-- Induction on conditions, with the members of a group at once. -/
lemma Condition.induction {motive : Condition → Prop}
    (compare : ∀ field comparison value negated,
      motive (.compare field comparison value negated))
    (group : ∀ logic members negated, (∀ c ∈ members, motive c) →
      motive (.group logic members negated)) (c : Condition) : motive c := by
  match c with
  | .compare field comparison value negated => exact compare field comparison value negated
  | .group logic members negated =>
    exact group logic members negated fun c _ => c.induction compare group
decreasing_by
  have hlt := List.sizeOf_lt_of_mem ‹_›
  rw [Condition.group.sizeOf_spec]
  omega

/-- Induction on expressions, with the arguments of a call at once. -/
lemma EvalExpr.induction {motive : EvalExpr → Prop} (literal : ∀ value, motive (.literal value))
    (field : ∀ name, motive (.field name))
    (binary : ∀ op left right, motive left → motive right → motive (.binary op left right))
    (call : ∀ function args, (∀ a ∈ args, motive a) → motive (.call function args))
    (e : EvalExpr) : motive e := by
  match e with
  | .literal value => exact literal value
  | .field name => exact field name
  | .binary op left right =>
    exact binary op left right (left.induction literal field binary call)
      (right.induction literal field binary call)
  | .call function args =>
    exact call function args fun a _ => a.induction literal field binary call

/-! ### Texts of lists -/

lemma Value.displayAll_eq_map (vs : List Value) : displayAll vs = vs.map display := by
  induction vs with
  | nil => rfl
  | cons v vs ih => rw [displayAll, ih, List.map_cons]

lemma Condition.displayAll_eq_map (cs : List Condition) : displayAll cs = cs.map display := by
  induction cs with
  | nil => rfl
  | cons c cs ih => rw [displayAll, ih, List.map_cons]

lemma EvalExpr.displayAll_eq_map (args : List EvalExpr) : displayAll args = args.map display := by
  induction args with
  | nil => rfl
  | cons e args ih => rw [displayAll, ih, List.map_cons]

end LogQuery
