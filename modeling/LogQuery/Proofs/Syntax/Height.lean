import LogQuery.Proofs.Parser.Precedence
import LogQuery.Syntax.Condition
import Mathlib.Tactic.Lemma

namespace LogQuery

namespace Condition

mutual

/-- How many conditions stand one in the other at most. -/
def height : Condition → Nat
  | .compare _ _ _ _ => 1
  | .group _ members _ => heightOfAll members + 1

/-- The greatest height of some conditions. -/
def heightOfAll : List Condition → Nat
  | [] => 0
  | c :: rest => max c.height (heightOfAll rest)

end

/-- A bound on the height of a list bounds every member. -/
lemma heightOfAll_le_iff {cs : List Condition} {n : Nat} :
    heightOfAll cs ≤ n ↔ ∀ c ∈ cs, c.height ≤ n := by
  induction cs with
  | nil => simp [heightOfAll]
  | cons c cs ih => rw [heightOfAll, Nat.max_le, ih, List.forall_mem_cons]

@[simp] lemma height_negate (c : Condition) : c.negate.height = c.height := by
  cases c with
  | compare => rfl
  | group => rfl

end Condition

namespace EvalExpr

mutual

/-- How many expressions stand one in the other at most. -/
def height : EvalExpr → Nat
  | .literal _ | .field _ => 1
  | .binary _ left right => max left.height right.height + 1
  | .call _ args => heightOfAll args + 1

/-- The greatest height of some expressions. -/
def heightOfAll : List EvalExpr → Nat
  | [] => 0
  | e :: rest => max e.height (heightOfAll rest)

end

/-- How many operators of a level stand one left of the other at the top of an expression. -/
def run (level : ExprLevel) : EvalExpr → Nat
  | .binary op left _ => if op.level = level then left.run level + 1 else 0
  | .literal _ | .field _ | .call _ _ => 0

mutual

/-- How many operators of one level stand one left of the other at most. -/
def longestRun : EvalExpr → Nat
  | .literal _ | .field _ => 0
  | .binary op left right =>
    max (left.run op.level + 1) (max left.longestRun right.longestRun)
  | .call _ args => longestRunOfAll args

/-- The longest such row in some expressions. -/
def longestRunOfAll : List EvalExpr → Nat
  | [] => 0
  | e :: rest => max e.longestRun (longestRunOfAll rest)

end

lemma height_pos (e : EvalExpr) : 0 < e.height := by
  cases e with
  | literal | field => exact Nat.one_pos
  | binary | call => exact Nat.succ_pos _

lemma heightOfAll_le_iff {es : List EvalExpr} {n : Nat} :
    heightOfAll es ≤ n ↔ ∀ e ∈ es, e.height ≤ n := by
  induction es with
  | nil => simp [heightOfAll]
  | cons e es ih => rw [heightOfAll, Nat.max_le, ih, List.forall_mem_cons]

/-- A bound on the runs in a list bounds the runs in every member. -/
lemma longestRunOfAll_le_iff {es : List EvalExpr} {k : Nat} :
    longestRunOfAll es ≤ k ↔ ∀ e ∈ es, e.longestRun ≤ k := by
  induction es with
  | nil => simp [longestRunOfAll]
  | cons e es ih => rw [longestRunOfAll, Nat.max_le, ih, List.forall_mem_cons]

/-- The run that an operation ends goes through its left operand only. -/
lemma longestRun_binary_le {op : BinaryOperator} {left right : EvalExpr} {k : Nat} :
    (binary op left right).longestRun ≤ k ↔
      left.run op.level < k ∧ left.longestRun ≤ k ∧ right.longestRun ≤ k := by
  rw [longestRun, Nat.max_le, Nat.max_le, Nat.succ_le_iff]

/-- An operator of the level adds one to the run of its left operand. -/
lemma run_binary {op : BinaryOperator} {level : ExprLevel} (left right : EvalExpr)
    (h : op.level = level) : (binary op left right).run level = left.run level + 1 := if_pos h

end EvalExpr

end LogQuery
