import LogQuery.Parser.Condition
import LogQuery.Proofs.Syntax.Part
import LogQuery.Syntax.Pipeline
import LogQuery.Token.Basic
import Mathlib.Algebra.Order.Ring.Nat
import Mathlib.Tactic.Lemma

/-!
# How much text a query takes

The *mass* of a part of a pipeline is a number of characters that no query which writes it can do
without. A name or a text takes its own length, and at least one character. Of a number nothing is
counted but one character, since a long number may be written by a short numeral. The raw text of
rows is searched without being named, so of a field that is compared the length of that name is
not counted. What no query writes, such as a number of rows with more than twenty digits, counts for
more, so that the text of the SQL is paid for by the mass whatever the pipeline is.
-/

namespace LogQuery

/-- A name or a text takes its length, and never nothing. -/
def textMass (s : String) : Nat := max 1 s.length

lemma textMass_pos (s : String) : 0 < textMass s := Nat.le_max_left 1 _

/-- A text weighs at least its characters. -/
lemma length_le_textMass (s : String) : s.length ≤ textMass s := Nat.le_max_right 1 _

/-- A name that may be left out. -/
def outputMass (output : Option String) : Nat := output.elim 0 textMass

def Token.mass (t : Token) : Nat := textMass t.text

def Token.massOf (ts : List Token) : Nat := (ts.map mass).sum

namespace Token

lemma mass_pos (t : Token) : 0 < t.mass := textMass_pos t.text

/-- A token weighs at least its text. -/
lemma length_le_mass (t : Token) : t.text.length ≤ t.mass := length_le_textMass t.text

@[simp] lemma massOf_nil : massOf [] = 0 := rfl

@[simp] lemma massOf_cons (t : Token) (ts : List Token) : massOf (t :: ts) = t.mass + massOf ts :=
  List.sum_cons

@[simp] lemma massOf_append (ts ts' : List Token) :
    massOf (ts ++ ts') = massOf ts + massOf ts' := by
  rw [massOf, List.map_append, List.sum_append]
  rfl

end Token

def Value.mass : Value → Nat
  | .string s | .regex s => textMass s
  | .number _ | .null => 1
  | .list items => (items.map mass).sum + 2

/-- What a field that is compared is counted for. -/
def fieldMass (field : String) : Nat := field.length - rawField.length

/-- The mass of a condition. A group of fewer than two members, which no query writes, counts one
more than they do. -/
def Condition.mass : Condition → Nat
  | .compare field _ value _ => fieldMass field + value.mass
  | .group _ members _ => (members.map mass).sum + if members.length < 2 then 1 else 0
decreasing_by
  rename_i hmem
  have := List.sizeOf_lt_of_mem hmem
  simp only [group.sizeOf_spec]
  omega

/-- The mass of conditions side by side. -/
def Condition.massOf (conditions : List Condition) : Nat := (conditions.map mass).sum

/-- The mass of an expression. A function is named in lower case, in which its name may be twice as
long as in the query. -/
def EvalExpr.mass : EvalExpr → Nat
  | .literal value => value.mass
  | .field name => textMass name
  | .binary _ left right => left.mass + right.mass
  | .call function args => function.length / 2 + 1 + (args.map mass).sum

/-- The mass of expressions side by side. -/
def EvalExpr.massOf (args : List EvalExpr) : Nat := (args.map mass).sum

/-- The mass of an aggregation: the field stands in parentheses behind the function, whose name in
results has at most eight characters. -/
def Aggregation.mass (a : Aggregation) : Nat :=
  (a.function.name.length - 8) + a.field.elim 1 (textMass · + 3) + outputMass a.output

/-- What a number of rows is counted for. -/
def rowsMass (n : Nat) : Nat := (toString n).length - 20

/-- The mass of a stage. Conditions may stand at the beginning of a query without a command. -/
def Stage.mass : Stage → Nat
  | .filter _ conditions => Condition.massOf conditions
  | .stats aggregations groupBy =>
    1 + (aggregations.map Aggregation.mass).sum + (groupBy.map textMass).sum
  | .sort keys => 1 + (keys.map (textMass ·.field)).sum
  | .limit _ count => 1 + rowsMass count
  | .dedup names | .table names | .fields names _ => 1 + (names.map textMass).sum
  | .frequent _ names count => 1 + (names.map textMass).sum + rowsMass count
  | .rename renamings =>
    1 + (renamings.map fun r => textMass r.source + textMass r.target).sum
  | .eval assignments => 1 + (assignments.map fun a => textMass a.field + a.expr.mass).sum
  | .bin field _ output => 7 + textMass field + outputMass output
  | .timechart _ aggregations splitBy =>
    1 + (aggregations.map Aggregation.mass).sum + outputMass splitBy
  | .rex field pattern => 1 + fieldMass field + textMass pattern

def Pipeline.mass (p : Pipeline) : Nat := (p.stages.map Stage.mass).sum

/-! ### Nothing weighs nothing -/

lemma Value.mass_pos (v : Value) : 0 < v.mass := by
  cases v with
  | string s | regex s =>
    rw [mass]
    exact textMass_pos s
  | number | null =>
    rw [mass]
    exact Nat.one_pos
  | list items =>
    rw [mass]
    exact Nat.succ_pos _

lemma Aggregation.mass_pos (a : Aggregation) : 0 < a.mass := by
  rw [mass]
  cases a.field <;> simp

/-- There are at most as many parts as they are heavy. -/
lemma length_le_sum_map {α : Type} {mass : α → Nat} (h : ∀ a, 0 < mass a) (as : List α) :
    as.length ≤ (as.map mass).sum := by
  induction as with
  | nil => simp
  | cons a as ih =>
    have := h a
    simp
    omega

end LogQuery
