import LogQuery.Syntax.Condition

namespace LogQuery

inductive BinaryOperator where
  | add | subtract | multiply | divide | eq | notEq | lt | ltEq | gt | gtEq | and | or
  deriving DecidableEq, Repr

namespace BinaryOperator

def all : List BinaryOperator :=
  [.add, .subtract, .multiply, .divide, .eq, .notEq, .lt, .ltEq, .gt, .gtEq, .and, .or]

/-- The operator as it is written, in queries and in SQL. -/
def display : BinaryOperator → String
  | .add => "+"
  | .subtract => "-"
  | .multiply => "*"
  | .divide => "/"
  | .eq => "="
  | .notEq => "!="
  | .lt => "<"
  | .ltEq => "<="
  | .gt => ">"
  | .gtEq => ">="
  | .and => "AND"
  | .or => "OR"

end BinaryOperator

inductive EvalExpr where
  | literal (value : Value)
  | field (name : String)
  | binary (op : BinaryOperator) (left right : EvalExpr)
  | call (function : String) (args : List EvalExpr)
  deriving Repr, Inhabited

namespace EvalExpr

mutual

/-- The text of an expression, with parentheses around every operation. -/
def display : EvalExpr → String
  | .literal value => value.display
  | .field name => name
  | .binary op left right =>
    "(" ++ left.display ++ " " ++ op.display ++ " " ++ right.display ++ ")"
  | .call function args => function ++ "(" ++ String.intercalate ", " (displayAll args) ++ ")"

def displayAll : List EvalExpr → List String
  | [] => []
  | e :: rest => e.display :: displayAll rest

end

end EvalExpr

end LogQuery
