import LogQuery.Number.Binary64
import LogQuery.Syntax.Condition
import LogQuery.Syntax.EvalExpr
import LogQuery.Syntax.Span

namespace LogQuery.Sql

inductive Operator where
  | or | and
  | eq | notEq | lt | ltEq | gt | gtEq
  | isIn | notIn | like | notLike | ilike | notIlike | regexp
  | add | subtract | multiply | divide | concat | escape
  deriving DecidableEq, Repr

namespace Operator

def text : Operator → String
  | .or => "OR"
  | .and => "AND"
  | .eq => "="
  | .notEq => "!="
  | .lt => "<"
  | .ltEq => "<="
  | .gt => ">"
  | .gtEq => ">="
  | .isIn => "IN"
  | .notIn => "NOT IN"
  | .like => "LIKE"
  | .notLike => "NOT LIKE"
  | .ilike => "ILIKE"
  | .notIlike => "NOT ILIKE"
  | .regexp => "REGEXP"
  | .add => "+"
  | .subtract => "-"
  | .multiply => "*"
  | .divide => "/"
  | .concat => "||"
  | .escape => "ESCAPE"

/-- The operator of an operator between expressions of a query. -/
def ofBinary : BinaryOperator → Operator
  | .add => .add
  | .subtract => .subtract
  | .multiply => .multiply
  | .divide => .divide
  | .eq => .eq
  | .notEq => .notEq
  | .lt => .lt
  | .ltEq => .ltEq
  | .gt => .gt
  | .gtEq => .gtEq
  | .and => .and
  | .or => .or

/-- The operator of a connective between conditions. -/
def ofConnective : Connective → Operator
  | .and => .and
  | .or => .or

end Operator

inductive CastType where
  | integer | real | text
  deriving DecidableEq, Repr

def CastType.name : CastType → String
  | .integer => "INTEGER"
  | .real => "REAL"
  | .text => "TEXT"

/-- An expression with its parentheses. How names and texts are quoted is left to the dialect. -/
inductive Expr where
  /-- SQL that is taken as it is. -/
  | verbatim (sql : String)
  | column (name : String)
  | text (s : String)
  | number (x : Binary64)
  | nat (n : Nat)
  | null
  | star
  | paren (e : Expr)
  /-- Items between one pair of parentheses. -/
  | tuple (items : List Expr)
  /-- Operands with the same operator between any two of them, and no parentheses. -/
  | chain (op : Operator) (operands : List Expr)
  | not (e : Expr)
  | nullTest (e : Expr) (negated : Bool)
  | between (e first last : Expr)
  | call (function : String) (args : List Expr)
  /-- A call of a function that has parameters besides its arguments. -/
  | applied (function : String) (params args : List Expr)
  | element (e : Expr) (index : Nat)
  | distinct (e : Expr)
  | cast (e : Expr) (type : CastType)
  | interval (amount : Nat) (unit : TimeUnit)
  | caseWhen (branches : List (Expr × Expr)) (otherwise : Expr)
  /-- The value of a column at a fraction of the way through the rows of a table that satisfy all
  of a filter and have a value, in the order of the values. -/
  | sortedAt (e : Expr) (fraction : Binary64) (table : String) (filter : List Expr)
  /-- The value that most rows of a table have, of those that satisfy all of a filter. -/
  | mostFrequent (e : Expr) (table : String) (filter : List Expr)
  /-- The value in the first or in the last row of a group of rows of a table. -/
  | edgeRow (e : Expr) (table : String) (last : Bool)
  deriving Repr, Inhabited

namespace Expr

/-- Two operands with an operator between them. -/
def binary (op : Operator) (left right : Expr) : Expr := .chain op [left, right]

mutual

def ofValue : Value → Expr
  | .string s | .regex s => .text s
  | .number x => .number x
  | .null => .null
  | .list items => .tuple (ofValues items)

def ofValues : List Value → List Expr
  | [] => []
  | v :: rest => ofValue v :: ofValues rest

end

end Expr

end LogQuery.Sql
