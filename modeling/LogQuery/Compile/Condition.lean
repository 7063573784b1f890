import LogQuery.Columns
import LogQuery.Sql.Matching
import LogQuery.Syntax.Condition

namespace LogQuery

namespace Comparison

/-- The value that a column is compared with by order: the level, where the column holds the
severity and the value is a text. -/
def orderedValue (column : String) (value : Value) : Value :=
  match value with
  | .string s =>
    if column = Column.severity then .number (.ofInt (Column.severityLevel s)) else value
  | _ => value

def listToSql : Value → Sql.Expr
  | .list items => .tuple (Sql.Expr.ofValues items)
  | v => .paren (.ofValue v)

/-- The comparison of a column with a value in SQL: a test for a missing value, for a regular
expression, for a pattern with wildcards or for membership, or a plain comparison. -/
def toSql (d : Dialect) (column : String) (comparison : Comparison) (value : Value) : Sql.Expr :=
  let e : Sql.Expr := .column column
  let plain (op : Sql.Operator) : Sql.Expr := .binary op e (.ofValue value)
  let coerced (op : Sql.Operator) : Sql.Expr :=
    .binary op e (.ofValue (if comparison.isRelational then orderedValue column value else value))
  match comparison, value with
  | .eq, .null | .contains, .null => .nullTest e false
  | .notEq, .null => .nullTest e true
  | .eq, .regex pattern | .contains, .regex pattern => d.regexMatch e pattern
  | .notEq, .regex pattern => .not (d.regexMatch e pattern)
  | .eq, .string s =>
    if Sql.hasWildcard s then d.like e (Sql.likePattern s) false false else plain .eq
  | .notEq, .string s =>
    if Sql.hasWildcard s then d.like e (Sql.likePattern s) false true else plain .notEq
  | .contains, .string s =>
    if Sql.hasWildcard s then d.like e (Sql.likePattern s) true false else d.contains e s
  | .contains, v => d.contains e v.display
  | .isIn, v => .binary .isIn e (listToSql v)
  | .notIn, v => .binary .notIn e (listToSql v)
  | .eq, _ => coerced .eq
  | .notEq, _ => coerced .notEq
  | .lt, _ => coerced .lt
  | .ltEq, _ => coerced .ltEq
  | .gt, _ => coerced .gt
  | .gtEq, _ => coerced .gtEq

end Comparison

namespace Condition

mutual

def toSql (d : Dialect) : Condition → Sql.Expr
  | .compare field comparison value negated =>
    let test := comparison.toSql d (Column.ofField field) value
    if negated then .not (.paren test) else test
  | .group logic members negated =>
    let whole : Sql.Expr := .paren (.chain (.ofConnective logic) (allToSql d members))
    if negated then .not whole else whole

def allToSql (d : Dialect) : List Condition → List Sql.Expr
  | [] => []
  | c :: rest => toSql d c :: allToSql d rest

end

/-- Conditions that must all hold, as one fragment of a filter; no fragment for none. -/
def fragment? (d : Dialect) (conditions : List Condition) : Option Sql.Expr :=
  match allToSql d conditions with
  | [] => none
  | [e] => some e
  | all => some (.paren (.chain .and all))

end Condition

end LogQuery
