import LogQuery.Columns
import LogQuery.Compile.Function
import LogQuery.Sql.AddressTest
import LogQuery.Sql.Clock
import LogQuery.Sql.Matching

namespace LogQuery

namespace EvalFunction

/-- The branches of a conditional from a row of conditions and values that take turns, and the
value for which no condition is left. -/
def branches {α : Type} : List α → List (α × α) × Option α
  | [] => ([], none)
  | [otherwise] => ([], some otherwise)
  | condition :: value :: rest =>
    let (later, otherwise) := branches rest
    ((condition, value) :: later, otherwise)

/-- The text of a literal that can serve as a pattern. -/
def patternOf? : EvalExpr → Option String
  | .literal (.string s) | .literal (.regex s) => some s
  | _ => none

def textOf? : EvalExpr → Option String
  | .literal (.string s) => some s
  | _ => none

/-- The answer to a question about an address, if the argument writes one. -/
def answerOf? (q : AddressQuestion) (arg : EvalExpr) : Option Sql.Expr := do
  let address ← Address.ofText? (Text.trim (← textOf? arg))
  return Dialect.ofAnswer (q.answer address)

/-- The call of a function with arguments, given also their expressions in SQL; none if the
function has no meaning for such arguments. -/
def toSql? (d : Dialect) (function : EvalFunction) (args : List EvalExpr)
    (sql : List Sql.Expr) : Option Sql.Expr :=
  match function, args, sql with
  | .if_, _, [condition, value, otherwise] => some (d.conditional [(condition, value)] otherwise)
  | .case_, _, _ =>
    let (taken, otherwise) := branches sql
    some (d.conditional taken (otherwise.getD .null))
  | .concat, _, _ => some (d.concat sql)
  | .substr, _, _ => some (d.substring sql)
  | .toText, _, [e] => some (d.toText e)
  | .toNumber, _, [e] => some (d.toNumber e)
  | .ln, _, [e] => some (d.naturalLog e)
  | .now, _, _ => some d.now
  | .isNull, _, [e] => some (.paren (.nullTest e false))
  | .isNotNull, _, [e] => some (.paren (.nullTest e true))
  | .match_, [_, pattern], [e, _] => (patternOf? pattern).map (d.regexMatch e)
  | .like, _, [e, pattern] => some (.paren (.binary .like e pattern))
  | .cidrMatch, [block, _], [_, e] =>
    ((textOf? block).bind AddressRange.ofText?).map (d.inRange e)
  | .address q, [arg], [e] => some ((answerOf? q arg).getD (d.ask q e))
  | function, _, _ => function.sqlName?.map (.call · sql)

end EvalFunction

namespace EvalExpr

/-- A call with arguments, given also their expressions in SQL. A function that is not known is
passed on as it stands. -/
def callToSql (d : Dialect) (name : String) (args : List EvalExpr) (sql : List Sql.Expr) :
    Sql.Expr :=
  ((EvalFunction.ofCall? name args.length).bind fun f => f.toSql? d args sql).getD (.call name sql)

mutual

/-- The expression in SQL. Every operation keeps its operands together by parentheses. -/
def toSql (d : Dialect) : EvalExpr → Sql.Expr
  | .literal value => .ofValue value
  | .field name => .column (Column.ofField name)
  | .binary op left right => .paren (.binary (.ofBinary op) (toSql d left) (toSql d right))
  | .call function args => callToSql d function args (allToSql d args)

def allToSql (d : Dialect) : List EvalExpr → List Sql.Expr
  | [] => []
  | e :: rest => toSql d e :: allToSql d rest

end

end EvalExpr

end LogQuery
