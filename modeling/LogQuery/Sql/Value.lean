import LogQuery.Sql.Dialect
import LogQuery.Sql.Expr

namespace LogQuery.Dialect

open Sql

def concat (d : Dialect) (parts : List Expr) : Expr :=
  match d with
  | .clickHouse => .call "concat" parts
  | .sqlite => if parts.isEmpty then .text "" else .paren (.chain .concat parts)

/-- The value of the first branch whose condition holds, or else another value. -/
def conditional (d : Dialect) (branches : List (Expr × Expr)) (otherwise : Expr) : Expr :=
  match d with
  | .clickHouse =>
    .call (if branches.length = 1 then "if" else "multiIf")
      (branches.flatMap (fun (condition, value) => [condition, value]) ++ [otherwise])
  | .sqlite => .caseWhen branches otherwise

/-- The part of a text from a position on, counted from one, and of a length if one is given. -/
def substring (d : Dialect) (args : List Expr) : Expr :=
  match d with
  | .clickHouse => .call "substring" args
  | .sqlite => .call "substr" args

def toText (d : Dialect) (e : Expr) : Expr :=
  match d with
  | .clickHouse => .call "toString" [e]
  | .sqlite => .cast e .text

def toNumber (d : Dialect) (e : Expr) : Expr :=
  match d with
  | .clickHouse => .call "toFloat64OrNull" [.call "toString" [e]]
  | .sqlite => .cast e .real

def naturalLog (d : Dialect) (e : Expr) : Expr :=
  match d with
  | .clickHouse => .call "log" [e]
  | .sqlite => .call "ln" [e]

end LogQuery.Dialect
