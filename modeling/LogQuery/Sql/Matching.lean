import LogQuery.Pattern.Groups
import LogQuery.Sql.Dialect
import LogQuery.Sql.Expr
import LogQuery.Sql.Wildcard

namespace LogQuery.Dialect

open Sql

/-- The column contains a text, in any case of letters. -/
def contains (d : Dialect) (column : Expr) (needle : String) : Expr :=
  match d with
  | .clickHouse => .binary .gt (.call "positionCaseInsensitive" [column, .text needle]) (.nat 0)
  | .sqlite =>
    .binary .gt (.call "instr" [.call "lower" [column], .call "lower" [.text needle]]) (.nat 0)

/-- The operator that matches a pattern of `LIKE`. SQLite has none that minds the case of
letters. -/
def likeOperator (d : Dialect) (ignoreCase negated : Bool) : Operator :=
  match d, ignoreCase, negated with
  | .clickHouse, false, false | .sqlite, _, false => .like
  | .clickHouse, false, true | .sqlite, _, true => .notLike
  | .clickHouse, true, false => .ilike
  | .clickHouse, true, true => .notIlike

/-- The column matches a pattern of `LIKE` in which a backslash escapes. SQLite has to be told of
the backslash. -/
def like (d : Dialect) (column : Expr) (pattern : String) (ignoreCase negated : Bool) : Expr :=
  let pattern : Expr :=
    match d with
    | .clickHouse => .text pattern
    | .sqlite => .binary .escape (.text pattern) (.text "\\")
  .binary (d.likeOperator ignoreCase negated) column pattern

/-- The column matches a regular expression. -/
def regexMatch (d : Dialect) (column : Expr) (pattern : String) : Expr :=
  match d with
  | .clickHouse => .call "match" [column, .text pattern]
  | .sqlite => .binary .regexp column (.text pattern)

/-- What the group of a name captures; SQLite cannot tell. -/
def extractGroup (d : Dialect) (column : Expr) (pattern group : String) : Option Expr :=
  match d with
  | .clickHouse => some (.call "extract" [column, .text (Pattern.isolateGroup pattern group)])
  | .sqlite => none

end LogQuery.Dialect
