import LogQuery.Sql.Dialect
import LogQuery.Sql.Expr

namespace LogQuery.Dialect

open Sql

def now : Dialect → Expr
  | .clickHouse => .call "now" []
  | .sqlite => .call "datetime" [.text "now"]

/-- The words of SQLite for an amount of time. It knows no weeks, and the days in their place are
cut off at the largest number of 64 bits. -/
def offsetWords (amount : Nat) (unit : TimeUnit) : String :=
  match unit with
  | .week => toString (min Span.maxSeconds (7 * amount)) ++ " days"
  | _ => toString amount ++ " " ++ unit.name ++ "s"

/-- An amount of time before the current time. -/
def timeAgo (d : Dialect) (amount : Nat) (unit : TimeUnit) : Expr :=
  match d with
  | .clickHouse => .binary .subtract d.now (.interval amount unit)
  | .sqlite => .call "datetime" [.text "now", .text ("-" ++ offsetWords amount unit)]

end LogQuery.Dialect
