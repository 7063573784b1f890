import LogQuery.Sql.Dialect
import LogQuery.Sql.Expr

namespace LogQuery.Dialect

open Sql

/-- The function of ClickHouse for intervals of some length. -/
def startFunction? (seconds : Nat) : Option String :=
  [(1, "toStartOfSecond"), (60, "toStartOfMinute"), (300, "toStartOfFiveMinutes"),
    (600, "toStartOfTenMinutes"), (900, "toStartOfFifteenMinutes"), (3600, "toStartOfHour"),
    (86400, "toStartOfDay")].lookup seconds

/-- The format of SQLite that cuts a time down to intervals of some length. -/
def startFormat? (seconds : Nat) : Option String :=
  [(1, "%Y-%m-%d %H:%M:%S"), (60, "%Y-%m-%d %H:%M:00"), (3600, "%Y-%m-%d %H:00:00"),
    (86400, "%Y-%m-%d 00:00:00")].lookup seconds

/-- The start of the interval of time in which the column lies. -/
def timeBucket (d : Dialect) (column : Expr) (seconds : Nat) : Expr :=
  match d with
  | .clickHouse =>
    match startFunction? seconds with
    | some function => .call function [column]
    | none => .call "toStartOfInterval" [column, .interval seconds .second]
  | .sqlite =>
    match startFormat? seconds with
    | some format => .call "strftime" [.text format, column]
    | none =>
      let epoch : Expr := .cast (.call "strftime" [.text "%s", column]) .integer
      .call "datetime"
        [.binary .multiply (.paren (.binary .divide epoch (.nat seconds))) (.nat seconds),
          .text "unixepoch"]

/-- The start of the interval of numbers in which the column lies. -/
def numericBin (d : Dialect) (column : Expr) (width : Binary64) : Expr :=
  let quotient : Expr := .binary .divide column (.number width)
  let whole : Expr :=
    match d with
    | .clickHouse => .call "floor" [quotient]
    | .sqlite => .cast quotient .integer
  .binary .multiply whole (.number width)

end LogQuery.Dialect
