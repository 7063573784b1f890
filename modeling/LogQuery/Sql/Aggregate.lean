import LogQuery.Sql.Expr
import LogQuery.Sql.Dialect
import LogQuery.Syntax.Aggregation

namespace LogQuery

/-- The rows that a statement reads: those of a table that satisfy all of a filter. -/
structure RowSource where
  table : String
  filter : List Sql.Expr
  deriving Repr

namespace Dialect

open Sql

def fraction (percent : Nat) : Binary64 := (Binary64.ofNat percent).div (.ofNat 100)

def countAll : Dialect → Expr
  | .clickHouse => .call "count" []
  | .sqlite => .call "COUNT" [.star]

def clickHouseAggregate (function : AggregateFunction) (column : Expr) : Expr :=
  match function with
  | .count => .call "count" [column]
  | .sum => .call "sum" [column]
  | .avg => .call "avg" [column]
  | .min => .call "min" [column]
  | .max => .call "max" [column]
  | .distinctCount => .call "uniq" [column]
  | .values => .call "groupUniqArray" [column]
  | .list => .call "groupArray" [column]
  | .earliest | .first => .call "argMin" [column, .column "timestamp"]
  | .latest | .last => .call "argMax" [column, .column "timestamp"]
  | .median => .call "median" [column]
  | .mode => .element (.applied "topK" [.nat 1] [column]) 1
  | .stddev => .call "stddevPop" [column]
  | .variance => .call "varPop" [column]
  | .range => .binary .subtract (.call "max" [column]) (.call "min" [column])
  | .percentile p => .applied "quantile" [.number (fraction p)] [column]

/-- SQLite takes percentiles and the most frequent value from subqueries over the same rows. It has
no deviation and no variance, in whose place stands zero. -/
def sqliteAggregate (function : AggregateFunction) (column : Expr) (rows : RowSource) : Expr :=
  match function with
  | .count => .call "COUNT" [column]
  | .sum => .call "SUM" [column]
  | .avg => .call "AVG" [column]
  | .min => .call "MIN" [column]
  | .max => .call "MAX" [column]
  | .distinctCount => .call "COUNT" [.distinct column]
  | .values => .call "GROUP_CONCAT" [.distinct column]
  | .list => .call "GROUP_CONCAT" [column]
  | .earliest | .first => .edgeRow column rows.table false
  | .latest | .last => .edgeRow column rows.table true
  | .median => .sortedAt column (fraction 50) rows.table rows.filter
  | .mode => .mostFrequent column rows.table rows.filter
  | .stddev | .variance => .nat 0
  | .range => .binary .subtract (.call "MAX" [column]) (.call "MIN" [column])
  | .percentile p => .sortedAt column (fraction p) rows.table rows.filter

/-- An aggregate of a column over some rows. -/
def aggregate (d : Dialect) (function : AggregateFunction) (column : Expr) (rows : RowSource) :
    Expr :=
  match d with
  | .clickHouse => clickHouseAggregate function column
  | .sqlite => sqliteAggregate function column rows

end Dialect

end LogQuery
