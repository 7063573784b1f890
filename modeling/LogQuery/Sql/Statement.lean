import LogQuery.Sql.Printer
import LogQuery.Syntax.Pipeline

namespace LogQuery

open Sql

/-- An item of a select list: an expression, and the name of its output if that is not its own. -/
structure SelectItem where
  expr : Expr
  output : Option String
  deriving Repr

def SelectItem.render (d : Dialect) (item : SelectItem) : String :=
  item.expr.render d ++ (item.output.map fun name => " AS " ++ identifier d name).getD ""

/-- What rows are grouped or sorted by: a column of the table, or an output of the statement. -/
inductive ColumnRef where
  | table (name : String)
  | output (name : String)
  deriving DecidableEq, Repr

namespace ColumnRef

def name : ColumnRef → String
  | .table name | .output name => name

def render (d : Dialect) (r : ColumnRef) : String := identifier d r.name

end ColumnRef

structure OrderKey where
  column : ColumnRef
  order : SortOrder
  deriving DecidableEq, Repr

def OrderKey.render (d : Dialect) (k : OrderKey) : String :=
  k.column.render d ++ " " ++ k.order.display

/-- A statement. An empty select list stands for all columns. -/
structure Statement where
  distinct : Bool
  items : List SelectItem
  table : String
  filter : List Expr
  groupBy : List ColumnRef
  orderBy : List OrderKey
  limit : Option Nat
  deriving Repr

namespace Statement

/-- The text of a filter: all of its fragments have to hold. -/
def renderFilter (d : Dialect) (filter : List Expr) : String :=
  String.intercalate " AND " (filter.map (Expr.render d))

/-- A clause with its items, left out if there are none. -/
def clause (keyword separator : String) (items : List String) : String :=
  if items.isEmpty then "" else " " ++ keyword ++ " " ++ String.intercalate separator items

def render (d : Dialect) (s : Statement) : String :=
  "SELECT " ++ (if s.distinct then "DISTINCT " else "")
    ++ (if s.items.isEmpty then "*"
      else String.intercalate ", " (s.items.map (SelectItem.render d)))
    ++ " FROM " ++ s.table
    ++ (if s.filter.isEmpty then "" else " WHERE " ++ renderFilter d s.filter)
    ++ clause "GROUP BY" ", " (s.groupBy.map (ColumnRef.render d))
    ++ clause "ORDER BY" ", " (s.orderBy.map (OrderKey.render d))
    ++ clause "LIMIT" "" (s.limit.map toString).toList

end Statement

end LogQuery
