import LogQuery.Number.Text
import LogQuery.Sql.Expr
import LogQuery.Sql.Quoting

namespace LogQuery.Sql

def intervalUnit (unit : TimeUnit) : String := unit.name.toUpper

namespace Expr

/-- Texts with commas between them. -/
def commas (items : List String) : String := String.intercalate ", " items

/-- The clause that selects the rows of a subquery: those that satisfy a filter and in which an
expression has a value. -/
def subqueryFilter (e : String) (filter : List String) : String :=
  "WHERE " ++ String.intercalate " AND " (filter ++ [e ++ " IS NOT NULL"])

mutual

def render (d : Dialect) : Expr → String
  | .verbatim sql => sql
  | .column name => identifier d name
  | .text s => quoteText d s
  | .number x => x.plain
  | .nat n => toString n
  | .null => "NULL"
  | .star => "*"
  | .paren e => "(" ++ render d e ++ ")"
  | .tuple items => "(" ++ commas (renderAll d items) ++ ")"
  | .chain op operands => String.intercalate (" " ++ op.text ++ " ") (renderAll d operands)
  | .not e => "NOT " ++ render d e
  | .nullTest e negated => render d e ++ if negated then " IS NOT NULL" else " IS NULL"
  | .between e first last =>
    render d e ++ " BETWEEN " ++ render d first ++ " AND " ++ render d last
  | .call function args => function ++ "(" ++ commas (renderAll d args) ++ ")"
  | .applied function params args =>
    function ++ "(" ++ commas (renderAll d params) ++ ")(" ++ commas (renderAll d args) ++ ")"
  | .element e index => render d e ++ "[" ++ toString index ++ "]"
  | .distinct e => "DISTINCT " ++ render d e
  | .cast e type => "CAST(" ++ render d e ++ " AS " ++ type.name ++ ")"
  | .interval amount unit => "INTERVAL " ++ toString amount ++ " " ++ intervalUnit unit
  | .caseWhen branches otherwise =>
    "CASE" ++ renderBranches d branches ++ " ELSE " ++ render d otherwise ++ " END"
  | .sortedAt e fraction table filter =>
    let column := render d e
    let rows := "FROM " ++ table ++ " " ++ subqueryFilter column (renderAll d filter)
    "(SELECT " ++ column ++ " " ++ rows ++ " ORDER BY " ++ column
      ++ " LIMIT 1 OFFSET (SELECT CAST(COUNT(" ++ column ++ ") * " ++ fraction.plain
      ++ " AS INTEGER) " ++ rows ++ "))"
  | .mostFrequent e table filter =>
    let column := render d e
    "(SELECT " ++ column ++ " FROM " ++ table ++ " "
      ++ subqueryFilter column (renderAll d filter) ++ " GROUP BY " ++ column
      ++ " ORDER BY COUNT(*) DESC LIMIT 1)"
  | .edgeRow e table last =>
    "(SELECT " ++ render d e ++ " FROM " ++ table ++ " AS _sub WHERE _sub.rowid = "
      ++ (if last then "MAX(" else "MIN(") ++ table ++ ".rowid))"

def renderAll (d : Dialect) : List Expr → List String
  | [] => []
  | e :: rest => render d e :: renderAll d rest

def renderBranches (d : Dialect) : List (Expr × Expr) → String
  | [] => ""
  | (condition, value) :: rest =>
    " WHEN " ++ render d condition ++ " THEN " ++ render d value ++ renderBranches d rest

end

end Expr

end LogQuery.Sql
