import LogQuery.Columns
import LogQuery.Sql.Aggregate
import LogQuery.Sql.Statement

namespace LogQuery

/-- A column that a stage computed: its name, its expression and, for a bucket, the column that it
is computed from. -/
structure ComputedColumn where
  name : String
  /-- The column of the table in whose place later stages refer to this one. -/
  source : Option String
  expr : Sql.Expr
  deriving Repr

/-- Where a statement is to run: the dialect and the table. -/
structure Target where
  dialect : Dialect
  table : String
  deriving DecidableEq, Repr

/-- The table of a dialect where no other is configured. -/
def Target.standard (d : Dialect) : Target := ⟨d, d.defaultTable⟩

/-- A statement under construction: what the stages of a pipeline have asked for so far. -/
structure Draft where
  items : List SelectItem
  distinct : Bool
  filter : List Sql.Expr
  groupBy : List ColumnRef
  orderBy : List OrderKey
  limit : Option Nat
  /-- Some stage puts groups of rows in the place of rows. -/
  aggregated : Bool
  computed : List ComputedColumn
  deriving Repr

namespace Draft

def tableItem (column : String) : SelectItem := ⟨.column column, none⟩

/-- The draft before any stage, with a filter. -/
def start (filter : List Sql.Expr) : Draft where
  items := Column.defaults.map tableItem
  distinct := false
  filter := filter
  groupBy := []
  orderBy := []
  limit := none
  aggregated := false
  computed := []

/-- The computed column that a field refers to: the last one of this name, or computed from its
column. -/
def computedFor? (draft : Draft) (field : String) : Option ComputedColumn :=
  draft.computed.reverse.find? fun c =>
    c.name == field || c.source == some (Column.ofField field)

/-- What a field refers to where rows are grouped or sorted. -/
def reference (draft : Draft) (field : String) : ColumnRef :=
  match draft.computedFor? field with
  | some c => .output c.name
  | none => .table (Column.ofField field)

def value (draft : Draft) (field : String) : Sql.Expr :=
  match draft.computedFor? field with
  | some c => c.expr
  | none => .column (Column.ofField field)

/-- A field as an item; a computed column keeps its name. -/
def item (draft : Draft) (field : String) : SelectItem :=
  match draft.computedFor? field with
  | some c => ⟨c.expr, some c.name⟩
  | none => tableItem (Column.ofField field)

/-- The rows that the draft reads so far. -/
def rows (draft : Draft) (target : Target) : RowSource := ⟨target.table, draft.filter⟩

def aggregationItem (draft : Draft) (target : Target) (a : Aggregation) : SelectItem :=
  let expr :=
    match a.field with
    | none => target.dialect.countAll
    | some field => target.dialect.aggregate a.function (draft.value field) (draft.rows target)
  ⟨expr, some a.outputName⟩

/-- The draft with one more computed column, at the end of the items and remembered. -/
def addComputed (draft : Draft) (c : ComputedColumn) : Draft :=
  { draft with
    items := draft.items ++ [⟨c.expr, some c.name⟩]
    computed := draft.computed ++ [c] }

/-- The statement of a draft. Rows that are neither grouped nor made distinct come latest first,
and rows that are not grouped are limited, unless the draft says otherwise. -/
def finish (draft : Draft) (table : String) (defaultLimit : Nat) : Statement where
  distinct := draft.distinct
  items := draft.items
  table := table
  filter := draft.filter
  groupBy := draft.groupBy
  orderBy :=
    if draft.orderBy.isEmpty && !draft.aggregated && !draft.distinct then
      [⟨.table Column.timestamp, .descending⟩]
    else draft.orderBy
  limit := draft.limit.or (if draft.aggregated then none else some defaultLimit)

end Draft

end LogQuery
