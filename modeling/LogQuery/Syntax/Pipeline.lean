import LogQuery.Syntax.Aggregation
import LogQuery.Syntax.EvalExpr
import LogQuery.Syntax.Span

namespace LogQuery

/-- The commands that select rows by conditions. They differ in nothing but their name. -/
inductive FilterCommand where
  | search | filter | where_
  deriving DecidableEq, Repr, Inhabited

def FilterCommand.name : FilterCommand → String
  | .search => "search"
  | .filter => "filter"
  | .where_ => "where"

inductive SortOrder where
  | ascending | descending
  deriving DecidableEq, Repr

def SortOrder.display : SortOrder → String
  | .ascending => "ASC"
  | .descending => "DESC"

structure SortKey where
  field : String
  order : SortOrder
  deriving DecidableEq, Repr

/-- The commands that bound the number of rows. They differ in nothing but their name. -/
inductive LimitCommand where
  | limit | head | tail
  deriving DecidableEq, Repr

namespace LimitCommand

/-- Every command that bounds the number of rows. -/
def all : List LimitCommand := [.limit, .head, .tail]

def name : LimitCommand → String
  | .limit => "limit"
  | .head => "head"
  | .tail => "tail"

end LimitCommand

structure Renaming where
  source : String
  target : String
  deriving DecidableEq, Repr

/-- A computed column: its name and what it holds. -/
structure Assignment where
  field : String
  expr : EvalExpr
  deriving Repr, Inhabited

/-- Which combinations of values are counted and kept: those that occur most often, or those
that occur least often. -/
inductive Frequency where
  | top | rare
  deriving DecidableEq, Repr

def Frequency.name : Frequency → String
  | .top => "top"
  | .rare => "rare"

/-- A stage of a pipeline. -/
inductive Stage where
  | filter (command : FilterCommand) (conditions : List Condition)
  | stats (aggregations : List Aggregation) (groupBy : List String)
  | sort (keys : List SortKey)
  | limit (command : LimitCommand) (count : Nat)
  | dedup (fields : List String)
  | table (fields : List String)
  | fields (names : List String) (keep : Bool)
  | rename (renamings : List Renaming)
  | eval (assignments : List Assignment)
  | frequent (which : Frequency) (fields : List String) (limit : Nat)
  | bin (field : String) (span : Span) (output : Option String)
  | timechart (span : Span) (aggregations : List Aggregation) (splitBy : Option String)
  | rex (field : String) (pattern : String)
  deriving Repr, Inhabited

namespace Stage

def name : Stage → String
  | .filter command _ => command.name
  | .stats _ _ => "stats"
  | .sort _ => "sort"
  | .limit command _ => command.name
  | .dedup _ => "dedup"
  | .table _ => "table"
  | .fields _ _ => "fields"
  | .rename _ => "rename"
  | .eval _ => "eval"
  | .frequent which _ _ => which.name
  | .bin _ _ _ => "bin"
  | .timechart _ _ _ => "timechart"
  | .rex _ _ => "rex"

/-- The stage puts groups of rows in the place of rows. -/
def isAggregation : Stage → Bool
  | .stats _ _ | .frequent _ _ _ | .timechart _ _ _ => true
  | _ => false

end Stage

/-- A query: its stages in the order in which they are applied. -/
structure Pipeline where
  stages : List Stage
  deriving Repr, Inhabited

/-- Some stage puts groups of rows in the place of rows. -/
def Pipeline.isAggregation (p : Pipeline) : Bool := p.stages.any Stage.isAggregation

end LogQuery
