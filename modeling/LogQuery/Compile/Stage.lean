import LogQuery.Compile.Condition
import LogQuery.Compile.Draft
import LogQuery.Compile.Expression
import LogQuery.Pattern.Groups
import LogQuery.Sql.Bucket

namespace LogQuery

namespace Draft

/-- The output with the start of the interval of time in a time chart. -/
def chartTime : String := "time"

/-- The output with the number of rows of each combination of values. -/
def rowCount : String := "count"

def select (draft : Draft) (d : Dialect) (conditions : List Condition) : Draft :=
  { draft with filter := draft.filter ++ (Condition.fragment? d conditions).toList }

def group (draft : Draft) (target : Target) (aggregations : List Aggregation)
    (fields : List String) : Draft :=
  { draft with
    items := fields.map draft.item ++ aggregations.map (draft.aggregationItem target)
    groupBy := fields.map draft.reference
    aggregated := true }

/-- Counts the combinations of the values of fields, and keeps the first ones in the order of
their counts. -/
def countCombinations (draft : Draft) (d : Dialect) (fields : List String) (order : SortOrder)
    (limit : Nat) : Draft :=
  { draft with
    items := fields.map draft.item ++ [⟨d.countAll, some rowCount⟩]
    groupBy := fields.map draft.reference
    orderBy := [⟨.output rowCount, order⟩]
    limit := some limit
    aggregated := true }

/-- Groups the rows by intervals of time, and by a field if one is given. -/
def chart (draft : Draft) (target : Target) (span : Span) (aggregations : List Aggregation)
    (splitBy : Option String) : Draft :=
  let start := target.dialect.timeBucket (.column Column.timestamp) span.bucketSeconds
  { draft with
    items := ⟨start, some chartTime⟩ :: splitBy.toList.map draft.item
      ++ aggregations.map (draft.aggregationItem target)
    groupBy := .output chartTime :: splitBy.toList.map draft.reference
    orderBy := [⟨.output chartTime, .ascending⟩]
    aggregated := true }

def keep (draft : Draft) (fields : List String) : Draft :=
  { draft with items := fields.map draft.item }

/-- Returns the default columns without those of some fields. -/
def leaveOut (draft : Draft) (fields : List String) : Draft :=
  let columns := fields.map Column.ofField
  { draft with items := (Column.defaults.filter fun c => !columns.contains c).map tableItem }

/-- An item is what a field names: by the name of its output, or, where it has none, by its
column. -/
def isNamed (field : String) (item : SelectItem) : Bool :=
  match item.output, item.expr with
  | some name, _ => name == field
  | none, .column column => column == Column.ofField field
  | none, _ => false

/-- Gives new names to the outputs that a renaming names. -/
def renameItems (items : List SelectItem) (r : Renaming) : List SelectItem :=
  items.map fun item =>
    if isNamed r.source item then { item with output := some r.target } else item

/-- The width of a bucket decides whether it is one of time or of numbers. -/
def bucketStart (d : Dialect) (column : Sql.Expr) (span : Span) : Sql.Expr :=
  match span with
  | .time _ _ => d.timeBucket column span.bucketSeconds
  | .numeric width => d.numericBin column width

/-- Adds the start of the bucket in which a field lies. -/
def addBucket (draft : Draft) (d : Dialect) (field : String) (span : Span)
    (output : Option String) : Draft :=
  let column := Column.ofField field
  draft.addComputed
    ⟨output.getD (column ++ "_bin"), some column, bucketStart d (.column column) span⟩

/-- Adds what each named group of a regular expression captures. -/
def addGroups (draft : Draft) (d : Dialect) (field pattern : String) : Draft :=
  (Pattern.namedGroups pattern).foldl (fun draft group =>
    draft.addComputed
      ⟨group, none,
        (d.extractGroup (.column (Column.ofField field)) pattern group).getD .null⟩) draft

end Draft

/-- The order in which the combinations to be kept come first. -/
def Frequency.order : Frequency → SortOrder
  | .top => .descending
  | .rare => .ascending

/-- The stage extracts the groups of a pattern that cannot be taken apart: one of them opens inside
the header of another. -/
def Stage.isEntangled : Stage → Bool
  | .rex _ pattern => !(Pattern.namedGroups pattern).isEmpty && !Pattern.headersAreApart pattern
  | _ => false

def Stage.apply (target : Target) (draft : Draft) : Stage → Draft
  | .filter _ conditions => draft.select target.dialect conditions
  | .stats aggregations groupBy => draft.group target aggregations groupBy
  | .sort keys =>
    { draft with orderBy := keys.map fun k => ⟨draft.reference k.field, k.order⟩ }
  | .limit _ count => { draft with limit := some count }
  | .dedup names => { draft.keep names with distinct := true }
  | .table names => draft.keep names
  | .fields names keep => if keep then draft.keep names else draft.leaveOut names
  | .rename renamings => { draft with items := renamings.foldl Draft.renameItems draft.items }
  | .eval assignments =>
    assignments.foldl (fun draft a =>
      draft.addComputed ⟨a.field, none, a.expr.toSql target.dialect⟩) draft
  | .frequent which names most =>
    draft.countCombinations target.dialect names which.order most
  | .bin field span output => draft.addBucket target.dialect field span output
  | .timechart span aggregations splitBy => draft.chart target span aggregations splitBy
  | .rex field pattern => draft.addGroups target.dialect field pattern

end LogQuery
