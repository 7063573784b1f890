import LogQuery.Json.Basic
import LogQuery.Syntax.Pipeline

/-!
# Syntax trees in JSON

Every tree is written as JSON and read back from it. A node with several forms is an object whose
field `type`, or `kind` for a condition, names the form. Reading ignores unknown fields, takes
the names exactly as they are written, and takes no field for granted but the few that stand for
`false` or for nothing.
-/

namespace LogQuery

/-- A field's value is smaller than the object it is found in. -/
theorem Json.sizeOf_field? {key : String} {j v : Json} (h : j.field? key = some v) :
    sizeOf v < sizeOf j := by
  unfold Json.field? at h
  split at h
  · rename_i fields
    obtain ⟨⟨k, w⟩, hfind, rfl⟩ := Option.map_eq_some_iff.1 h
    have hmem := List.mem_reverse.1 (List.mem_of_find?_eq_some hfind)
    have := List.sizeOf_lt_of_mem hmem
    simp at this ⊢
    omega
  · cases h

def Json.text? (key : String) (j : Json) : Option String := (j.field? key).bind Json.string?

/-- The items of an object's field that is an array. -/
def Json.items? (key : String) (j : Json) : Option (List Json) := (j.field? key).bind Json.array?

theorem Json.sizeOf_items? {key : String} {j : Json} {items : List Json}
    (h : j.items? key = some items) : sizeOf items < sizeOf j := by
  obtain ⟨v, hv, ha⟩ := Option.bind_eq_some_iff.1 h
  have := Json.sizeOf_field? hv
  unfold Json.array? at ha
  split at ha
  · cases ha; simp at this; omega
  · cases ha

/-- The texts of an object's field that is an array of texts. -/
def Json.texts? (key : String) (j : Json) : Option (List String) :=
  (j.field? key).bind Json.strings?

/-- An object with the name of its form in front. -/
def Json.tagged (key form : String) (fields : List (String × Json)) : Json :=
  .object ((key, .string form) :: fields)

/-! ### Values and conditions -/

mutual

def Value.toJson : Value → Json
  | .string s => .tagged "type" "string" [("value", .string s)]
  | .number x => .tagged "type" "number" [("value", .float x)]
  | .regex p => .tagged "type" "regex" [("value", .string p)]
  | .null => .tagged "type" "null" []
  | .list items => .tagged "type" "list" [("value", .array (Value.allToJson items))]

def Value.allToJson : List Value → List Json
  | [] => []
  | v :: rest => v.toJson :: Value.allToJson rest

end

mutual

def Value.ofJson? (j : Json) : Option Value :=
  match j.text? "type" with
  | some "string" => (j.text? "value").map .string
  | some "number" => ((j.field? "value").bind Json.number?).map .number
  | some "regex" => (j.text? "value").map .regex
  | some "null" =>
    match j.field? "value" with
    | none | some .null => some .null
    | some _ => none
  | some "list" =>
    match _h : j.items? "value" with
    | some items => (Value.allOfJson? items).map .list
    | none => none
  | _ => none
termination_by sizeOf j
decreasing_by exact Json.sizeOf_items? _h

def Value.allOfJson? : List Json → Option (List Value)
  | [] => some []
  | j :: rest => do return (← Value.ofJson? j) :: (← Value.allOfJson? rest)
termination_by js => sizeOf js

end

def Comparison.code : Comparison → String
  | .eq => "eq"
  | .notEq => "not_eq"
  | .lt => "lt"
  | .ltEq => "lt_eq"
  | .gt => "gt"
  | .gtEq => "gt_eq"
  | .contains => "contains"
  | .isIn => "in"
  | .notIn => "not_in"

def Connective.ofText? : String → Option Connective
  | "AND" => some .and
  | "OR" => some .or
  | _ => none

mutual

def Condition.toJson : Condition → Json
  | .compare field comparison value negated =>
    .tagged "kind" "simple" [("field", .string field), ("operator", .string comparison.code),
      ("value", value.toJson), ("negate", .bool negated)]
  | .group logic members negated =>
    .tagged "kind" "group" [("logic", .string logic.display),
      ("conditions", .array (Condition.allToJson members)), ("negated", .bool negated)]

def Condition.allToJson : List Condition → List Json
  | [] => []
  | c :: rest => c.toJson :: Condition.allToJson rest

end

mutual

def Condition.ofJson? (j : Json) : Option Condition :=
  match j.text? "kind" with
  | some "simple" => do
    let code ← j.text? "operator"
    let comparison ← Comparison.all.find? (·.code == code)
    let value ← (j.field? "value").bind Value.ofJson?
    return .compare (← j.text? "field") comparison value (← j.flag? "negate")
  | some "group" =>
    match _h : j.items? "conditions" with
    | some items => do
      let logic ← (j.text? "logic").bind Connective.ofText?
      return .group logic (← Condition.allOfJson? items) (← j.flag? "negated")
    | none => none
  | _ => none
termination_by sizeOf j
decreasing_by exact Json.sizeOf_items? _h

def Condition.allOfJson? : List Json → Option (List Condition)
  | [] => some []
  | j :: rest => do return (← Condition.ofJson? j) :: (← Condition.allOfJson? rest)
termination_by js => sizeOf js

end

/-! ### Expressions -/

def BinaryOperator.code : BinaryOperator → String
  | .add => "add"
  | .subtract => "subtract"
  | .multiply => "multiply"
  | .divide => "divide"
  | .eq => "eq"
  | .notEq => "not_eq"
  | .lt => "lt"
  | .ltEq => "lt_eq"
  | .gt => "gt"
  | .gtEq => "gt_eq"
  | .and => "and"
  | .or => "or"

mutual

def EvalExpr.toJson : EvalExpr → Json
  | .literal value => .tagged "type" "literal" [("value", value.toJson)]
  | .field name => .tagged "type" "field_ref" [("name", .string name)]
  | .binary op left right =>
    .tagged "type" "binary_op"
      [("op", .string op.code), ("left", left.toJson), ("right", right.toJson)]
  | .call function args =>
    .tagged "type" "function_call"
      [("name", .string function), ("args", .array (EvalExpr.allToJson args))]

def EvalExpr.allToJson : List EvalExpr → List Json
  | [] => []
  | e :: rest => e.toJson :: EvalExpr.allToJson rest

end

mutual

def EvalExpr.ofJson? (j : Json) : Option EvalExpr :=
  match j.text? "type" with
  | some "literal" => ((j.field? "value").bind Value.ofJson?).map .literal
  | some "field_ref" => (j.text? "name").map .field
  | some "binary_op" =>
    match _hl : j.field? "left", _hr : j.field? "right" with
    | some left, some right => do
      let code ← j.text? "op"
      let op ← BinaryOperator.all.find? (·.code == code)
      return .binary op (← EvalExpr.ofJson? left) (← EvalExpr.ofJson? right)
    | _, _ => none
  | some "function_call" =>
    match _h : j.items? "args" with
    | some items => do return .call (← j.text? "name") (← EvalExpr.allOfJson? items)
    | none => none
  | _ => none
termination_by sizeOf j
decreasing_by
  · exact Json.sizeOf_field? _hl
  · exact Json.sizeOf_field? _hr
  · exact Json.sizeOf_items? _h

def EvalExpr.allOfJson? : List Json → Option (List EvalExpr)
  | [] => some []
  | j :: rest => do return (← EvalExpr.ofJson? j) :: (← EvalExpr.allOfJson? rest)
termination_by js => sizeOf js

end

/-! ### Parts of stages -/

/-- The function as a text, or as an object if it has a parameter. -/
def AggregateFunction.toJson : AggregateFunction → Json
  | .percentile p => .object [("percentile", .nat p)]
  | f => .string f.code

/-- The function that a text or an object stands for. -/
def AggregateFunction.ofJson? : Json → Option AggregateFunction
  | .string code => AggregateFunction.ofCode? code
  | .object [("percentile", p)] => do
    let percent ← p.nat?
    if percent < 256 then some (.percentile percent) else none
  | _ => none

def Aggregation.toJson (a : Aggregation) : Json :=
  .object [("function", a.function.toJson), ("field", .optionalString a.field),
    ("alias", .optionalString a.output)]

def Aggregation.ofJson? (j : Json) : Option Aggregation := do
  let function ← (j.field? "function").bind AggregateFunction.ofJson?
  return ⟨function, ← j.optionalString? "field", ← j.optionalString? "alias"⟩

def Span.toJson : Span → Json
  | .time amount unit =>
    .tagged "type" "time" [("amount", .nat amount), ("unit", .string unit.name)]
  | .numeric width => .tagged "type" "numeric" [("width", .float width)]

def Span.ofJson? (j : Json) : Option Span :=
  match j.text? "type" with
  | some "time" => do
    let unit ← (j.text? "unit").bind TimeUnit.ofName?
    return .time (← (j.field? "amount").bind Json.nat?) unit
  | some "numeric" => ((j.field? "width").bind Json.number?).map .numeric
  | _ => none

def SortOrder.code : SortOrder → String
  | .ascending => "asc"
  | .descending => "desc"

def SortOrder.ofCode? : String → Option SortOrder
  | "asc" => some .ascending
  | "desc" => some .descending
  | _ => none

def SortKey.toJson (k : SortKey) : Json :=
  .object [("field", .string k.field), ("order", .string k.order.code)]

/-- The sort key that an object stands for. -/
def SortKey.ofJson? (j : Json) : Option SortKey := do
  return ⟨← j.text? "field", ← (j.text? "order").bind SortOrder.ofCode?⟩

def Renaming.toJson (r : Renaming) : Json :=
  .object [("from", .string r.source), ("to", .string r.target)]

def Renaming.ofJson? (j : Json) : Option Renaming := do
  return ⟨← j.text? "from", ← j.text? "to"⟩

def Assignment.toJson (a : Assignment) : Json :=
  .object [("field", .string a.field), ("expr", a.expr.toJson)]

def Assignment.ofJson? (j : Json) : Option Assignment := do
  return ⟨← j.text? "field", ← (j.field? "expr").bind EvalExpr.ofJson?⟩

/-! ### Stages and pipelines -/

/-- The fields of a stage, without the name of its form. -/
def Stage.jsonFields : Stage → List (String × Json)
  | .filter _ conditions => [("conditions", .array (Condition.allToJson conditions))]
  | .stats aggregations groupBy =>
    [("aggregations", .array (aggregations.map Aggregation.toJson)),
      ("group_by", .strings groupBy)]
  | .sort keys => [("fields", .array (keys.map SortKey.toJson))]
  | .limit command count => [("count", .nat count), ("command", .string command.name)]
  | .dedup names => [("fields", .strings names)]
  | .table names => [("fields", .strings names)]
  | .fields names keep => [("fields", .strings names), ("include", .bool keep)]
  | .rename renamings => [("renames", .array (renamings.map Renaming.toJson))]
  | .eval assignments => [("assignments", .array (assignments.map Assignment.toJson))]
  | .frequent _ names count => [("fields", .strings names), ("limit", .nat count)]
  | .bin field span output =>
    [("field", .string field), ("span", span.toJson), ("alias", .optionalString output)]
  | .timechart span aggregations splitBy =>
    [("span", span.toJson), ("aggregations", .array (aggregations.map Aggregation.toJson)),
      ("by", .optionalString splitBy)]
  | .rex field pattern => [("field", .string field), ("pattern", .string pattern)]

/-- The name of a stage's form: that of its command, with one name for all that bound rows. -/
def Stage.form : Stage → String
  | .limit _ _ => "limit"
  | s => s.name

def Stage.toJson (s : Stage) : Json := .tagged "type" s.form s.jsonFields

def Aggregation.listOfJson? (j : Json) : Option (List Aggregation) := do
  (← j.items? "aggregations").mapM Aggregation.ofJson?

def Stage.ofJson? (j : Json) : Option Stage := do
  match ← j.text? "type" with
  | "search" => return .filter .search (← Condition.allOfJson? (← j.items? "conditions"))
  | "filter" => return .filter .filter (← Condition.allOfJson? (← j.items? "conditions"))
  | "where" => return .filter .where_ (← Condition.allOfJson? (← j.items? "conditions"))
  | "stats" => return .stats (← Aggregation.listOfJson? j) (← j.texts? "group_by")
  | "sort" => return .sort (← (← j.items? "fields").mapM SortKey.ofJson?)
  | "limit" =>
    let name ← j.text? "command"
    let command ← LimitCommand.all.find? (·.name == name)
    return .limit command (← (← j.field? "count").nat?)
  | "dedup" => return .dedup (← j.texts? "fields")
  | "table" => return .table (← j.texts? "fields")
  | "fields" => return .fields (← j.texts? "fields") (← (← j.field? "include").bool?)
  | "rename" => return .rename (← (← j.items? "renames").mapM Renaming.ofJson?)
  | "eval" => return .eval (← (← j.items? "assignments").mapM Assignment.ofJson?)
  | "top" => return .frequent .top (← j.texts? "fields") (← (← j.field? "limit").nat?)
  | "rare" => return .frequent .rare (← j.texts? "fields") (← (← j.field? "limit").nat?)
  | "bin" =>
    let span ← Span.ofJson? (← j.field? "span")
    return .bin (← j.text? "field") span (← j.optionalString? "alias")
  | "timechart" =>
    let span ← Span.ofJson? (← j.field? "span")
    return .timechart span (← Aggregation.listOfJson? j) (← j.optionalString? "by")
  | "rex" => return .rex (← j.text? "field") (← j.text? "pattern")
  | _ => none

def Pipeline.toJson (p : Pipeline) : Json :=
  .object [("stages", .array (p.stages.map Stage.toJson))]

def Pipeline.ofJson? (j : Json) : Option Pipeline := do
  return ⟨← (← j.items? "stages").mapM Stage.ofJson?⟩

end LogQuery
