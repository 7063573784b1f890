import LogQuery.CommandLine.Libraries
import LogQuery.Compile.Pipeline
import LogQuery.Syntax.Json
import Mathlib.Tactic.Lemma

namespace LogQuery

/-- Items that are each read back make a list that is read back. -/
lemma mapM_map_eq_some {α β : Type} {read : β → Option α} {write : α → β} {as : List α}
    (h : ∀ a ∈ as, read (write a) = some a) : (as.map write).mapM read = some as := by
  induction as with
  | nil => rfl
  | cons a as ih =>
    rw [List.forall_mem_cons] at h
    simp [List.mapM_cons, h.1, ih h.2]

/-! ### Fields of objects -/

namespace Json

variable {key : String} {j : Json}

@[simp] lemma field?_object (key : String) (fields : List (String × Json)) :
    (object fields).field? key = (fields.reverse.find? (·.1 == key)).map (·.2) := rfl

@[simp] lemma field?_tagged (key tag form : String) (fields : List (String × Json)) :
    (tagged tag form fields).field? key =
      (((tag, string form) :: fields).reverse.find? (·.1 == key)).map (·.2) := rfl

@[simp] lemma text?_eq (key : String) (j : Json) : j.text? key = (j.field? key).bind string? := rfl

@[simp] lemma items?_eq (key : String) (j : Json) : j.items? key = (j.field? key).bind array? := rfl

@[simp] lemma texts?_eq (key : String) (j : Json) :
    j.texts? key = (j.field? key).bind strings? := rfl

@[simp] lemma string?_string (s : String) : (string s).string? = some s := rfl

@[simp] lemma bool?_bool (b : Bool) : (bool b).bool? = some b := rfl

@[simp] lemma array?_array (items : List Json) : (array items).array? = some items := rfl

@[simp] lemma strings?_strings (items : List String) : (strings items).strings? = some items := by
  rw [strings, strings?, array?]
  exact mapM_map_eq_some fun _ _ => rfl

/-- A natural number of 64 bits is read back. -/
lemma nat?_nat {n : Nat} (h : n < twoTo 64) : (nat n).nat? = some n := by
  have hcast : (n : Int) = .ofNat n := rfl
  rw [nat, hcast, nat?, if_pos h]

/-- A missing text is written as `null`. -/
lemma optionalString?_of_field? {s : Option String}
    (h : j.field? key = some (optionalString s)) : j.optionalString? key = some s := by
  cases s <;> simp [optionalString?, h, optionalString]

lemma flag?_of_field? {b : Bool} (h : j.field? key = some (bool b)) : j.flag? key = some b := by
  simp [flag?, h]

end Json

/-! ### Values -/

/-- No number stands in the value. -/
inductive Value.NumberFree : Value → Prop where
  | string (s : String) : NumberFree (.string s)
  | regex (p : String) : NumberFree (.regex p)
  | null : NumberFree .null
  | list {items : List Value} (h : ∀ v ∈ items, v.NumberFree) : NumberFree (.list items)

attribute [simp] Value.NumberFree.string Value.NumberFree.regex Value.NumberFree.null
  Value.NumberFree.list

namespace Value

lemma allToJson_eq_map (vs : List Value) : allToJson vs = vs.map toJson := by
  induction vs with
  | nil => rfl
  | cons v vs ih => simp [allToJson, ih]

/-- The list reader beside `ofJson?` reads member by member. -/
lemma allOfJson?_eq_mapM (js : List Json) : allOfJson? js = js.mapM ofJson? := by
  induction js with
  | nil => simp [allOfJson?]
  | cons j js ih => simp [allOfJson?, ih, List.mapM_cons]

/-- A list is read by its tag and its items. -/
lemma ofJson?_list {j : Json} {items : List Json} (htype : j.text? "type" = some "list")
    (hitems : j.items? "value" = some items) : ofJson? j = (allOfJson? items).map .list := by
  rw [ofJson?, htype]
  simp only
  split <;> simp_all

/-- The induction is on the nesting of lists. -/
lemma NumberFree.ofJson?_toJson {v : Value} (h : v.NumberFree) : ofJson? v.toJson = some v := by
  induction h with
  | string s => simp [toJson, ofJson?]
  | regex p => simp [toJson, ofJson?]
  | null => simp [toJson, ofJson?]
  | @list items h ih =>
    have hread : ofJson? (toJson (.list items)) = (allOfJson? (allToJson items)).map .list :=
      ofJson?_list (by simp [toJson]) (by simp [toJson])
    rw [hread, allToJson_eq_map, allOfJson?_eq_mapM, mapM_map_eq_some ih]
    rfl

end Value

/-! ### Conditions -/

/-- No number stands in the condition. -/
inductive Condition.NumberFree : Condition → Prop where
  | compare {field : String} {comparison : Comparison} {value : Value} {negated : Bool}
      (h : value.NumberFree) : NumberFree (.compare field comparison value negated)
  | group {logic : Connective} {members : List Condition} {negated : Bool}
      (h : ∀ c ∈ members, c.NumberFree) : NumberFree (.group logic members negated)

attribute [simp] Condition.NumberFree.compare Condition.NumberFree.group

/-- No two comparisons have one code. -/
lemma Comparison.find?_code (comparison : Comparison) :
    all.find? (·.code == comparison.code) = some comparison := by
  cases comparison <;> rfl

/-- No two connectives are displayed alike. -/
lemma Connective.ofText?_display (logic : Connective) : ofText? logic.display = some logic := by
  cases logic <;> rfl

namespace Condition

lemma allToJson_eq_map (cs : List Condition) : allToJson cs = cs.map toJson := by
  induction cs with
  | nil => rfl
  | cons c cs ih => simp [allToJson, ih]

lemma allOfJson?_eq_mapM (js : List Json) : allOfJson? js = js.mapM ofJson? := by
  induction js with
  | nil => simp [allOfJson?]
  | cons j js ih => simp [allOfJson?, ih, List.mapM_cons]

/-- A group is read by its tag, its connective and its members. -/
lemma ofJson?_group {j : Json} {items : List Json} (hkind : j.text? "kind" = some "group")
    (hitems : j.items? "conditions" = some items) :
    ofJson? j = (do
      let logic ← (j.text? "logic").bind Connective.ofText?
      return .group logic (← allOfJson? items) (← j.flag? "negated")) := by
  rw [ofJson?, hkind]
  simp only
  split <;> simp_all

/-- The induction is on the nesting of groups. -/
lemma NumberFree.ofJson?_toJson {c : Condition} (h : c.NumberFree) :
    ofJson? c.toJson = some c := by
  induction h with
  | @compare field comparison value negated h =>
    have hflag : (toJson (.compare field comparison value negated)).flag? "negate" = some negated :=
      Json.flag?_of_field? (by simp [toJson])
    rw [toJson] at hflag ⊢
    simp [ofJson?, hflag, Comparison.find?_code, h.ofJson?_toJson]
  | @group logic members negated h ih =>
    have hflag : (toJson (.group logic members negated)).flag? "negated" = some negated :=
      Json.flag?_of_field? (by simp [toJson])
    have hmembers : allOfJson? (allToJson members) = some members := by
      rw [allToJson_eq_map, allOfJson?_eq_mapM, mapM_map_eq_some ih]
    rw [ofJson?_group (by simp [toJson]) (by simp [toJson]; rfl), hflag, hmembers]
    simp [toJson, Connective.ofText?_display]

/-- Conditions are read back one by one. -/
lemma allOfJson?_allToJson {cs : List Condition} (h : ∀ c ∈ cs, c.NumberFree) :
    allOfJson? (allToJson cs) = some cs := by
  rw [allToJson_eq_map, allOfJson?_eq_mapM]
  exact mapM_map_eq_some fun c hc => (h c hc).ofJson?_toJson

end Condition

/-! ### Expressions -/

/-- No number stands in the expression. -/
inductive EvalExpr.NumberFree : EvalExpr → Prop where
  | literal {value : Value} (h : value.NumberFree) : NumberFree (.literal value)
  | field (name : String) : NumberFree (.field name)
  | binary {op : BinaryOperator} {left right : EvalExpr} (hleft : left.NumberFree)
      (hright : right.NumberFree) : NumberFree (.binary op left right)
  | call {function : String} {args : List EvalExpr} (h : ∀ e ∈ args, e.NumberFree) :
      NumberFree (.call function args)

attribute [simp] EvalExpr.NumberFree.literal EvalExpr.NumberFree.field EvalExpr.NumberFree.binary
  EvalExpr.NumberFree.call

/-- No two operators have one code. -/
lemma BinaryOperator.find?_code (op : BinaryOperator) :
    all.find? (·.code == op.code) = some op := by
  cases op <;> rfl

namespace EvalExpr

lemma allToJson_eq_map (es : List EvalExpr) : allToJson es = es.map toJson := by
  induction es with
  | nil => rfl
  | cons e es ih => simp [allToJson, ih]

lemma allOfJson?_eq_mapM (js : List Json) : allOfJson? js = js.mapM ofJson? := by
  induction js with
  | nil => simp [allOfJson?]
  | cons j js ih => simp [allOfJson?, ih, List.mapM_cons]

/-- A binary operation is read by its tag, its operator and both sides. -/
lemma ofJson?_binary {j left right : Json} (htype : j.text? "type" = some "binary_op")
    (hleft : j.field? "left" = some left) (hright : j.field? "right" = some right) :
    ofJson? j = (do
      let code ← j.text? "op"
      let op ← BinaryOperator.all.find? (·.code == code)
      return .binary op (← ofJson? left) (← ofJson? right)) := by
  rw [ofJson?, htype]
  simp only
  split <;> simp_all

/-- A call is read by its tag, its name and its arguments. -/
lemma ofJson?_call {j : Json} {items : List Json} (htype : j.text? "type" = some "function_call")
    (hitems : j.items? "args" = some items) :
    ofJson? j = (do return .call (← j.text? "name") (← allOfJson? items)) := by
  rw [ofJson?, htype]
  simp only
  split <;> simp_all

/-- The induction is on the expression. -/
lemma NumberFree.ofJson?_toJson {e : EvalExpr} (h : e.NumberFree) :
    ofJson? e.toJson = some e := by
  induction h with
  | literal h => simp [toJson, ofJson?, h.ofJson?_toJson]
  | field name => simp [toJson, ofJson?]
  | @binary op left right hleft hright ihleft ihright =>
    rw [toJson, ofJson?_binary (by simp) (by simp; rfl) (by simp; rfl), ihleft, ihright]
    simp [BinaryOperator.find?_code]
  | @call function args h ih =>
    have hargs : allOfJson? (allToJson args) = some args := by
      rw [allToJson_eq_map, allOfJson?_eq_mapM, mapM_map_eq_some ih]
    rw [toJson, ofJson?_call (by simp) (by simp; rfl), hargs]
    simp

end EvalExpr

/-! ### Parts of stages

The counts of a tree are held in 64 bits and its percentages in eight, and no other ones are read.
-/

/-- A percentage fits into eight bits. -/
def AggregateFunction.InRange : AggregateFunction → Prop
  | .percentile percent => percent < 256
  | _ => True

/-- An aggregate is read back. Only a percentile holds a number, which is a byte. -/
lemma AggregateFunction.ofJson?_toJson {f : AggregateFunction} (h : f.InRange) :
    ofJson? f.toJson = some f := by
  cases f with
  | percentile percent =>
    have hlt : percent < twoTo 64 := Nat.lt_trans h (by decide)
    simp [toJson, ofJson?, Json.nat?_nat hlt, show percent < 256 from h]
  | _ => rfl

/-- An aggregation is read back with its field and its output, given or not. -/
lemma Aggregation.ofJson?_toJson {a : Aggregation} (h : a.function.InRange) :
    ofJson? a.toJson = some a := by
  have hfield : a.toJson.optionalString? "field" = some a.field :=
    Json.optionalString?_of_field? (by simp [toJson])
  have houtput : a.toJson.optionalString? "alias" = some a.output :=
    Json.optionalString?_of_field? (by simp [toJson])
  rw [ofJson?, hfield, houtput]
  simp [toJson, AggregateFunction.ofJson?_toJson h]

/-- The span is one of time. -/
def Span.NumberFree : Span → Prop
  | .time _ _ => True
  | .numeric _ => False

/-- The amount of time fits into 64 bits. -/
def Span.InRange : Span → Prop
  | .time amount _ => amount < twoTo 64
  | .numeric _ => True

lemma TimeUnit.ofName?_name (unit : TimeUnit) : ofName? unit.name = some unit := by
  cases unit <;> rfl

/-- A span in units of time is read back; a width is a number. -/
lemma Span.ofJson?_toJson {span : Span} (hfree : span.NumberFree) (hrange : span.InRange) :
    ofJson? span.toJson = some span := by
  cases span with
  | time amount unit =>
    simp [toJson, ofJson?, Json.nat?_nat hrange, TimeUnit.ofName?_name]
  | numeric width => exact hfree.elim

lemma SortKey.ofJson?_toJson (k : SortKey) : ofJson? k.toJson = some k := by
  have horder : SortOrder.ofCode? k.order.code = some k.order := by cases k.order <;> rfl
  simp [toJson, ofJson?, horder]

lemma Renaming.ofJson?_toJson (r : Renaming) : ofJson? r.toJson = some r := by
  simp [toJson, ofJson?]

lemma Assignment.ofJson?_toJson {a : Assignment} (h : a.expr.NumberFree) :
    ofJson? a.toJson = some a := by
  simp [toJson, ofJson?, h.ofJson?_toJson]

/-! ### Stages and pipelines -/

/-- No number literal and no numeric span stands in the stage. -/
def Stage.NumberFree : Stage → Prop
  | .filter _ conditions => ∀ c ∈ conditions, c.NumberFree
  | .eval assignments => ∀ a ∈ assignments, a.expr.NumberFree
  | .bin _ span _ => span.NumberFree
  | .timechart span _ _ => span.NumberFree
  | _ => True

/-- The counts and percentages of the stage fit into the types that hold them. -/
def Stage.InRange : Stage → Prop
  | .stats aggregations _ => ∀ a ∈ aggregations, a.function.InRange
  | .limit _ count => count < twoTo 64
  | .frequent _ _ count => count < twoTo 64
  | .bin _ span _ => span.InRange
  | .timechart span aggregations _ => span.InRange ∧ ∀ a ∈ aggregations, a.function.InRange
  | _ => True

/-- Aggregations are read back one by one. -/
lemma Aggregation.listOfJson?_of_items? {j : Json} {aggregations : List Aggregation}
    (hitems : j.items? "aggregations" = some (aggregations.map toJson))
    (h : ∀ a ∈ aggregations, a.function.InRange) : listOfJson? j = some aggregations := by
  rw [listOfJson?, hitems]
  exact mapM_map_eq_some fun a ha => ofJson?_toJson (h a ha)

lemma LimitCommand.find?_name (command : LimitCommand) :
    all.find? (·.name == command.name) = some command := by
  cases command <;> rfl

/-- Every kind of stage is read back from the fields that it writes. -/
lemma Stage.ofJson?_toJson {s : Stage} (hfree : s.NumberFree) (hrange : s.InRange) :
    ofJson? s.toJson = some s := by
  cases s with
  | filter command conditions =>
    have hconditions := Condition.allOfJson?_allToJson hfree
    cases command <;>
      simp [toJson, ofJson?, form, name, FilterCommand.name, jsonFields, hconditions]
  | stats aggregations groupBy =>
    have haggregations : Aggregation.listOfJson? (toJson (.stats aggregations groupBy)) =
        some aggregations :=
      Aggregation.listOfJson?_of_items? (by simp [toJson, jsonFields]) hrange
    rw [ofJson?, haggregations]
    simp [toJson, form, name, jsonFields]
  | sort keys =>
    have hkeys := mapM_map_eq_some fun k (_ : k ∈ keys) => SortKey.ofJson?_toJson k
    simp [toJson, ofJson?, form, name, jsonFields, hkeys]
  | limit command count =>
    simp [toJson, ofJson?, form, jsonFields, LimitCommand.find?_name, Json.nat?_nat hrange]
  | dedup names => simp [toJson, ofJson?, form, name, jsonFields]
  | table names => simp [toJson, ofJson?, form, name, jsonFields]
  | fields names keep => simp [toJson, ofJson?, form, name, jsonFields]
  | rename renamings =>
    have hrenamings := mapM_map_eq_some fun r (_ : r ∈ renamings) => Renaming.ofJson?_toJson r
    simp [toJson, ofJson?, form, name, jsonFields, hrenamings]
  | eval assignments =>
    have hassignments := mapM_map_eq_some fun a ha => Assignment.ofJson?_toJson (hfree a ha)
    simp [toJson, ofJson?, form, name, jsonFields, hassignments]
  | frequent which names count =>
    cases which <;>
      simp [toJson, ofJson?, form, name, Frequency.name, jsonFields, Json.nat?_nat hrange]
  | bin field span output =>
    have houtput : (toJson (.bin field span output)).optionalString? "alias" = some output :=
      Json.optionalString?_of_field? (by simp [toJson, jsonFields])
    rw [ofJson?, houtput]
    simp [toJson, form, name, jsonFields, Span.ofJson?_toJson hfree hrange]
  | timechart span aggregations splitBy =>
    have haggregations : Aggregation.listOfJson? (toJson (.timechart span aggregations splitBy)) =
        some aggregations :=
      Aggregation.listOfJson?_of_items? (by simp [toJson, jsonFields]) hrange.2
    have hsplitBy : (toJson (.timechart span aggregations splitBy)).optionalString? "by" =
        some splitBy := Json.optionalString?_of_field? (by simp [toJson, jsonFields])
    rw [ofJson?, haggregations, hsplitBy]
    simp [toJson, form, name, jsonFields, Span.ofJson?_toJson hfree hrange.1]
  | rex field pattern => simp [toJson, ofJson?, form, name, jsonFields]

/-- No number literal and no numeric span stands in the pipeline. -/
def Pipeline.NumberFree (p : Pipeline) : Prop := ∀ s ∈ p.stages, s.NumberFree

/-- The counts and percentages of the pipeline fit into the types that hold them. -/
def Pipeline.InRange (p : Pipeline) : Prop := ∀ s ∈ p.stages, s.InRange

/-- The stages are read back one by one. -/
lemma Pipeline.ofJson?_toJson {p : Pipeline} (hfree : p.NumberFree) (hrange : p.InRange) :
    ofJson? p.toJson = some p := by
  have hstages := mapM_map_eq_some fun s hs => Stage.ofJson?_toJson (hfree s hs) (hrange s hs)
  simp [toJson, ofJson?, hstages]

/-- A pipeline without numbers in binary notation is read back from its JSON form as it was, and so
its statement is the same. -/
theorem Pipeline.reads_back [Libraries] {p : Pipeline} (hfree : p.NumberFree) (hrange : p.InRange) :
    ofJson? p.toJson = some p ∧
    ∀ (target : Target) (defaultLimit : Nat) (earliest latest : Option String),
      (ofJson? p.toJson).map (·.outcome target defaultLimit earliest latest) =
        some (p.outcome target defaultLimit earliest latest) := by
  have hread := ofJson?_toJson hfree hrange
  refine ⟨hread, fun target defaultLimit earliest latest => ?_⟩
  rw [hread, Option.map_some]

/-- Groups and lists that nest, a percentile, a span of time, and options with and without text. -/
theorem Pipeline.reads_back_nested :
    let p : Pipeline := ⟨[
      .filter .where_
        [.group .or
          [.compare "host" .notIn (.list [.string "a", .list [.null, .regex "b"]]) true,
            .group .and [.compare "_raw" .contains (.string "c") false] true] false],
      .eval [⟨"x", .binary .divide (.field "a") (.call "f" [.literal .null, .field "b"])⟩],
      .timechart (.time 5 .minute) [⟨.percentile 95, some "x", none⟩, ⟨.count, none, some "n"⟩]
        (some "host")]⟩
    p.NumberFree ∧ p.InRange ∧ ofJson? p.toJson = some p ∧
      (ofJson? p.toJson).map (·.outcome ⟨.sqlite, "logs"⟩ 100 none none) =
        some (p.outcome ⟨.sqlite, "logs"⟩ 100 none none) := by
  intro p
  have hhosts : (Value.list [.string "a", .list [.null, .regex "b"]]).NumberFree :=
    .list (by simp)
  have hcall : (EvalExpr.call "f" [.literal .null, .field "b"]).NumberFree := .call (by simp)
  have hfree : p.NumberFree := by
    simp only [p, NumberFree, List.forall_mem_cons]
    refine ⟨?_, ?_, trivial, by simp⟩
    · exact List.forall_mem_singleton.2 (.group (by simp [hhosts]))
    · exact List.forall_mem_singleton.2 (.binary (.field "a") hcall)
  have hrange : p.InRange := by
    simp [p, InRange, Stage.InRange, Span.InRange, AggregateFunction.InRange]
    decide
  obtain ⟨hread, hstatement⟩ := Pipeline.reads_back hfree hrange
  exact ⟨hfree, hrange, hread, hstatement ⟨.sqlite, "logs"⟩ 100 none none⟩

end LogQuery
