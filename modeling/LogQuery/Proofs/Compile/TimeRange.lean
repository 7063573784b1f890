import LogQuery.CommandLine.Libraries
import LogQuery.Proofs.Compile.Subquery

namespace LogQuery

open Sql

variable {d : Dialect} {target : Target} {draft : Draft} {bounds filter : List Expr}

/-! ### Expressions -/

namespace Sql.Expr

mutual

/-- The expression with more conditions in front of the filter of every subquery. -/
def within (bounds : List Expr) : Expr → Expr
  | .paren e => .paren (within bounds e)
  | .tuple items => .tuple (allWithin bounds items)
  | .chain op operands => .chain op (allWithin bounds operands)
  | .not e => .not (within bounds e)
  | .nullTest e negated => .nullTest (within bounds e) negated
  | .between e first last => .between (within bounds e) (within bounds first) (within bounds last)
  | .call function args => .call function (allWithin bounds args)
  | .applied function params args =>
    .applied function (allWithin bounds params) (allWithin bounds args)
  | .element e index => .element (within bounds e) index
  | .distinct e => .distinct (within bounds e)
  | .cast e type => .cast (within bounds e) type
  | .caseWhen branches otherwise =>
    .caseWhen (branchesWithin bounds branches) (within bounds otherwise)
  | .sortedAt e fraction table filter =>
    .sortedAt (within bounds e) fraction table (bounds ++ allWithin bounds filter)
  | .mostFrequent e table filter =>
    .mostFrequent (within bounds e) table (bounds ++ allWithin bounds filter)
  | .edgeRow e table last => .edgeRow (within bounds e) table last
  | e => e

/-- The expressions with more conditions in front of the filters of subqueries. -/
def allWithin (bounds : List Expr) : List Expr → List Expr
  | [] => []
  | e :: rest => within bounds e :: allWithin bounds rest

/-- The branches with more conditions in front of the filters of subqueries. -/
def branchesWithin (bounds : List Expr) : List (Expr × Expr) → List (Expr × Expr)
  | [] => []
  | (condition, value) :: rest =>
    (within bounds condition, within bounds value) :: branchesWithin bounds rest

end

mutual

/-- Where there is no subquery, nothing changes. -/
lemma within_eq_self : ∀ {e : Expr}, e.subqueries = [] → e.within bounds = e
  | .paren _, h => congrArg paren (within_eq_self h)
  | .tuple _, h => congrArg tuple (allWithin_eq_self h)
  | .chain op _, h => congrArg (chain op) (allWithin_eq_self h)
  | .not _, h => congrArg Expr.not (within_eq_self h)
  | .nullTest _ _, h => congrArg (nullTest · _) (within_eq_self h)
  | .between _ _ _, h => by
    simp only [subqueries_between, List.append_eq_nil_iff] at h
    rw [within, within_eq_self h.1.1, within_eq_self h.1.2, within_eq_self h.2]
  | .call function _, h => congrArg (call function) (allWithin_eq_self h)
  | .applied _ _ _, h => by
    obtain ⟨hparams, hargs⟩ := List.append_eq_nil_iff.1 h
    rw [within, allWithin_eq_self hparams, allWithin_eq_self hargs]
  | .element _ _, h => congrArg (element · _) (within_eq_self h)
  | .distinct _, h => congrArg distinct (within_eq_self h)
  | .cast _ _, h => congrArg (cast · _) (within_eq_self h)
  | .caseWhen _ _, h => by
    obtain ⟨hbranches, hotherwise⟩ := List.append_eq_nil_iff.1 h
    rw [within, branchesWithin_eq_self hbranches, within_eq_self hotherwise]
  | .edgeRow _ _ _, h => congrArg (edgeRow · _ _) (within_eq_self h)
  | .verbatim _, _ | .column _, _ | .text _, _ | .number _, _ | .nat _, _ | .null, _ | .star, _
  | .interval _ _, _ => rfl

/-- Bounds reach an expression through its subqueries only. -/
lemma allWithin_eq_self : ∀ {es : List Expr}, allSubqueries es = [] → allWithin bounds es = es
  | [], _ => rfl
  | e :: es, h => by
    obtain ⟨he, hes⟩ := List.append_eq_nil_iff.1 h
    rw [allWithin, within_eq_self he, allWithin_eq_self hes]

lemma branchesWithin_eq_self : ∀ {branches : List (Expr × Expr)},
    branchSubqueries branches = [] → branchesWithin bounds branches = branches
  | [], _ => rfl
  | (condition, value) :: branches, h => by
    obtain ⟨hfirst, hlater⟩ := List.append_eq_nil_iff.1 h
    obtain ⟨hcondition, hvalue⟩ := List.append_eq_nil_iff.1 hfirst
    rw [branchesWithin, within_eq_self hcondition, within_eq_self hvalue,
      branchesWithin_eq_self hlater]

end

end Sql.Expr

/-- An aggregate over the rows within the bounds. -/
lemma Dialect.aggregate_within (d : Dialect) (function : AggregateFunction) (table : String)
    {e : Expr} (he : e.subqueries = []) (hfilter : Expr.allSubqueries filter = []) :
    (d.aggregate function e ⟨table, filter⟩).within bounds =
      d.aggregate function e ⟨table, bounds ++ filter⟩ := by
  cases d <;> cases function <;>
    simp [aggregate, clickHouseAggregate, sqliteAggregate, Expr.within, Expr.allWithin, Expr.binary,
      Expr.within_eq_self he, Expr.allWithin_eq_self hfilter]

/-! ### Drafts -/

/-- The item over the rows within the bounds. -/
def SelectItem.within (bounds : List Expr) (item : SelectItem) : SelectItem :=
  { item with expr := item.expr.within bounds }

namespace Draft

/-- The draft of the rows within the bounds. -/
def within (bounds : List Expr) (draft : Draft) : Draft :=
  { draft with
    items := draft.items.map (SelectItem.within bounds)
    filter := bounds ++ draft.filter }

lemma isNamed_within (field : String) (item : SelectItem) :
    isNamed field (item.within bounds) = isNamed field item := by
  obtain ⟨expr, output⟩ := item
  cases output with
  | some name => rfl
  | none => cases expr <;> rfl

/-- Renaming looks at expressions, and bounds keep which of them are the same column. -/
lemma renameItems_within (items : List SelectItem) (r : Renaming) :
    renameItems (items.map (SelectItem.within bounds)) r =
      (renameItems items r).map (SelectItem.within bounds) := by
  rw [renameItems, renameItems, List.map_map, List.map_map]
  refine List.map_congr_left fun item _ => ?_
  simp only [Function.comp_apply, isNamed_within]
  split_ifs <;> rfl

lemma foldl_renameItems_within (items : List SelectItem) (rs : List Renaming) :
    rs.foldl renameItems (items.map (SelectItem.within bounds)) =
      (rs.foldl renameItems items).map (SelectItem.within bounds) := by
  induction rs generalizing items with
  | nil => rfl
  | cons r rs ih => rw [List.foldl_cons, List.foldl_cons, renameItems_within, ih]

namespace Flat

variable (h : draft.Flat)
include h

/-- What a draft within bounds selects for a field is its item within the bounds. -/
lemma item_within (field : String) :
    (draft.within bounds).item field = (draft.item field).within bounds := by
  have hitem : (draft.within bounds).item field = draft.item field := rfl
  rw [hitem, SelectItem.within, Expr.within_eq_self (h.subqueries_item field)]

lemma items_within (fields : List String) :
    fields.map (draft.within bounds).item =
      (fields.map draft.item).map (SelectItem.within bounds) := by
  rw [List.map_map]
  exact List.map_congr_left fun field _ => h.item_within field

/-- An aggregation is made over the filter that the draft has so far. -/
lemma aggregationItem_within (a : Aggregation) :
    (draft.within bounds).aggregationItem target a =
      (draft.aggregationItem target a).within bounds := by
  rw [aggregationItem, aggregationItem, SelectItem.within]
  cases a.field with
  | none =>
    exact congrArg (SelectItem.mk · _) (Expr.within_eq_self Dialect.subqueries_countAll).symm
  | some field =>
    exact congrArg (SelectItem.mk · _) (target.dialect.aggregate_within a.function target.table
      (h.subqueries_value field) h.filter).symm

lemma aggregationItems_within (as : List Aggregation) :
    as.map ((draft.within bounds).aggregationItem target) =
      (as.map (draft.aggregationItem target)).map (SelectItem.within bounds) := by
  rw [List.map_map]
  exact List.map_congr_left fun a _ => h.aggregationItem_within a

end Flat

lemma map_within_tableItems (columns : List String) :
    (columns.map tableItem).map (SelectItem.within bounds) = columns.map tableItem := by
  rw [List.map_map]
  rfl

/-- Two drafts within bounds agree if their items do. -/
lemma eq_within (draft : Draft) {items : List SelectItem}
    (h : items = draft.items.map (SelectItem.within bounds)) :
    { draft.within bounds with items := items } = draft.within bounds :=
  congrArg (fun items => { draft.within bounds with items := items }) h

lemma addAll_within {cs : List ComputedColumn} (h : ∀ c ∈ cs, c.expr.subqueries = []) :
    (draft.within bounds).addAll cs = (draft.addAll cs).within bounds := by
  have hcs : (cs.map ComputedColumn.item).map (SelectItem.within bounds) =
      cs.map ComputedColumn.item := by
    rw [List.map_map]
    refine List.map_congr_left fun c hc => ?_
    exact congrArg (SelectItem.mk · _) (Expr.within_eq_self (h c hc))
  have hitems : draft.items.map (SelectItem.within bounds) ++ cs.map ComputedColumn.item =
      (draft.items ++ cs.map ComputedColumn.item).map (SelectItem.within bounds) := by
    rw [List.map_append, hcs]
  exact eq_within (draft.addAll cs) hitems

/-! One lemma for each way of making a select list. -/

namespace Flat

variable (h : draft.Flat)
include h

lemma keep_within (fields : List String) :
    (draft.within bounds).keep fields = (draft.keep fields).within bounds :=
  eq_within (draft.keep fields) (h.items_within fields)

/-- Aggregations take the filter with the bounds in front. -/
lemma group_within (as : List Aggregation) (fields : List String) :
    (draft.within bounds).group target as fields =
      (draft.group target as fields).within bounds := by
  refine eq_within (draft.group target as fields) ?_
  rw [group, List.map_append, h.items_within, h.aggregationItems_within]

lemma countCombinations_within (fields : List String) (order : SortOrder) (limit : Nat) :
    (draft.within bounds).countCombinations d fields order limit =
      (draft.countCombinations d fields order limit).within bounds := by
  refine eq_within (draft.countCombinations d fields order limit) ?_
  rw [countCombinations, List.map_append, h.items_within, List.map_singleton, SelectItem.within,
    Expr.within_eq_self Dialect.subqueries_countAll]

lemma chart_within (span : Span) (as : List Aggregation) (splitBy : Option String) :
    (draft.within bounds).chart target span as splitBy =
      (draft.chart target span as splitBy).within bounds := by
  refine eq_within (draft.chart target span as splitBy) ?_
  rw [chart, List.map_append, List.map_cons, h.items_within, h.aggregationItems_within,
    SelectItem.within, Expr.within_eq_self (Dialect.subqueries_timeBucket rfl _)]

/-- What a stage makes of the draft of the rows within the bounds is, within the bounds, what it
makes of the draft of all rows. -/
lemma apply_within (stage : Stage) :
    stage.apply target (draft.within bounds) = (stage.apply target draft).within bounds := by
  cases stage with
  | filter command conditions =>
    have hfilter := List.append_assoc bounds draft.filter
      (Condition.fragment? target.dialect conditions).toList
    exact congrArg (fun filter => { draft.within bounds with filter := filter }) hfilter
  | sort | limit => rfl
  | rename renamings =>
    exact eq_within ((Stage.rename renamings).apply target draft)
      (foldl_renameItems_within draft.items renamings)
  | eval assignments =>
    rw [Stage.apply_eval, Stage.apply_eval]
    exact addAll_within (Stage.subqueries_computed _)
  | rex field pattern =>
    rw [Stage.apply_rex, Stage.apply_rex]
    exact addAll_within (Stage.subqueries_computed _)
  | bin field span output =>
    exact addAll_within (Stage.subqueries_computed (d := target.dialect) (.bin field span output))
  | stats as fields => exact h.group_within as fields
  | timechart span as splitBy => exact h.chart_within span as splitBy
  | frequent which fields limit => exact h.countCombinations_within fields which.order limit
  | dedup fields =>
    exact congrArg (fun draft : Draft => { draft with distinct := true }) (h.keep_within fields)
  | table fields => exact h.keep_within fields
  | fields names keep =>
    cases keep with
    | true => exact h.keep_within names
    | false => exact eq_within (draft.leaveOut names) (map_within_tableItems _).symm

end Flat

end Draft

/-! ### Pipelines -/

namespace Statement

/-- The statement over the rows within the bounds: these stand in front of its filter and of the
filter of every subquery. -/
def within (bounds : List Expr) (s : Statement) : Statement :=
  { s with
    items := s.items.map (SelectItem.within bounds)
    filter := bounds ++ s.filter }

end Statement

def TimeBound.condition (d : Dialect) (comparison : String) (b : TimeBound) : String :=
  Column.timestamp ++ " " ++ comparison ++ " " ++ (b.toSql d).render d

/-- The texts of the bounds are one comparison for each end that is given. -/
lemma TimeBound.render_conditions (d : Dialect) (from? to? : Option TimeBound) :
    (conditions d from? to?).map (Expr.render d) =
      (from?.map (condition d ">=")).toList ++ (to?.map (condition d "<=")).toList := by
  have htimestamp : (Expr.column Column.timestamp).render d = Column.timestamp := by
    cases d <;> decide
  have hcondition : ∀ op (b : TimeBound), (Expr.binary op (.column Column.timestamp)
      (b.toSql d)).render d = condition d op.text b := by
    intro op b
    change String.intercalate (" " ++ op.text ++ " ")
      [(Expr.column Column.timestamp).render d, (b.toSql d).render d] = _
    rw [htimestamp, condition]
    simp [String.intercalate_cons_cons, String.append_assoc]
  rw [conditions, List.map_append]
  cases from? <;> cases to? <;> simp [hcondition, Operator.text]

namespace Pipeline

/-- How the making of the statement ends where the bounds of time can be read. -/
def outcomeOf (p : Pipeline) (d : Dialect) (s : Statement) : Outcome :=
  if p.breaksDown d then .brokenDown else .statement (s.render d)

/-- The bounds in which a pipeline begins stay in front of all that its stages ask for. The
induction is on the stages from the last one on. -/
lemma draft_within (p : Pipeline) (target : Target) (bounds : List Expr) :
    p.draft target bounds = (p.draft target []).within bounds := by
  obtain ⟨stages⟩ := p
  induction stages using List.reverseRecOn with
  | nil =>
    have hstart : bounds = bounds ++ [] := (List.append_nil bounds).symm
    exact congrArg (fun filter => { Draft.start [] with filter := filter }) hstart
  | append_singleton front stage ih =>
    rw [draft_snoc, draft_snoc, ih, (flat_draft ⟨front⟩ target rfl).apply_within]

/-- Bounds given to the compiler stand in front of every filter, also of a subquery's. -/
lemma statement_within (p : Pipeline) (target : Target) (defaultLimit : Nat) (bounds : List Expr) :
    p.statement target defaultLimit bounds =
      (p.statement target defaultLimit []).within bounds := by
  rw [statement, draft_within]
  rfl

/-- Bounds that are read leave the outcome to the pipeline. -/
lemma outcome_of_ok [Libraries] {p : Pipeline} {target : Target} {defaultLimit : Nat}
    {earliest latest : Option String} {from? to? : Option TimeBound}
    (hearliest : TimeBound.ofText? earliest = .ok from?)
    (hlatest : TimeBound.ofText? latest = .ok to?) :
    p.outcome target defaultLimit earliest latest =
      p.outcomeOf target.dialect
        (p.statement target defaultLimit (TimeBound.conditions target.dialect from? to?)) := by
  rw [outcome, compile_eq_ok.2 ⟨from?, to?, hearliest, hlatest, rfl⟩]
  rfl

/-- With bounds of time the statement is that without them, over the rows within the bounds, the
earliest one first. A bound that cannot be read is the error, and of two such the earliest one. -/
theorem bounds_reach_rows [Libraries] (p : Pipeline) (target : Target) (defaultLimit : Nat)
    (earliest latest : Option String) :
    let statement := p.statement target defaultLimit []
    p.outcome target defaultLimit none none = p.outcomeOf target.dialect statement ∧
    (∀ from? to?, TimeBound.ofText? earliest = .ok from? → TimeBound.ofText? latest = .ok to? →
      let bounds := TimeBound.conditions target.dialect from? to?
      p.outcome target defaultLimit earliest latest =
          p.outcomeOf target.dialect (statement.within bounds) ∧
        bounds.map (Expr.render target.dialect) =
          (from?.map (TimeBound.condition target.dialect ">=")).toList ++
            (to?.map (TimeBound.condition target.dialect "<=")).toList) ∧
    (∀ e, TimeBound.ofText? earliest = .error e →
      p.outcome target defaultLimit earliest latest = .refused (.timeBound e)) ∧
    ∀ from? e, TimeBound.ofText? earliest = .ok from? → TimeBound.ofText? latest = .error e →
      p.outcome target defaultLimit earliest latest = .refused (.timeBound e) := by
  intro statement
  refine ⟨?_, fun from? to? hearliest hlatest => ?_, fun e hearliest => ?_,
    fun from? e hearliest hlatest => ?_⟩
  · have hnone : TimeBound.ofText? none = .ok none := rfl
    rw [outcome_of_ok hnone hnone]
    rfl
  · refine ⟨?_, TimeBound.render_conditions _ _ _⟩
    rw [outcome_of_ok hearliest hlatest, statement_within]
  · rw [outcome, compile, hearliest]
    rfl
  · rw [outcome, compile, hearliest, hlatest]
    rfl

/-- `stats median(bytes)` within the last hour: all three filters begin with the bounds. Of two
texts that are no times the earliest bound is the error. -/
theorem bounds_reach_rows_median :
    let outcome := Pipeline.outcome ⟨[.stats [⟨.median, some "bytes", none⟩] []]⟩
      (.standard .sqlite) 1000
    let bounds := "timestamp >= datetime('now', '-1 hours') AND timestamp <= datetime('now')"
    outcome (some "-1h") (some "now") = .statement
      ("SELECT (SELECT bytes FROM logs WHERE " ++ bounds ++ " AND bytes IS NOT NULL ORDER BY bytes"
        ++ " LIMIT 1 OFFSET (SELECT CAST(COUNT(bytes) * 0.5 AS INTEGER) FROM logs WHERE " ++ bounds
        ++ " AND bytes IS NOT NULL)) AS median_bytes FROM logs WHERE " ++ bounds) ∧
      outcome (some "soon") (some "never") = .refused (.timeBound (.invalid "soon")) := by
  have hearliest : TimeBound.ofText? (some "-1h") = .ok (some (.ago 1 .hour)) := by decide +kernel
  have hlatest : TimeBound.ofText? (some "now") = .ok (some .now) := by decide +kernel
  have hinvalid : TimeBound.ofText? (some "soon") = .error (.invalid "soon") := by decide +kernel
  obtain ⟨-, hbounds, -, -⟩ := bounds_reach_rows ⟨[.stats [⟨.median, some "bytes", none⟩] []]⟩
    (.standard .sqlite) 1000 (some "-1h") (some "now")
  obtain ⟨-, -, herror, -⟩ := bounds_reach_rows ⟨[.stats [⟨.median, some "bytes", none⟩] []]⟩
    (.standard .sqlite) 1000 (some "soon") (some "never")
  refine ⟨(hbounds _ _ hearliest hlatest).1.trans ?_, herror _ hinvalid⟩
  decide +kernel

end Pipeline

end LogQuery
