import LogQuery.Proofs.Compile.Clauses
import Mathlib.Data.List.Induction

namespace LogQuery

variable {target : Target} {draft : Draft} {stage : Stage}

/-- The output that is referred to, if it is none of the table's columns. -/
def ColumnRef.output? : ColumnRef → Option String
  | .output name => some name
  | .table _ => none

namespace Draft

def outputs (draft : Draft) : List String := draft.items.filterMap SelectItem.output

/-- The outputs by which rows are grouped. -/
def groupNames (draft : Draft) : List String := draft.groupBy.filterMap ColumnRef.output?

/-- The outputs by which rows are sorted. -/
def orderNames (draft : Draft) : List String :=
  draft.orderBy.filterMap fun key => key.column.output?

/-- Every output by which rows are grouped or sorted is one of the statement. -/
def KeysDefined (draft : Draft) : Prop :=
  (∀ name ∈ draft.groupNames, name ∈ draft.outputs) ∧
    ∀ name ∈ draft.orderNames, name ∈ draft.outputs

/-- The names of the computed columns to which fields refer. -/
def computedNames (draft : Draft) (fields : List String) : List String :=
  fields.filterMap fun field => (draft.computedFor? field).map ComputedColumn.name

/-! ### Fields as items and as keys -/

/-- A field is sorted by an output if it refers to a computed column. -/
lemma output?_reference (draft : Draft) (field : String) :
    (draft.reference field).output? = (draft.computedFor? field).map ComputedColumn.name := by
  rw [reference]
  cases draft.computedFor? field <;> rfl

lemma output_item (draft : Draft) (field : String) :
    (draft.item field).output = (draft.computedFor? field).map ComputedColumn.name := by
  rw [item]
  cases draft.computedFor? field <;> rfl

variable (draft : Draft) (fields : List String)

lemma filterMap_output_items :
    (fields.map draft.item).filterMap SelectItem.output = draft.computedNames fields := by
  rw [List.filterMap_map]
  exact congrFun (congrArg List.filterMap (funext draft.output_item)) fields

lemma filterMap_output_references :
    (fields.map draft.reference).filterMap ColumnRef.output? = draft.computedNames fields := by
  rw [List.filterMap_map]
  exact congrFun (congrArg List.filterMap (funext draft.output?_reference)) fields

lemma filterMap_output_aggregations (aggregations : List Aggregation) :
    (aggregations.map (draft.aggregationItem target)).filterMap SelectItem.output =
      aggregations.map Aggregation.outputName := by
  rw [List.filterMap_map]
  exact congrFun List.filterMap_eq_map _

/-- A selection leaves the computed columns that it names as outputs. -/
lemma outputs_keep : (draft.keep fields).outputs = draft.computedNames fields :=
  draft.filterMap_output_items fields

/-- An exclusion leaves no outputs. -/
lemma outputs_leaveOut : (draft.leaveOut fields).outputs = [] := by
  simp [outputs, leaveOut, tableItem]

/-- Computed columns are new outputs. -/
lemma outputs_addAll (cs : List ComputedColumn) :
    (draft.addAll cs).outputs = draft.outputs ++ cs.map ComputedColumn.name := by
  rw [outputs, addAll, List.filterMap_append, List.filterMap_map]
  exact congrArg (draft.outputs ++ ·) (congrFun List.filterMap_eq_map _)

/-- A grouping has the computed columns that it groups by and the results as outputs. -/
lemma outputs_group (aggregations : List Aggregation) :
    (draft.group target aggregations fields).outputs =
      draft.computedNames fields ++ aggregations.map Aggregation.outputName := by
  rw [outputs, group, List.filterMap_append, filterMap_output_items, filterMap_output_aggregations]

lemma outputs_countCombinations (d : Dialect) (order : SortOrder) (limit : Nat) :
    (draft.countCombinations d fields order limit).outputs =
      draft.computedNames fields ++ [rowCount] := by
  rw [outputs, countCombinations, List.filterMap_append, filterMap_output_items]
  rfl

lemma outputs_chart (span : Span) (aggregations : List Aggregation) (splitBy : Option String) :
    (draft.chart target span aggregations splitBy).outputs =
      chartTime :: draft.computedNames splitBy.toList ++
        aggregations.map Aggregation.outputName := by
  rw [outputs, chart, List.filterMap_append, List.filterMap_cons, filterMap_output_items,
    filterMap_output_aggregations]

/-! ### What keeps keys defined -/

variable {draft} {fields}

/-- More items, behind the old ones, define more outputs. -/
lemma KeysDefined.addAll (h : draft.KeysDefined) (cs : List ComputedColumn) :
    (draft.addAll cs).KeysDefined := by
  have hmem : ∀ name ∈ draft.outputs, name ∈ (draft.addAll cs).outputs := by
    intro name hname
    rw [outputs_addAll]
    exact List.mem_append_left _ hname
  exact ⟨fun name hname => hmem name (h.1 name hname), fun name hname => hmem name (h.2 name hname)⟩

/-- The keys stay where only the items change. -/
lemma keysDefined_of_keys_eq {draft' : Draft} (hgroup : draft'.groupBy = draft.groupBy)
    (horder : draft'.orderBy = draft.orderBy) :
    draft'.KeysDefined ↔ ∀ name ∈ draft.groupNames ++ draft.orderNames, name ∈ draft'.outputs := by
  rw [KeysDefined, List.forall_mem_append, groupNames, orderNames, hgroup, horder]
  rfl

/-- Behind a selection the keys are defined if it names all of them. -/
lemma keysDefined_keep : (draft.keep fields).KeysDefined ↔
    ∀ name ∈ draft.groupNames ++ draft.orderNames, name ∈ draft.computedNames fields := by
  rw [← outputs_keep]
  exact keysDefined_of_keys_eq rfl rfl

/-- Behind an exclusion no key may be an output. -/
lemma keysDefined_leaveOut :
    (draft.leaveOut fields).KeysDefined ↔ draft.groupNames ++ draft.orderNames = [] := by
  have hkeys : (draft.leaveOut fields).KeysDefined ↔
      ∀ name ∈ draft.groupNames ++ draft.orderNames, name ∈ (draft.leaveOut fields).outputs :=
    keysDefined_of_keys_eq rfl rfl
  rw [hkeys, outputs_leaveOut, List.eq_nil_iff_forall_not_mem]
  exact forall_congr' fun name => imp_congr_right fun _ => iff_of_false List.not_mem_nil id

/-- Behind a grouping the order has to be by its groups or by its results. -/
lemma keysDefined_group {aggregations : List Aggregation} :
    (draft.group target aggregations fields).KeysDefined ↔ ∀ name ∈ draft.orderNames,
      name ∈ draft.computedNames fields ∨ name ∈ aggregations.map Aggregation.outputName := by
  have hgroup : (draft.group target aggregations fields).groupNames = draft.computedNames fields :=
    draft.filterMap_output_references fields
  rw [KeysDefined, hgroup, outputs_group]
  constructor
  · intro h name hname
    exact List.mem_append.1 (h.2 name hname)
  · intro h
    exact ⟨fun name => List.mem_append_left _, fun name hname => List.mem_append.2 (h name hname)⟩

/-- A count of combinations defines its own keys. -/
lemma keysDefined_countCombinations (d : Dialect) (order : SortOrder) (limit : Nat) :
    (draft.countCombinations d fields order limit).KeysDefined := by
  have hgroup : (draft.countCombinations d fields order limit).groupNames =
      draft.computedNames fields := draft.filterMap_output_references fields
  rw [KeysDefined, hgroup, outputs_countCombinations]
  exact ⟨fun name => List.mem_append_left _, fun name => List.mem_append_right _⟩

/-- A chart defines its own keys. -/
lemma keysDefined_chart (span : Span) (aggregations : List Aggregation)
    (splitBy : Option String) : (draft.chart target span aggregations splitBy).KeysDefined := by
  have hgroup : (draft.chart target span aggregations splitBy).groupNames =
      chartTime :: draft.computedNames splitBy.toList := by
    rw [← filterMap_output_references]
    rfl
  have horder : (draft.chart target span aggregations splitBy).orderNames = [chartTime] := rfl
  rw [KeysDefined, hgroup, horder, outputs_chart]
  refine ⟨fun name => List.mem_append_left _, fun name hname => List.mem_append_left _ ?_⟩
  rw [List.mem_singleton.1 hname]
  exact List.mem_cons_self

end Draft

/-! ### Stages -/

namespace Stage

/-- The stage leaves every output that keys refer to, and makes keys of outputs only. -/
def KeepsKeys (draft : Draft) : Stage → Prop
  | .sort keys => ∀ name ∈ draft.computedNames (keys.map SortKey.field), name ∈ draft.outputs
  | .stats aggregations names => ∀ name ∈ draft.orderNames,
      name ∈ draft.computedNames names ∨ name ∈ aggregations.map Aggregation.outputName
  | .table names | .dedup names | .fields names true =>
    ∀ name ∈ draft.groupNames ++ draft.orderNames, name ∈ draft.computedNames names
  | .fields _ false => draft.groupNames ++ draft.orderNames = []
  | .rename renamings => ∀ name ∈ draft.groupNames ++ draft.orderNames,
      name ∈ (renamings.foldl Draft.renameItems draft.items).filterMap SelectItem.output
  | _ => True

/-- Where the keys refer to outputs, they still do behind a stage just if that keeps them. -/
lemma keysDefined_apply (h : draft.KeysDefined) :
    (stage.apply target draft).KeysDefined ↔ stage.KeepsKeys draft := by
  cases stage with
  | filter | limit => exact iff_of_true h trivial
  | eval assignments =>
    rw [apply_eval]
    exact iff_of_true (h.addAll _) trivial
  | rex field pattern =>
    rw [apply_rex]
    exact iff_of_true (h.addAll _) trivial
  | bin field span output => exact iff_of_true (h.addAll [_]) trivial
  | sort keys =>
    have horder : ((Stage.sort keys).apply target draft).orderNames =
        draft.computedNames (keys.map SortKey.field) := by
      rw [← Draft.filterMap_output_references, List.map_map, List.filterMap_map]
      exact List.filterMap_map
    rw [Draft.KeysDefined, horder]
    exact and_iff_right h.1
  | stats aggregations names => exact Draft.keysDefined_group
  | frequent which names most =>
    exact iff_of_true (Draft.keysDefined_countCombinations _ _ _) trivial
  | timechart span aggregations splitBy =>
    exact iff_of_true (Draft.keysDefined_chart _ _ _) trivial
  | dedup names => exact Draft.keysDefined_keep
  | table names => exact Draft.keysDefined_keep
  | fields names keep =>
    cases keep with
    | true => exact Draft.keysDefined_keep
    | false => exact Draft.keysDefined_leaveOut
  | rename renamings => exact Draft.keysDefined_of_keys_eq rfl rfl

end Stage

namespace Pipeline

lemma draft_snoc (front : List Stage) (stage : Stage) (filter : List Sql.Expr) :
    Pipeline.draft ⟨front ++ [stage]⟩ target filter =
      stage.apply target (Pipeline.draft ⟨front⟩ target filter) := by
  rw [draft, List.foldl_append]
  rfl

/-- The keys refer to outputs behind every beginning of a pipeline just if every stage keeps those
that it finds. So `top 5 host | rename count AS n` sorts by an output `count` that the statement
does not have. -/
theorem keysDefined_iff_keepsKeys (p : Pipeline) (target : Target) (filter : List Sql.Expr) :
    (∀ front, front <+: p.stages → (Pipeline.draft ⟨front⟩ target filter).KeysDefined) ↔
      ∀ front stage, front ++ [stage] <+: p.stages →
        Stage.KeepsKeys (Pipeline.draft ⟨front⟩ target filter) stage := by
  constructor
  · intro h front stage hstages
    have hfront := h front ((List.prefix_append front [stage]).trans hstages)
    have hnext := h _ hstages
    rw [draft_snoc] at hnext
    exact (Stage.keysDefined_apply hfront).1 hnext
  · intro h front
    induction front using List.reverseRecOn with
    | nil => exact fun _ => ⟨nofun, nofun⟩
    | append_singleton front stage ih =>
      intro hstages
      have hfront := ih ((List.prefix_append front [stage]).trans hstages)
      rw [draft_snoc]
      exact (Stage.keysDefined_apply hfront).2 (h front stage hstages)

/-- The output `count` of `top 5 host | rename count AS n` is gone, and the rows are sorted by it.
-/
example :
    let p : Pipeline := ⟨[.frequent .top ["host"] 5, .rename [⟨"count", "n"⟩]]⟩
    (p.draft (.standard .sqlite) []).orderNames = ["count"] ∧
      (p.draft (.standard .sqlite) []).outputs = ["n"] := by
  decide

end Pipeline

end LogQuery
