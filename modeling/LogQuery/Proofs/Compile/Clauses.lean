import LogQuery.CommandLine.Libraries
import LogQuery.Proofs.Compile.Statement

/-!
# The clauses of a statement

Stages change a draft one after the other, but each clause of the statement is decided by a few of
them: the filter by every stage with conditions, the groups, the order and the limit by the last
stage that says something about them, and `DISTINCT` by any `dedup`. Apart from their own data, the
stages depend on the columns computed in front of them, to which fields may refer.

`Pipeline.clauses` writes this down clause by clause, with no draft, and
`Pipeline.statement_eq_clauses` says that the statement of a pipeline is just that.
-/

namespace LogQuery

variable {d : Dialect} {target : Target} {draft : Draft} {stage : Stage}

/-! ### Computed columns -/

namespace ComputedColumn

def item (c : ComputedColumn) : SelectItem := ⟨c.expr, some c.name⟩

/-- What a field refers to behind computed columns: the last one of its name or computed from its
column, or else its column of the table. -/
def reference (computed : List ComputedColumn) (field : String) : ColumnRef :=
  ((computed.reverse.find? fun c =>
    c.name == field || c.source == some (Column.ofField field)).map fun c =>
      .output c.name).getD (.table (Column.ofField field))

end ComputedColumn

lemma Draft.reference_eq (draft : Draft) :
    draft.reference = ComputedColumn.reference draft.computed := by
  funext field
  change draft.reference field = ((draft.computedFor? field).map _).getD _
  rw [Draft.reference]
  cases draft.computedFor? field <;> rfl

/-- The draft with more computed columns. -/
def Draft.addAll (draft : Draft) (cs : List ComputedColumn) : Draft :=
  { draft with
    items := draft.items ++ cs.map ComputedColumn.item
    computed := draft.computed ++ cs }

lemma Draft.foldl_addComputed {α : Type} (f : α → ComputedColumn) (as : List α) (draft : Draft) :
    as.foldl (fun draft a => draft.addComputed (f a)) draft = draft.addAll (as.map f) := by
  induction as generalizing draft with
  | nil => simp [addAll]
  | cons a as ih =>
    rw [List.foldl_cons, ih]
    simp [addAll, addComputed, ComputedColumn.item]

namespace Stage

def computed (d : Dialect) : Stage → List ComputedColumn
  | .eval assignments => assignments.map fun a => ⟨a.field, none, a.expr.toSql d⟩
  | .bin field span output =>
    [⟨output.getD (Column.ofField field ++ "_bin"), some (Column.ofField field),
      Draft.bucketStart d (.column (Column.ofField field)) span⟩]
  | .rex field pattern =>
    (Pattern.namedGroups pattern).map fun group =>
      ⟨group, none, (d.extractGroup (.column (Column.ofField field)) pattern group).getD .null⟩
  | _ => []

lemma apply_eval (assignments : List Assignment) :
    (Stage.eval assignments).apply target draft =
      draft.addAll ((Stage.eval assignments).computed target.dialect) :=
  Draft.foldl_addComputed _ _ _

lemma apply_rex (field pattern : String) :
    (Stage.rex field pattern).apply target draft =
      draft.addAll ((Stage.rex field pattern).computed target.dialect) :=
  Draft.foldl_addComputed _ _ _

/-- A stage adds the columns that it computes to those computed before. -/
lemma computed_apply (draft : Draft) (stage : Stage) :
    (stage.apply target draft).computed = draft.computed ++ stage.computed target.dialect := by
  have hnone : draft.computed = draft.computed ++ [] := (List.append_nil _).symm
  cases stage with
  | eval assignments => rw [apply_eval]; rfl
  | rex field pattern => rw [apply_rex]; rfl
  | bin field span output => rfl
  | fields names keep => cases keep <;> exact hnone
  | _ => exact hnone

/-! ### What a stage says about each clause -/

def fragment? (d : Dialect) (stage : Stage) : Option Sql.Expr :=
  Condition.fragment? d stage.conditions

/-- The stage makes rows distinct. -/
def isDedup : Stage → Bool
  | .dedup _ => true
  | _ => false

/-- The groups that a stage makes, behind computed columns. -/
def groupKeys? (computed : List ComputedColumn) : Stage → Option (List ColumnRef)
  | .stats _ names => some (names.map (ComputedColumn.reference computed))
  | .frequent _ names _ => some (names.map (ComputedColumn.reference computed))
  | .timechart _ _ splitBy =>
    some (.output Draft.chartTime :: splitBy.toList.map (ComputedColumn.reference computed))
  | _ => none

/-- The order that a stage makes, behind computed columns. -/
def orderKeys? (computed : List ComputedColumn) : Stage → Option (List OrderKey)
  | .sort keys => some (keys.map fun k => ⟨ComputedColumn.reference computed k.field, k.order⟩)
  | .frequent which _ _ => some [⟨.output Draft.rowCount, which.order⟩]
  | .timechart _ _ _ => some [⟨.output Draft.chartTime, .ascending⟩]
  | _ => none

/-- The number of rows that a stage keeps. -/
def rowLimit? : Stage → Option Nat
  | .limit _ count => some count
  | .frequent _ _ count => some count
  | _ => none

end Stage

/-- A stage with the columns computed in front of it. -/
structure Step where
  computed : List ComputedColumn
  stage : Stage

/-- Stages behind computed columns, as steps. -/
def stepsFrom (d : Dialect) (computed : List ComputedColumn) : List Stage → List Step
  | [] => []
  | stage :: stages => ⟨computed, stage⟩ :: stepsFrom d (computed ++ stage.computed d) stages

namespace Pipeline

/-- The stages of a pipeline as steps. -/
def steps (p : Pipeline) (d : Dialect) : List Step := stepsFrom d [] p.stages

/-- The order that the last ordering stage of a pipeline makes. -/
def orderKeys (p : Pipeline) (d : Dialect) : List OrderKey :=
  ((p.steps d).filterMap fun step => step.stage.orderKeys? step.computed).getLast?.getD []

/-- The statement of a pipeline, clause by clause, behind conditions and with a select list. -/
def clauses (p : Pipeline) (target : Target) (defaultLimit : Nat) (filter : List Sql.Expr)
    (items : List SelectItem) : Statement where
  distinct := p.stages.any Stage.isDedup
  items := items
  table := target.table
  filter := filter ++ p.stages.filterMap (Stage.fragment? target.dialect)
  groupBy := ((p.steps target.dialect).filterMap fun step =>
    step.stage.groupKeys? step.computed).getLast?.getD []
  orderBy :=
    if (p.orderKeys target.dialect).isEmpty && !p.isAggregation && !p.stages.any Stage.isDedup then
      [⟨.table Column.timestamp, .descending⟩]
    else p.orderKeys target.dialect
  limit := (p.stages.filterMap Stage.rowLimit?).getLast?.or
    (if p.isAggregation then none else some defaultLimit)

end Pipeline

/-! ### What one stage changes -/

namespace Stage

lemma fragment?_eq_none : stage.fragment? d = none ↔ stage.conditions = [] := by
  rw [fragment?]
  rcases stage.conditions with _ | ⟨c, _ | ⟨c', rest⟩⟩ <;>
    simp [Condition.fragment?, Condition.allToSql]

/-- A stage that groups replaces the groups, and no other stage touches them. -/
lemma groupBy_apply (draft : Draft) (stage : Stage) :
    (stage.apply target draft).groupBy =
      (stage.groupKeys? draft.computed).getD draft.groupBy := by
  cases stage with
  | eval assignments => rw [apply_eval]; rfl
  | rex field pattern => rw [apply_rex]; rfl
  | fields names keep => cases keep <;> rfl
  | stats | frequent | timechart => rw [groupKeys?, ← Draft.reference_eq]; rfl
  | _ => rfl

/-- A stage that sorts replaces the order, and no other stage touches it. -/
lemma orderBy_apply (draft : Draft) (stage : Stage) :
    (stage.apply target draft).orderBy =
      (stage.orderKeys? draft.computed).getD draft.orderBy := by
  cases stage with
  | eval assignments => rw [apply_eval]; rfl
  | rex field pattern => rw [apply_rex]; rfl
  | fields names keep => cases keep <;> rfl
  | sort keys => rw [orderKeys?, ← Draft.reference_eq]; rfl
  | _ => rfl

/-- A stage with a limit replaces the one before. -/
lemma limit_apply (draft : Draft) (stage : Stage) :
    (stage.apply target draft).limit = stage.rowLimit?.or draft.limit := by
  cases stage with
  | eval assignments => rw [apply_eval]; rfl
  | rex field pattern => rw [apply_rex]; rfl
  | fields names keep => cases keep <;> rfl
  | _ => rfl

lemma distinct_apply (draft : Draft) (stage : Stage) :
    (stage.apply target draft).distinct = (draft.distinct || stage.isDedup) := by
  have hnone : draft.distinct = (draft.distinct || false) := (Bool.or_false _).symm
  cases stage with
  | dedup names => exact (Bool.or_true _).symm
  | eval assignments => rw [apply_eval]; exact hnone
  | rex field pattern => rw [apply_rex]; exact hnone
  | fields names keep => cases keep <;> exact hnone
  | _ => exact hnone

lemma aggregated_apply (draft : Draft) (stage : Stage) :
    (stage.apply target draft).aggregated = (draft.aggregated || stage.isAggregation) := by
  have hnone : draft.aggregated = (draft.aggregated || false) := (Bool.or_false _).symm
  cases stage with
  | stats | frequent | timechart => exact (Bool.or_true _).symm
  | eval assignments => rw [apply_eval]; exact hnone
  | rex field pattern => rw [apply_rex]; exact hnone
  | fields names keep => cases keep <;> exact hnone
  | _ => exact hnone

end Stage

/-! ### What all stages together change -/

section Run

variable (stages : List Stage) (draft : Draft)

/-- A part of the draft that some stages write and the others keep has what was written last. -/
lemma foldl_apply_of_write {α : Type} {field : Draft → α}
    {write? : List ComputedColumn → Stage → Option α}
    (h : ∀ draft stage, field (stage.apply target draft) =
      (write? draft.computed stage).getD (field draft)) :
    field (stages.foldl (Stage.apply target) draft) =
      ((stepsFrom target.dialect draft.computed stages).filterMap fun step =>
        write? step.computed step.stage).getLast?.getD (field draft) := by
  induction stages generalizing draft with
  | nil => rfl
  | cons stage stages ih =>
    rw [List.foldl_cons, ih, Stage.computed_apply, h, stepsFrom, List.filterMap_cons]
    cases write? draft.computed stage with
    | none => rfl
    | some a => simp [List.getLast?_cons]

/-- A flag that some stages raise and none lowers is raised if there is one of them. -/
lemma foldl_apply_of_raise {flag : Draft → Bool} {raises : Stage → Bool}
    (h : ∀ draft stage, flag (stage.apply target draft) = (flag draft || raises stage)) :
    flag (stages.foldl (Stage.apply target) draft) = (flag draft || stages.any raises) := by
  induction stages generalizing draft with
  | nil => exact (Bool.or_false _).symm
  | cons stage stages ih => rw [List.foldl_cons, ih, h, List.any_cons, Bool.or_assoc]

lemma limit_foldl_apply :
    (stages.foldl (Stage.apply target) draft).limit =
      (stages.filterMap Stage.rowLimit?).getLast?.or draft.limit := by
  induction stages generalizing draft with
  | nil => rfl
  | cons stage stages ih =>
    rw [List.foldl_cons, ih, Stage.limit_apply, List.filterMap_cons]
    cases stage.rowLimit? with
    | none => rfl
    | some count =>
      rw [List.getLast?_cons]
      cases (stages.filterMap Stage.rowLimit?).getLast? <;> rfl

end Run

namespace Pipeline

variable (p : Pipeline) (filter : List Sql.Expr)

/-- Each stage with conditions adds one part to the filter, in order. -/
lemma filter_draft_eq_filterMap :
    (p.draft target filter).filter =
      filter ++ p.stages.filterMap (Stage.fragment? target.dialect) := by
  rw [filter_draft]
  congr 1
  induction p.stages with
  | nil => rfl
  | cons stage stages ih =>
    rw [List.flatMap_cons, ih, List.filterMap_cons, Stage.fragment?]
    cases Condition.fragment? target.dialect stage.conditions <;> rfl

/-- A draft knows whether some stage aggregates. -/
lemma aggregated_draft : (p.draft target filter).aggregated = p.isAggregation :=
  foldl_apply_of_raise p.stages (.start filter) Stage.aggregated_apply

lemma distinct_draft : (p.draft target filter).distinct = p.stages.any Stage.isDedup :=
  foldl_apply_of_raise p.stages (.start filter) Stage.distinct_apply

/-- The groups are those of the last stage that groups. -/
lemma groupBy_draft :
    (p.draft target filter).groupBy = ((p.steps target.dialect).filterMap fun step =>
      step.stage.groupKeys? step.computed).getLast?.getD [] :=
  foldl_apply_of_write p.stages (.start filter) Stage.groupBy_apply

/-- The order is that of the last stage that sorts. -/
lemma orderBy_draft : (p.draft target filter).orderBy = p.orderKeys target.dialect :=
  foldl_apply_of_write p.stages (.start filter) Stage.orderBy_apply

/-- The limit is that of the last stage with one. -/
lemma limit_draft :
    (p.draft target filter).limit = (p.stages.filterMap Stage.rowLimit?).getLast? :=
  (limit_foldl_apply p.stages (.start filter)).trans (Option.or_none)

/-- The statement of a pipeline is the one that its stages write down clause by clause, and a draft
knows whether some stage aggregates. A stage adds to the filter if it has conditions. -/
theorem statement_eq_clauses [Libraries] (p : Pipeline) (target : Target) (defaultLimit : Nat) :
    (∀ filter : List Sql.Expr,
      p.statement target defaultLimit filter =
        p.clauses target defaultLimit filter (p.draft target filter).items ∧
      (p.draft target filter).aggregated = p.isAggregation) ∧
    p.compile target defaultLimit none none =
      .ok ((p.clauses target defaultLimit [] (p.draft target []).items).render target.dialect) ∧
    ∀ stage ∈ p.stages, stage.fragment? target.dialect = none ↔ stage.conditions = [] := by
  have hclauses (filter : List Sql.Expr) : p.statement target defaultLimit filter =
      p.clauses target defaultLimit filter (p.draft target filter).items := by
    rw [statement, Draft.finish, aggregated_draft, distinct_draft, filter_draft_eq_filterMap,
      groupBy_draft, orderBy_draft, limit_draft]
    rfl
  refine ⟨fun filter => ⟨hclauses filter, p.aggregated_draft filter⟩, ?_, ?_⟩
  · rw [← hclauses]
    exact compile_eq_ok.2 ⟨none, none, rfl, rfl, rfl⟩
  · exact fun stage _ => Stage.fragment?_eq_none

/-- Every clause of a statement as it is printed. The stages are those of
`search host=a | dedup host | top 5 app | head 3`. -/
theorem statement_eq_clauses_top :
    let host : Condition := .compare "host" .eq (.string "a") false
    let p : Pipeline :=
      ⟨[.filter .search [host], .dedup ["host"], .frequent .top ["app"] 5, .limit .head 3]⟩
    p.compile (.standard .sqlite) 1000 none none = .ok ("SELECT DISTINCT app_name, " ++
      "COUNT(*) AS count FROM logs WHERE hostname = 'a' GROUP BY app_name ORDER BY count DESC " ++
      "LIMIT 3") := by
  intro host p
  obtain ⟨-, hcompile, -⟩ := statement_eq_clauses p (.standard .sqlite) 1000
  refine hcompile.trans (congrArg Except.ok ?_)
  decide

end Pipeline

end LogQuery
