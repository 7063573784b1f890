import LogQuery.CommandLine.Libraries
import LogQuery.Proofs.Compile.Clauses
import LogQuery.Proofs.Sql.Name
import Mathlib.Data.List.Forall2

/-!
# The dialects in lockstep

The drafts of a pipeline for two dialects differ in expressions only: behind every stage they have
the same groups, order and limit, as many items and conditions, the same outputs and the same
columns to refer to (`Stage.lockstep_apply`). In particular a renaming finds the same items,
although their texts differ, since a name in either dialect is determined by its text.

So both dialects refuse the same queries with the same errors, but for one defect: ClickHouse takes
the patterns of `rex` apart, and breaks down where a group seems to open inside the header of
another, as in `[a[b](?<x(y>]`, where no group opens at all. `Config.inStep_iff` says that this is
the only difference.
-/

namespace LogQuery

variable {target target' : Target} {draft draft' : Draft} {stage : Stage}

/-! ### Items and computed columns -/

/-- Two items have the same output, or none, and then they are the same column of the table. -/
structure SelectItem.Alike (item item' : SelectItem) : Prop where
  output : item.output = item'.output
  column : item.output = none → ∃ column, item.expr = .column column ∧ item'.expr = .column column

lemma SelectItem.Alike.of_output {expr expr' : Sql.Expr} {name : String} :
    SelectItem.Alike ⟨expr, some name⟩ ⟨expr', some name⟩ := ⟨rfl, nofun⟩

/-- What an item without an output is called in the text of the statement is what a field is called
there, or an item with an output has the name of the field. -/
def SelectItem.IsNamedInText (d : Dialect) (field : String) (item : SelectItem) : Prop :=
  item.output = some field ∨
    item.output = none ∧ item.expr.render d = Sql.identifier d (Column.ofField field)

/-- What a computed column shows to later stages, apart from its expression. -/
def ComputedColumn.heading (c : ComputedColumn) : String × Option String := (c.name, c.source)

namespace Draft

/-- Two drafts that agree in everything but their expressions. -/
structure Lockstep (draft draft' : Draft) : Prop where
  items : List.Forall₂ SelectItem.Alike draft.items draft'.items
  distinct : draft.distinct = draft'.distinct
  filter : draft.filter.length = draft'.filter.length
  groupBy : draft.groupBy = draft'.groupBy
  orderBy : draft.orderBy = draft'.orderBy
  limit : draft.limit = draft'.limit
  aggregated : draft.aggregated = draft'.aggregated
  computed : draft.computed.map ComputedColumn.heading = draft'.computed.map ComputedColumn.heading

/-! ### Fields -/

/-- The computed column that a field refers to is found by its heading. -/
lemma heading_computedFor? (draft : Draft) (field : String) :
    (draft.computedFor? field).map ComputedColumn.heading =
      (draft.computed.map ComputedColumn.heading).reverse.find? fun h =>
        h.1 == field || h.2 == some (Column.ofField field) := by
  rw [← List.map_reverse, List.find?_map]
  rfl

lemma reference_eq_of_heading (draft : Draft) (field : String) :
    draft.reference field = (((draft.computedFor? field).map ComputedColumn.heading).map fun h =>
      .output h.1).getD (.table (Column.ofField field)) := by
  rw [reference]
  cases draft.computedFor? field <;> rfl

section Fields

variable (h : draft.computed.map ComputedColumn.heading =
  draft'.computed.map ComputedColumn.heading) (field : String)
include h

lemma reference_congr : draft.reference field = draft'.reference field := by
  rw [reference_eq_of_heading, reference_eq_of_heading, heading_computedFor?,
    heading_computedFor?, h]

/-- Drafts with the same headings have alike items. -/
lemma alike_item : (draft.item field).Alike (draft'.item field) := by
  have hheading : (draft.computedFor? field).map ComputedColumn.heading =
      (draft'.computedFor? field).map ComputedColumn.heading := by
    rw [heading_computedFor?, heading_computedFor?, h]
  rw [item, item]
  cases hc : draft.computedFor? field <;> cases hc' : draft'.computedFor? field <;>
    rw [hc, hc'] at hheading
  · exact ⟨rfl, fun _ => ⟨_, rfl, rfl⟩⟩
  · cases hheading
  · cases hheading
  · have hname := congrArg Prod.fst (Option.some.inj hheading)
    exact ⟨congrArg some hname, nofun⟩

lemma alike_items (fields : List String) :
    List.Forall₂ SelectItem.Alike (fields.map draft.item) (fields.map draft'.item) := by
  rw [List.forall₂_map_left_iff, List.forall₂_map_right_iff, List.forall₂_same]
  exact fun field _ => alike_item h field

end Fields

lemma alike_aggregationItems (aggregations : List Aggregation) :
    List.Forall₂ SelectItem.Alike (aggregations.map (draft.aggregationItem target))
      (aggregations.map (draft'.aggregationItem target')) := by
  rw [List.forall₂_map_left_iff, List.forall₂_map_right_iff, List.forall₂_same]
  exact fun a _ => .of_output

lemma alike_tableItems (columns : List String) :
    List.Forall₂ SelectItem.Alike (columns.map tableItem) (columns.map tableItem) := by
  rw [List.forall₂_map_left_iff, List.forall₂_map_right_iff, List.forall₂_same]
  exact fun column _ => ⟨rfl, fun _ => ⟨column, rfl, rfl⟩⟩

lemma alike_computedItems {cs cs' : List ComputedColumn}
    (h : cs.map ComputedColumn.heading = cs'.map ComputedColumn.heading) :
    List.Forall₂ SelectItem.Alike (cs.map ComputedColumn.item) (cs'.map ComputedColumn.item) := by
  rw [List.forall₂_map_left_iff, List.forall₂_map_right_iff]
  have hheadings := List.forall₂_eq_eq_eq ▸ h
  rw [List.forall₂_map_left_iff, List.forall₂_map_right_iff] at hheadings
  exact hheadings.imp fun c c' hc => ⟨congrArg some (congrArg Prod.fst hc), nofun⟩

/-! ### Renamings -/

lemma isNamed_congr {item item' : SelectItem} (h : item.Alike item') (field : String) :
    isNamed field item = isNamed field item' := by
  obtain ⟨expr, output⟩ := item
  obtain ⟨expr', output'⟩ := item'
  obtain ⟨houtput, hcolumn⟩ := h
  cases houtput
  cases output with
  | some name => rfl
  | none =>
    obtain ⟨column, hexpr, hexpr'⟩ := hcolumn rfl
    cases hexpr
    cases hexpr'
    rfl

/-- A renaming looks for a name; it finds what a comparison of texts would find. -/
lemma isNamed_iff_isNamedInText {item : SelectItem} (h : item.Alike item) (d : Dialect)
    (field : String) : isNamed field item = true ↔ item.IsNamedInText d field := by
  obtain ⟨expr, output⟩ := item
  cases output with
  | some name =>
    change (name == field) = true ↔ _
    simp [SelectItem.IsNamedInText]
  | none =>
    obtain ⟨column, hexpr, -⟩ := h.column rfl
    cases hexpr
    change (column == Column.ofField field) = true ↔
      none = some field ∨ none = none ∧
        Sql.identifier d column = Sql.identifier d (Column.ofField field)
    rw [beq_iff_eq, (Sql.identifier_injective d).eq_iff]
    simp

lemma alike_renameItems {items items' : List SelectItem}
    (h : List.Forall₂ SelectItem.Alike items items') (r : Renaming) :
    List.Forall₂ SelectItem.Alike (renameItems items r) (renameItems items' r) := by
  rw [renameItems, renameItems, List.forall₂_map_left_iff, List.forall₂_map_right_iff]
  refine h.imp fun item item' halike => ?_
  rw [isNamed_congr halike]
  split_ifs
  · exact .of_output
  · exact halike

lemma alike_renamings (renamings : List Renaming) {items items' : List SelectItem}
    (h : List.Forall₂ SelectItem.Alike items items') :
    List.Forall₂ SelectItem.Alike (renamings.foldl renameItems items)
      (renamings.foldl renameItems items') := by
  induction renamings generalizing items items' with
  | nil => exact h
  | cons r renamings ih => exact ih (alike_renameItems h r)

end Draft

/-! ### Stages -/

namespace Stage

/-- In all dialects a stage computes columns of the same headings. -/
lemma heading_computed (d d' : Dialect) (stage : Stage) :
    (stage.computed d).map ComputedColumn.heading =
      (stage.computed d').map ComputedColumn.heading := by
  cases stage with
  | eval assignments => simp only [computed, List.map_map]; rfl
  | rex field pattern => simp only [computed, List.map_map]; rfl
  | _ => rfl

lemma alike_items_addAll {cs cs' : List ComputedColumn} (h : draft.Lockstep draft')
    (hcs : cs.map ComputedColumn.heading = cs'.map ComputedColumn.heading) :
    List.Forall₂ SelectItem.Alike (draft.addAll cs).items (draft'.addAll cs').items :=
  List.rel_append h.items (Draft.alike_computedItems hcs)

/-- A stage keeps the items of two drafts alike. -/
lemma alike_items_apply (h : draft.Lockstep draft') (stage : Stage) :
    List.Forall₂ SelectItem.Alike (stage.apply target draft).items
      (stage.apply target' draft').items := by
  have hcomputed := heading_computed target.dialect target'.dialect stage
  cases stage with
  | filter | sort | limit => exact h.items
  | stats aggregations names =>
    exact List.rel_append (Draft.alike_items h.computed names)
      (Draft.alike_aggregationItems aggregations)
  | frequent which names most =>
    exact List.rel_append (Draft.alike_items h.computed names) (.cons .of_output .nil)
  | timechart span aggregations splitBy =>
    exact List.rel_append (.cons .of_output (Draft.alike_items h.computed splitBy.toList))
      (Draft.alike_aggregationItems aggregations)
  | dedup names => exact Draft.alike_items h.computed names
  | table names => exact Draft.alike_items h.computed names
  | fields names keep =>
    cases keep with
    | true => exact Draft.alike_items h.computed names
    | false => exact Draft.alike_tableItems _
  | rename renamings => exact Draft.alike_renamings renamings h.items
  | eval assignments =>
    rw [apply_eval, apply_eval]
    exact alike_items_addAll h hcomputed
  | rex field pattern =>
    rw [apply_rex, apply_rex]
    exact alike_items_addAll h hcomputed
  | bin field span output => exact alike_items_addAll h hcomputed

lemma groupKeys?_congr {cs cs' : List ComputedColumn}
    (h : ComputedColumn.reference cs = ComputedColumn.reference cs') (stage : Stage) :
    stage.groupKeys? cs = stage.groupKeys? cs' := by
  cases stage <;> simp only [groupKeys?, h]

lemma orderKeys?_congr {cs cs' : List ComputedColumn}
    (h : ComputedColumn.reference cs = ComputedColumn.reference cs') (stage : Stage) :
    stage.orderKeys? cs = stage.orderKeys? cs' := by
  cases stage <;> simp only [orderKeys?, h]

/-- Every stage keeps two drafts in lockstep, whatever their dialects and tables. -/
lemma lockstep_apply (h : draft.Lockstep draft') (stage : Stage) :
    (stage.apply target draft).Lockstep (stage.apply target' draft') := by
  have hreference : ComputedColumn.reference draft.computed =
      ComputedColumn.reference draft'.computed := by
    rw [← Draft.reference_eq, ← Draft.reference_eq]
    exact funext (Draft.reference_congr h.computed)
  have hfragment : (stage.fragment? target.dialect).toList.length =
      (stage.fragment? target'.dialect).toList.length := by
    have hnone : stage.fragment? target.dialect = none ↔ stage.fragment? target'.dialect = none :=
      fragment?_eq_none.trans fragment?_eq_none.symm
    cases he : stage.fragment? target.dialect <;> cases he' : stage.fragment? target'.dialect <;>
      simp_all
  exact {
    items := alike_items_apply h stage
    distinct := by rw [distinct_apply, distinct_apply, h.distinct]
    filter := by
      rw [filter_apply, filter_apply, List.length_append, List.length_append, h.filter]
      exact congrArg (_ + ·) hfragment
    groupBy := by
      rw [groupBy_apply, groupBy_apply, h.groupBy, groupKeys?_congr hreference]
    orderBy := by
      rw [orderBy_apply, orderBy_apply, h.orderBy, orderKeys?_congr hreference]
    limit := by rw [limit_apply, limit_apply, h.limit]
    aggregated := by rw [aggregated_apply, aggregated_apply, h.aggregated]
    computed := by
      rw [computed_apply, computed_apply, List.map_append, List.map_append, h.computed,
        heading_computed target.dialect target'.dialect] }

end Stage

/-! ### Pipelines -/

lemma Draft.lockstep_start {filter filter' : List Sql.Expr} (h : filter.length = filter'.length) :
    (Draft.start filter).Lockstep (Draft.start filter') :=
  ⟨Draft.alike_tableItems _, rfl, h, rfl, rfl, rfl, rfl, rfl⟩

namespace Pipeline

/-- The drafts of two dialects are in lockstep behind all stages. -/
lemma lockstep_draft (p : Pipeline) {filter filter' : List Sql.Expr}
    (h : filter.length = filter'.length) :
    (p.draft target filter).Lockstep (p.draft target' filter') := by
  have hrun : ∀ (stages : List Stage) (draft draft' : Draft), draft.Lockstep draft' →
      (stages.foldl (Stage.apply target) draft).Lockstep
        (stages.foldl (Stage.apply target') draft') := by
    intro stages
    induction stages with
    | nil => exact fun _ _ h => h
    | cons stage stages ih => exact fun _ _ h => ih _ _ (Stage.lockstep_apply h stage)
  exact hrun p.stages _ _ (Draft.lockstep_start h)

lemma alike_of_mem_draft {p : Pipeline} {filter : List Sql.Expr} {item : SelectItem}
    (h : item ∈ (p.draft target filter).items) : item.Alike item := by
  have hself : (p.draft target filter).Lockstep (p.draft target filter) := p.lockstep_draft rfl
  exact List.forall₂_same.1 hself.items item h

/-- Only the bounds of time can be refused behind the reading of a query. -/
lemma compile_eq_error [Libraries] {p : Pipeline} {defaultLimit : Nat}
    {earliest latest : Option String} {e : TimeBoundError} :
    p.compile target defaultLimit earliest latest = .error e ↔
      TimeBound.ofText? earliest = .error e ∨
        (∃ from?, TimeBound.ofText? earliest = .ok from?) ∧
          TimeBound.ofText? latest = .error e := by
  rw [Pipeline.compile]
  cases hfrom : TimeBound.ofText? earliest with
  | error e => simp [bind, Except.bind]
  | ok from? =>
    cases hto : TimeBound.ofText? latest with
    | error e => simp [bind, Except.bind]
    | ok to? => simp [bind, Except.bind, pure, Except.pure]

/-- A query that has a statement in one dialect has one in the other. -/
lemma exists_compile_eq_ok [Libraries] (target' : Target) {p : Pipeline} {defaultLimit : Nat}
    {earliest latest : Option String} {sql : String}
    (h : p.compile target defaultLimit earliest latest = .ok sql) :
    ∃ sql', p.compile target' defaultLimit earliest latest = .ok sql' := by
  obtain ⟨from?, to?, hfrom, hto, -⟩ := compile_eq_ok.1 h
  exact ⟨_, compile_eq_ok.2 ⟨from?, to?, hfrom, hto, rfl⟩⟩

end Pipeline

lemma TimeBound.length_conditions (d d' : Dialect) (earliest latest : Option TimeBound) :
    (TimeBound.conditions d earliest latest).length =
      (TimeBound.conditions d' earliest latest).length := by
  cases earliest <;> cases latest <;> rfl

/-! ### Queries -/

/-- Both are statements, or both are refused with the same error. -/
def Outcome.InStep : Outcome → Outcome → Prop
  | .statement _, .statement _ => True
  | .refused e, .refused e' => e = e'
  | _, _ => False

/-- The two dialects are in step unless ClickHouse breaks down. -/
lemma Pipeline.inStep_outcome_iff [Libraries] {p : Pipeline} {defaultLimit : Nat}
    {earliest latest : Option String} (h : target.dialect = .clickHouse)
    (h' : target'.dialect = .sqlite) :
    (p.outcome target defaultLimit earliest latest).InStep
        (p.outcome target' defaultLimit earliest latest) ↔
      ∀ sql, p.compile target' defaultLimit earliest latest = .ok sql →
        p.stages.any Stage.isEntangled = false := by
  have hsqlite : p.breaksDown target'.dialect = false := by
    rw [h']
    rfl
  have hclickHouse : p.breaksDown target.dialect = p.stages.any Stage.isEntangled := by
    rw [h]
    rfl
  simp only [outcome, hsqlite, hclickHouse]
  cases hcompile' : p.compile target' defaultLimit earliest latest with
  | error e =>
    have hcompile : p.compile target defaultLimit earliest latest = .error e :=
      compile_eq_error.2 (compile_eq_error.1 hcompile')
    simp [hcompile, Outcome.InStep]
  | ok sql' =>
    obtain ⟨sql, hcompile⟩ := exists_compile_eq_ok target hcompile'
    rw [hcompile]
    cases p.stages.any Stage.isEntangled <;> simp [Outcome.InStep]

namespace Config

/-- The outcomes of a query for the two dialects are in step unless there would be a statement and
a stage is entangled; and behind any number of stages of any pipeline, with the same bounds of
time, the drafts are in lockstep, and their renamings find by name what the texts of either dialect
say. -/
theorem inStep_iff [Libraries] (c : Config) (query : String) (earliest latest : Option String) :
    ((c.outcome query .clickHouse earliest latest).InStep
        (c.outcome query .sqlite earliest latest) ↔
      ∀ p sql, parseQuery c.parserLimits query = .ok p →
        p.compile (c.target .sqlite) c.defaultLimit earliest latest = .ok sql →
        p.stages.any Stage.isEntangled = false) ∧
    ∀ (p : Pipeline) (n : Nat) (from? to? : Option TimeBound),
      let draft := fun d =>
        Pipeline.draft ⟨p.stages.take n⟩ (c.target d) (TimeBound.conditions d from? to?)
      (draft .clickHouse).Lockstep (draft .sqlite) ∧
        ∀ d, ∀ item ∈ (draft d).items, ∀ field,
          Draft.isNamed field item = true ↔ item.IsNamedInText d field := by
  constructor
  · simp only [outcome]
    cases parseQuery c.parserLimits query with
    | error e => simp [Outcome.InStep]
    | ok p =>
      refine Iff.trans (Pipeline.inStep_outcome_iff rfl rfl) ⟨fun h p' sql hp hsql => ?_, ?_⟩
      · cases hp
        exact h sql hsql
      · exact fun h sql hsql => h p sql rfl hsql
  · intro p n from? to? draft
    refine ⟨Pipeline.lockstep_draft _ (TimeBound.length_conditions _ _ _ _), ?_⟩
    intro d item hitem field
    exact Draft.isNamed_iff_isNamedInText (Pipeline.alike_of_mem_draft hitem) d field

/-- The outcomes of a query whose pattern has a class inside a class, and in it what looks like the
header of a group, are not in step. -/
theorem inStep_iff_nested_class :
    let query := "rex \"[a[b](?<x(y>]\""
    ¬ (outcome {} query .clickHouse none none).InStep (outcome {} query .sqlite none none) := by
  intro query h
  have hentangled : ((parseQuery (parserLimits {}) query).toOption.any fun p =>
      p.stages.any Stage.isEntangled) = true := by decide +kernel
  cases hp : parseQuery (parserLimits {}) query with
  | error e =>
    rw [hp] at hentangled
    cases hentangled
  | ok p =>
    rw [hp] at hentangled
    have hfree := (inStep_iff {} query none none).1.1 h p _ hp
      (Pipeline.compile_eq_ok.2 ⟨none, none, rfl, rfl, rfl⟩)
    cases hentangled.symm.trans hfree

end Config

end LogQuery
