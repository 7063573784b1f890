import LogQuery.Proofs.Compile.Outputs
import LogQuery.Proofs.Sql.Subquery
import Mathlib.Data.List.Basic

namespace LogQuery

open Sql

variable {d : Dialect} {table : String} {target : Target} {draft : Draft} {filter : List Expr}

/-! ### Conditions and bounds of time -/

/-- No comparison holds a subquery, whatever the column and the value. -/
lemma Comparison.subqueries_toSql (comparison : Comparison) (column : String) (value : Value) :
    (comparison.toSql d column value).subqueries = [] := by
  have hplain : ∀ op v, (Expr.binary op (.column column) (.ofValue v)).subqueries = [] := by
    simp
  have hlist : (Comparison.listToSql value).subqueries = [] := by
    cases value with
    | list items => exact Expr.subqueries_ofValues items
    | _ => exact Expr.subqueries_ofValue _
  unfold Comparison.toSql
  dsimp only
  -- First the comparisons that depend on what kind of value there is, then the plain ones.
  split
  · rfl
  · rfl
  · rfl
  · exact Dialect.subqueries_regexMatch rfl _
  · exact Dialect.subqueries_regexMatch rfl _
  · exact Dialect.subqueries_regexMatch rfl _
  · split_ifs
    · exact Dialect.subqueries_like rfl _ _ _
    · exact hplain _ _
  · split_ifs
    · exact Dialect.subqueries_like rfl _ _ _
    · exact hplain _ _
  · split_ifs
    · exact Dialect.subqueries_like rfl _ _ _
    · exact Dialect.subqueries_contains rfl _
  · exact Dialect.subqueries_contains rfl _
  · simp [hlist]
  · simp [hlist]
  all_goals exact hplain _ _

namespace Condition

mutual

/-- Conditions become expressions without a subquery. The recursion is on the condition. -/
lemma subqueries_toSql : ∀ c : Condition, (c.toSql d).subqueries = []
  | .compare field comparison value negated => by
    have htest := comparison.subqueries_toSql (d := d) (Column.ofField field) value
    rw [toSql]
    split_ifs <;> exact htest
  | .group logic members negated => by
    have hmembers := subqueries_allToSql members
    rw [toSql]
    split_ifs <;> exact hmembers

lemma subqueries_allToSql : ∀ cs : List Condition, Expr.allSubqueries (allToSql d cs) = []
  | [] => rfl
  | c :: cs => by
    rw [allToSql, Expr.allSubqueries_cons, subqueries_toSql c, subqueries_allToSql cs]
    rfl

end

lemma subqueries_fragment (cs : List Condition) :
    Expr.allSubqueries (fragment? d cs).toList = [] := by
  have hall := subqueries_allToSql (d := d) cs
  rw [fragment?]
  split
  · rfl
  · next e heq => rwa [heq] at hall
  · simp [hall]

end Condition

lemma TimeBound.subqueries_conditions (earliest latest : Option TimeBound) :
    Expr.allSubqueries (conditions d earliest latest) = [] := by
  rw [Expr.allSubqueries_eq_nil]
  intro e he
  rcases List.mem_append.1 he with he | he <;>
  · obtain ⟨b, -, rfl⟩ := Option.map_eq_some_iff.1 (Option.mem_toList.1 he)
    cases b with
    | now => simp [TimeBound.toSql]
    | ago amount unit => cases d <;> simp [TimeBound.toSql, Dialect.timeAgo]
    | timestamp text => rfl

/-! ### Computed columns and aggregations -/

/-- SQLite takes the aggregate from a subquery. -/
def AggregateFunction.isSubquery : AggregateFunction → Bool
  | .median | .mode | .percentile _ => true
  | _ => false

/-- SQLite takes the aggregation of a field from a subquery. -/
def Aggregation.isSubquery (a : Aggregation) : Bool := a.function.isSubquery && a.field.isSome

/-- Of SQLite's aggregates, those that need the rows once more hold one subquery over the given
filter. -/
lemma Dialect.subqueries_aggregate (function : AggregateFunction) (table : String) {e : Expr}
    (he : e.subqueries = []) (hfilter : Expr.allSubqueries filter = []) :
    (aggregate .sqlite function e ⟨table, filter⟩).subqueries =
      if function.isSubquery then [⟨e, filter⟩] else [] := by
  cases function <;>
    simp [aggregate, sqliteAggregate, AggregateFunction.isSubquery, he, hfilter]

namespace Stage

/-- What a stage computes holds no subquery. -/
lemma subqueries_computed (stage : Stage) :
    ∀ c ∈ stage.computed d, c.expr.subqueries = [] := by
  intro c hc
  cases stage with
  | eval assignments =>
    obtain ⟨a, -, rfl⟩ := List.mem_map.1 hc
    exact EvalExpr.subqueries_toSql a.expr
  | bin field span output =>
    rw [List.mem_singleton.1 hc]
    cases span with
    | time amount unit => exact Dialect.subqueries_timeBucket rfl _
    | numeric width => exact Dialect.subqueries_numericBin rfl width
  | rex field pattern =>
    obtain ⟨group, -, rfl⟩ := List.mem_map.1 hc
    exact Dialect.subqueries_extractGroup rfl pattern group
  | _ => cases hc

/-- The aggregations that a stage puts into the select list. -/
def aggregations : Stage → List Aggregation
  | .stats aggregations _ | .timechart _ aggregations _ => aggregations
  | _ => []

def asksSubquery (stage : Stage) : Bool := stage.aggregations.any Aggregation.isSubquery

/-- The stage leaves the expressions of the select list as they are and at most adds to them. -/
def keepsItems : Stage → Bool
  | .filter _ _ | .sort _ | .limit _ _ | .rename _ | .eval _ | .bin _ _ _ | .rex _ _ => true
  | _ => false

/-- A stage that keeps the items aggregates nothing. -/
lemma aggregations_of_keepsItems {stage : Stage} (h : stage.keepsItems) :
    stage.aggregations = [] := by
  cases stage <;> first | rfl | cases h

/-- A stage that asks for a subquery has no conditions of its own. -/
lemma conditions_of_asksSubquery {stage : Stage} (h : stage.asksSubquery) :
    stage.conditions = [] := by
  cases stage <;> first | rfl | cases h

end Stage

/-! ### Drafts -/

namespace Draft

def subqueries (draft : Draft) : List Subquery :=
  draft.items.flatMap fun item => item.expr.subqueries

/-- The subquery that an aggregation asks for. -/
def subquery? (draft : Draft) (a : Aggregation) : Option Subquery :=
  if a.function.isSubquery then a.field.map fun field => ⟨draft.value field, draft.filter⟩ else none

/-- A subquery takes the filter that the draft has at that point. -/
lemma filter_of_subquery {a : Aggregation} {q : Subquery} (h : draft.subquery? a = some q) :
    q.filter = draft.filter := by
  rw [subquery?] at h
  split_ifs at h
  obtain ⟨field, -, rfl⟩ := Option.map_eq_some_iff.1 h
  rfl

/-- Whether an aggregation needs a subquery does not depend on the draft. -/
lemma isSubquery_iff (draft : Draft) {a : Aggregation} :
    a.isSubquery ↔ ∃ q, draft.subquery? a = some q := by
  rw [Aggregation.isSubquery, subquery?]
  cases a.function.isSubquery <;> cases a.field <;> simp

/-- No computed column and no condition has a subquery in it. -/
structure Flat (draft : Draft) : Prop where
  computed : ∀ c ∈ draft.computed, c.expr.subqueries = []
  filter : Expr.allSubqueries draft.filter = []

namespace Flat

variable (h : draft.Flat)
include h

lemma subqueries_of_computedFor {field : String} {c : ComputedColumn}
    (hc : draft.computedFor? field = some c) : c.expr.subqueries = [] :=
  h.computed c (List.mem_reverse.1 (List.mem_of_find?_eq_some hc))

lemma subqueries_value (field : String) : (draft.value field).subqueries = [] := by
  rw [value]
  split
  · next c hc => exact h.subqueries_of_computedFor hc
  · rfl

lemma subqueries_item (field : String) : (draft.item field).expr.subqueries = [] := by
  rw [item]
  split
  · next c hc => exact h.subqueries_of_computedFor hc
  · rfl

lemma subqueries_items (fields : List String) :
    (fields.map draft.item).flatMap (fun item => item.expr.subqueries) = [] := by
  rw [List.flatMap_eq_nil_iff]
  exact List.forall_mem_map.2 fun field _ => h.subqueries_item field

/-- The item of an aggregation holds just the subquery that the draft gives it. -/
lemma subqueries_aggregationItem (a : Aggregation) :
    (draft.aggregationItem ⟨.sqlite, table⟩ a).expr.subqueries = (draft.subquery? a).toList := by
  rw [aggregationItem, subquery?]
  cases a.field with
  | none => simp
  | some field =>
    have haggregate := Dialect.subqueries_aggregate a.function table (h.subqueries_value field)
      h.filter
    cases hfunction : a.function.isSubquery <;> simpa [hfunction, rows] using haggregate

lemma subqueries_aggregationItems (as : List Aggregation) :
    (as.map (draft.aggregationItem ⟨.sqlite, table⟩)).flatMap (fun item => item.expr.subqueries) =
      as.filterMap draft.subquery? := by
  rw [List.flatMap_map, List.filterMap_eq_flatMap_toList]
  exact congrFun (congrArg List.flatMap (funext h.subqueries_aggregationItem)) as

end Flat

lemma flat_start (h : Expr.allSubqueries filter = []) : (start filter).Flat := ⟨nofun, h⟩

lemma subqueries_tableItems (columns : List String) :
    (columns.map tableItem).flatMap (fun item => item.expr.subqueries) = [] := by
  rw [List.flatMap_eq_nil_iff]
  exact List.forall_mem_map.2 fun _ _ => rfl

lemma subqueries_addAll {cs : List ComputedColumn} (h : ∀ c ∈ cs, c.expr.subqueries = []) :
    (draft.addAll cs).subqueries = draft.subqueries := by
  have hcs : (cs.map ComputedColumn.item).flatMap (fun item => item.expr.subqueries) = [] := by
    rw [List.flatMap_eq_nil_iff]
    exact List.forall_mem_map.2 h
  rw [subqueries, addAll, List.flatMap_append, hcs, List.append_nil]
  rfl

/-- Renaming changes the names of items only. -/
lemma subqueries_renameItems (items : List SelectItem) (rs : List Renaming) :
    (rs.foldl renameItems items).flatMap (fun item => item.expr.subqueries) =
      items.flatMap fun item => item.expr.subqueries := by
  induction rs generalizing items with
  | nil => rfl
  | cons r rs ih =>
    rw [List.foldl_cons, ih, renameItems, List.flatMap_map]
    refine congrFun (congrArg List.flatMap (funext fun item => ?_)) items
    split_ifs <;> rfl

/-- No stage puts a subquery into a computed column, the keys or the filter. -/
lemma Flat.apply (h : draft.Flat) (stage : Stage) : (stage.apply target draft).Flat where
  computed := by
    rw [Stage.computed_apply]
    exact List.forall_mem_append.2 ⟨h.computed, stage.subqueries_computed⟩
  filter := by
    rw [Stage.filter_apply, Expr.allSubqueries_append, h.filter]
    exact Condition.subqueries_fragment _

/-- A stage keeps the subqueries of the select list, or puts those of its aggregations in their
place. -/
lemma Flat.subqueries_apply (h : draft.Flat) (stage : Stage) :
    (stage.apply ⟨.sqlite, table⟩ draft).subqueries =
      if stage.keepsItems then draft.subqueries
      else stage.aggregations.filterMap draft.subquery? := by
  cases stage with
  | filter | sort | limit => rfl
  | rename renamings => exact subqueries_renameItems draft.items renamings
  | eval assignments =>
    rw [Stage.apply_eval]
    exact subqueries_addAll (Stage.subqueries_computed _)
  | rex field pattern =>
    rw [Stage.apply_rex]
    exact subqueries_addAll (Stage.subqueries_computed _)
  | bin field span output =>
    exact subqueries_addAll (Stage.subqueries_computed (.bin field span output))
  | stats as fields =>
    change List.flatMap _ (_ ++ _) = _
    rw [List.flatMap_append, h.subqueries_items, h.subqueries_aggregationItems]
    rfl
  | timechart span as splitBy =>
    change List.flatMap _ (_ :: _ ++ _) = _
    rw [List.flatMap_append, List.flatMap_cons, h.subqueries_items, h.subqueries_aggregationItems,
      Dialect.subqueries_timeBucket rfl]
    rfl
  | frequent which fields limit =>
    change List.flatMap _ (_ ++ _) = _
    rw [List.flatMap_append, h.subqueries_items]
    rfl
  | dedup fields => exact h.subqueries_items fields
  | table fields => exact h.subqueries_items fields
  | fields names keep =>
    cases keep with
    | true => exact h.subqueries_items names
    | false => exact subqueries_tableItems _

end Draft

/-- A stage asks for a subquery exactly if the draft gives one to some aggregation of it. -/
lemma Stage.asksSubquery_iff (draft : Draft) {stage : Stage} :
    stage.asksSubquery ↔ ∃ a ∈ stage.aggregations, ∃ q, draft.subquery? a = some q := by
  rw [asksSubquery, List.any_eq_true]
  simp only [draft.isSubquery_iff]

/-! ### Pipelines -/

lemma snoc_eq_append_cons {α : Type} {init front back : List α} {last a : α} :
    init ++ [last] = front ++ a :: back ↔
      (back = [] ∧ init = front ∧ last = a) ∨
        ∃ back', back = back' ++ [last] ∧ init = front ++ a :: back' := by
  constructor
  · intro h
    rcases List.eq_nil_or_concat' back with rfl | ⟨back', b, rfl⟩
    · obtain ⟨hinit, hlast⟩ := List.append_inj' h rfl
      exact .inl ⟨rfl, hinit, List.head_eq_of_cons_eq hlast⟩
    · rw [← List.cons_append, ← List.append_assoc] at h
      obtain ⟨hinit, hlast⟩ := List.append_inj' h rfl
      cases hlast
      exact .inr ⟨back', rfl, hinit⟩
  · rintro (⟨rfl, rfl, rfl⟩ | ⟨back', rfl, rfl⟩)
    · rfl
    · simp

namespace Pipeline

/-- Subqueries stand in the items of a draft only. The induction is on the stages. -/
lemma flat_draft (p : Pipeline) (target : Target) (h : Expr.allSubqueries filter = []) :
    (p.draft target filter).Flat := by
  obtain ⟨stages⟩ := p
  induction stages using List.reverseRecOn with
  | nil => exact Draft.flat_start h
  | append_singleton front stage ih =>
    rw [draft_snoc]
    exact ih.apply stage

/-- The subqueries that a pipeline leaves in its select list are those of the last stage that makes
one, if this has aggregations, and they select by the filter in front of it. The induction is on the
stages from the last one on. -/
theorem mem_subqueries_draft (p : Pipeline) (h : Expr.allSubqueries filter = []) (q : Subquery) :
    q ∈ (p.draft ⟨.sqlite, table⟩ filter).subqueries ↔
      ∃ front stage back, p.stages = front ++ stage :: back ∧ (∀ later ∈ back, later.keepsItems) ∧
        ∃ a ∈ stage.aggregations,
          (Pipeline.draft ⟨front⟩ ⟨.sqlite, table⟩ filter).subquery? a = some q := by
  obtain ⟨stages⟩ := p
  induction stages using List.reverseRecOn with
  | nil =>
    have hstart : (Pipeline.draft ⟨[]⟩ ⟨.sqlite, table⟩ filter).subqueries = [] :=
      Draft.subqueries_tableItems _
    simp [hstart]
  | append_singleton init last ih =>
    rw [draft_snoc, (flat_draft ⟨init⟩ ⟨.sqlite, table⟩ h).subqueries_apply]
    split_ifs with hkeeps
    · rw [ih]
      constructor
      · rintro ⟨front, stage, back, rfl, hback, ha⟩
        refine ⟨front, stage, back ++ [last], by simp, ?_, ha⟩
        simpa [or_imp, forall_and, hkeeps] using hback
      · rintro ⟨front, stage, back, hstages, hback, a, ha, hq⟩
        -- The stage with the aggregation is not the last one, which keeps the items.
        rcases snoc_eq_append_cons.1 hstages with ⟨rfl, rfl, rfl⟩ | ⟨back, rfl, rfl⟩
        · rw [Stage.aggregations_of_keepsItems hkeeps] at ha
          cases ha
        · exact ⟨front, stage, back, rfl, fun b hb => hback b (by simp [hb]), a, ha, hq⟩
    · rw [List.mem_filterMap]
      constructor
      · rintro ⟨a, ha, hq⟩
        exact ⟨init, last, [], rfl, nofun, a, ha, hq⟩
      · rintro ⟨front, stage, back, hstages, hback, a, ha, hq⟩
        rcases snoc_eq_append_cons.1 hstages with ⟨rfl, rfl, rfl⟩ | ⟨back, rfl, rfl⟩
        · exact ⟨a, ha, hq⟩
        · exact absurd (hback last (by simp)) hkeeps

/-- The filter of a pipeline has, in addition to that in front of a stage that asks for a subquery,
what the stages behind it ask for. -/
lemma filter_draft_of_asksSubquery {p : Pipeline} {front back : List Stage} {stage : Stage}
    (target : Target) (hstages : p.stages = front ++ stage :: back) (hstage : stage.asksSubquery) :
    (p.draft target filter).filter =
      (Pipeline.draft ⟨front⟩ target filter).filter ++
        back.filterMap (Stage.fragment? target.dialect) := by
  have hnone : stage.fragment? target.dialect = none :=
    Stage.fragment?_eq_none.2 (Stage.conditions_of_asksSubquery hstage)
  rw [filter_draft_eq_filterMap, filter_draft_eq_filterMap, hstages, List.filterMap_append,
    List.filterMap_cons, hnone, List.append_assoc]

/-- A subquery that a stage asks for selects by the filter of the pipeline just if no stage behind
that one has conditions. -/
lemma clause_eq_iff {p : Pipeline} {front back : List Stage} {stage : Stage} (target : Target)
    (hstages : p.stages = front ++ stage :: back) (hstage : stage.asksSubquery) {q : Subquery}
    (hq : q.filter = (Pipeline.draft ⟨front⟩ target filter).filter) :
    q.clause d = Expr.subqueryFilter (q.column.render d)
        ((p.draft target filter).filter.map (Expr.render d)) ↔
      ∀ later ∈ back, later.conditions = [] := by
  rw [filter_draft_of_asksSubquery target hstages hstage, ← hq, q.clause_eq_iff,
    List.filterMap_eq_nil_iff]
  simp only [Stage.fragment?_eq_none]

end Pipeline

/-! ### Statements -/

namespace Statement

def subqueries (s : Statement) : List Subquery :=
  s.items.flatMap (fun item => item.expr.subqueries) ++ Expr.allSubqueries s.filter

/-- Every subquery selects its rows by the filter of the statement, and by the test that they have a
value. -/
def SharesFilter (d : Dialect) (s : Statement) : Prop :=
  ∀ q ∈ s.subqueries,
    q.clause d = Expr.subqueryFilter (q.column.render d) (s.filter.map (Expr.render d))

end Statement

namespace Pipeline

/-- The subqueries in the statement of a pipeline select by its filter just if no stage has
conditions behind the one that asks for them, unless a later stage puts another select list in the
place of theirs. So the median in `stats median(bytes) | where host=a` is that of all rows, and the
rows are those of one host. -/
theorem subqueries_share_filter_iff (p : Pipeline) (table : String) (defaultLimit : Nat)
    (earliest latest : Option TimeBound) :
    (p.statement ⟨.sqlite, table⟩ defaultLimit
        (TimeBound.conditions .sqlite earliest latest)).SharesFilter .sqlite ↔
      ∀ front stage back, p.stages = front ++ stage :: back → stage.asksSubquery →
        (∀ later ∈ back, later.keepsItems) → ∀ later ∈ back, later.conditions = [] := by
  have hflat := TimeBound.subqueries_conditions (d := .sqlite) earliest latest
  generalize TimeBound.conditions .sqlite earliest latest = filter at hflat
  have hsubqueries : (p.statement ⟨.sqlite, table⟩ defaultLimit filter).subqueries =
      (p.draft ⟨.sqlite, table⟩ filter).subqueries := by
    have hfilter := (p.flat_draft ⟨.sqlite, table⟩ hflat).filter
    exact (congrArg (_ ++ ·) hfilter).trans (List.append_nil _)
  rw [Statement.SharesFilter, hsubqueries]
  constructor
  · intro h front stage back hstages hstage hback
    obtain ⟨a, ha, q, hq⟩ :=
      (Stage.asksSubquery_iff (Pipeline.draft ⟨front⟩ ⟨.sqlite, table⟩ filter)).1 hstage
    have hmem := (mem_subqueries_draft p hflat q).2 ⟨front, stage, back, hstages, hback, a, ha, hq⟩
    exact (clause_eq_iff _ hstages hstage (Draft.filter_of_subquery hq)).1 (h q hmem)
  · intro h q hq
    obtain ⟨front, stage, back, hstages, hback, a, ha, hq⟩ := (mem_subqueries_draft p hflat q).1 hq
    have hstage := (Stage.asksSubquery_iff _).2 ⟨a, ha, q, hq⟩
    exact (clause_eq_iff _ hstages hstage (Draft.filter_of_subquery hq)).2
      (h front stage back hstages hstage hback)

/-- The subquery in `stats median(bytes) | where host=a` does not know of the host. -/
example :
    let p : Pipeline := ⟨[.stats [⟨.median, some "bytes", none⟩] [],
      .filter .where_ [.compare "host" .eq (.string "a") false]]⟩
    let s := p.statement (.standard .sqlite) 1000 []
    s.subqueries.map (Subquery.clause .sqlite) = ["WHERE bytes IS NOT NULL"] ∧
      s.filter.map (Expr.render .sqlite) = ["hostname = 'a'"] := by
  decide +kernel

end Pipeline

end LogQuery
