import LogQuery.Compile.Pipeline
import Mathlib.Tactic.Lemma

namespace LogQuery

variable {d : Dialect} {target : Target}

/-! ### Results -/

/-- A result that is there as an option is no error. -/
lemma eq_ok_of_toOption {ε α : Type} {r : Except ε α} {a : α} (h : r.toOption = some a) :
    r = .ok a := by
  cases r with
  | error e => cases h
  | ok b =>
    cases h
    rfl

/-- A pipeline has a statement if both bounds are read, and it is that of the pipeline between these
bounds. -/
lemma Pipeline.compile_eq_ok [Libraries] {p : Pipeline} {defaultLimit : Nat}
    {earliest latest : Option String} {sql : String} :
    p.compile target defaultLimit earliest latest = .ok sql ↔
      ∃ from? to?, TimeBound.ofText? earliest = .ok from? ∧ TimeBound.ofText? latest = .ok to? ∧
        sql = (p.statement target defaultLimit
          (TimeBound.conditions target.dialect from? to?)).render target.dialect := by
  rw [Pipeline.compile]
  cases hfrom : TimeBound.ofText? earliest with
  | error e => simp [bind, Except.bind]
  | ok from? =>
    cases hto : TimeBound.ofText? latest with
    | error e => simp [bind, Except.bind]
    | ok to? => simp [bind, Except.bind, pure, Except.pure, eq_comm]

/-- A query has a statement if it is read and its pipeline has one. -/
lemma Config.compile_eq_ok [Libraries] {c : Config} {query : String}
    {earliest latest : Option String} {sql : String} :
    c.compile query d earliest latest = .ok sql ↔ ∃ p, parseQuery c.parserLimits query = .ok p ∧
      p.compile (c.target d) c.defaultLimit earliest latest = .ok sql := by
  rw [Config.compile]
  cases hp : parseQuery c.parserLimits query with
  | error e => simp
  | ok p => cases hsql : p.compile (c.target d) c.defaultLimit earliest latest <;> simp [hsql]

/-! ### Filters -/

/-- The conditions by which a stage selects rows. -/
def Stage.conditions : Stage → List Condition
  | .filter _ conditions => conditions
  | _ => []

/-- Computed columns leave the filter as it is, however many are added. -/
lemma Draft.filter_foldl_addComputed {α : Type} (f : α → ComputedColumn) (as : List α)
    (draft : Draft) :
    (as.foldl (fun draft a => draft.addComputed (f a)) draft).filter = draft.filter := by
  induction as generalizing draft with
  | nil => rfl
  | cons a as ih => exact ih _

/-- What a stage adds to the filter. -/
lemma Stage.filter_apply (stage : Stage) (draft : Draft) :
    (stage.apply target draft).filter =
      draft.filter ++ (Condition.fragment? target.dialect stage.conditions).toList := by
  have hnone : draft.filter = draft.filter
      ++ (Condition.fragment? target.dialect []).toList := (List.append_nil _).symm
  cases stage with
  | filter command conditions => rfl
  | eval assignments => exact (Draft.filter_foldl_addComputed _ _ _).trans hnone
  | rex field pattern => exact (Draft.filter_foldl_addComputed _ _ _).trans hnone
  | fields names keep => cases keep <;> exact hnone
  | _ => exact hnone

/-- The filter of a pipeline, in the order of its stages. -/
lemma Pipeline.filter_draft (p : Pipeline) (filter : List Sql.Expr) :
    (p.draft target filter).filter = filter ++ p.stages.flatMap fun stage =>
      (Condition.fragment? target.dialect stage.conditions).toList := by
  have hrun : ∀ (stages : List Stage) (draft : Draft),
      (stages.foldl (Stage.apply target) draft).filter = draft.filter ++ stages.flatMap fun stage =>
        (Condition.fragment? target.dialect stage.conditions).toList := by
    intro stages
    induction stages with
    | nil => exact fun draft => (List.append_nil _).symm
    | cons stage stages ih =>
      intro draft
      rw [List.foldl_cons, ih, Stage.filter_apply, List.flatMap_cons, List.append_assoc]
  exact hrun p.stages (.start filter)

/-! ### Clauses -/

/-- The names of the default columns need no quotes. -/
lemma Sql.identifier_of_mem_defaults {column : String} (d : Dialect)
    (h : column ∈ Column.defaults) : identifier d column = column := by
  have hplain : Column.defaults.all isPlainName = true := by decide
  exact if_pos (List.all_eq_true.1 hplain column h)

/-- Default columns are listed by their plain names: none of them needs quotes. -/
lemma Draft.render_tableItems (d : Dialect) {columns : List String}
    (h : ∀ column ∈ columns, column ∈ Column.defaults) :
    (columns.map tableItem).map (SelectItem.render d) = columns := by
  have hrender : ∀ column ∈ columns, (tableItem column).render d = column := by
    intro column hmem
    exact String.append_empty.trans (Sql.identifier_of_mem_defaults d (h column hmem))
  rw [List.map_map]
  exact (List.map_congr_left hrender).trans (List.map_id' _)

namespace Statement

/-- The text of a statement in front of its filter. -/
def beginning (d : Dialect) (s : Statement) : String :=
  "SELECT " ++ (if s.distinct then "DISTINCT " else "")
    ++ (if s.items.isEmpty then "*"
      else String.intercalate ", " (s.items.map (SelectItem.render d)))
    ++ " FROM " ++ s.table

/-- The text of a statement behind its filter. -/
def ending (d : Dialect) (s : Statement) : String :=
  clause "GROUP BY" ", " (s.groupBy.map (ColumnRef.render d))
    ++ clause "ORDER BY" ", " (s.orderBy.map (OrderKey.render d))
    ++ clause "LIMIT" "" (s.limit.map toString).toList

/-- A filter is a clause like all others. -/
lemma whereClause_eq (d : Dialect) (filter : List Sql.Expr) :
    (if filter.isEmpty then "" else " WHERE " ++ renderFilter d filter) =
      clause "WHERE" " AND " (filter.map (Sql.Expr.render d)) := by
  have hkeyword : " " ++ "WHERE" ++ " " = " WHERE " := by decide
  cases filter with
  | nil => rfl
  | cons => rw [clause, hkeyword]; rfl

/-- A statement is what stands before its filter, the filter, and what stands behind. -/
lemma render_eq (s : Statement) :
    s.render d = s.beginning d ++ clause "WHERE" " AND " (s.filter.map (Sql.Expr.render d))
      ++ s.ending d := by
  rw [render, whereClause_eq]
  simp only [beginning, ending, String.append_assoc]

end Statement

end LogQuery
