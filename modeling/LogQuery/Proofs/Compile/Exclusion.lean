import LogQuery.Proofs.Compile.Outputs
import LogQuery.Proofs.Compile.Statement

namespace LogQuery

/-! ### Columns of the rows -/

/-- The name of a column, and of any other expression its text. -/
def Sql.Expr.label (d : Dialect) : Sql.Expr → String
  | .column name => name
  | e => e.render d

/-- The name that an item has in the rows of a statement. -/
def SelectItem.column (d : Dialect) (item : SelectItem) : String :=
  item.output.getD (item.expr.label d)

namespace Statement

/-- The columns of the rows of a statement, if it does not return all columns. -/
def columns? (d : Dialect) (s : Statement) : Option (List String) :=
  if s.items.isEmpty then none else some (s.items.map (SelectItem.column d))

/-- A statement returns a column: it is one of its select list, or the statement returns all. -/
def Returns (d : Dialect) (s : Statement) (column : String) : Prop :=
  ∀ columns, s.columns? d = some columns → column ∈ columns

end Statement

/-! ### Default columns -/

/-- The default columns that are the column of no field among some. -/
def Column.remaining (fields : List String) : List String :=
  defaults.filter fun column => !(fields.map ofField).contains column

/-- The column of a field that is left out does not remain. -/
lemma Column.ofField_notMem_remaining {field : String} {fields : List String} (h : field ∈ fields) :
    ofField field ∉ remaining fields := by
  intro hmem
  have hcontains : (fields.map ofField).contains (ofField field) = true :=
    List.contains_iff_mem.2 (List.mem_map_of_mem h)
  rw [remaining, List.mem_filter, hcontains] at hmem
  exact Bool.false_ne_true hmem.2

/-- Only an exclusion of fields leaves out all default columns. -/
lemma Column.exists_mem_of_remaining_eq_nil {fields : List String} (h : remaining fields = []) :
    ∃ field, field ∈ fields := by
  refine List.exists_mem_of_ne_nil _ ?_
  rintro rfl
  cases h

/-! ### Pipelines -/

namespace Pipeline

variable {front back : List Stage} {fields : List String} {target : Target} {filter : List Sql.Expr}

/-- The select list that is left where the last stage to change it excludes fields. -/
lemma items_draft_of_exclusion
    (hback : (Pipeline.draft ⟨front ++ .fields fields false :: back⟩ target filter).items =
      (Pipeline.draft ⟨front ++ [.fields fields false]⟩ target filter).items) :
    (Pipeline.draft ⟨front ++ .fields fields false :: back⟩ target filter).items =
      (Column.remaining fields).map Draft.tableItem := by
  rw [hback, draft_snoc]
  rfl

/-- Where the last stage to change the select list excludes fields, the statement returns the other
default columns, and none of the fields, just if there is another default column. If there is none,
the statement returns all columns. -/
theorem leaves_out_iff (defaultLimit : Nat)
    (hback : (Pipeline.draft ⟨front ++ .fields fields false :: back⟩ target filter).items =
      (Pipeline.draft ⟨front ++ [.fields fields false]⟩ target filter).items) :
    let d := target.dialect
    let remaining := Column.remaining fields
    let s := Pipeline.statement ⟨front ++ .fields fields false :: back⟩ target defaultLimit filter
    s.columns? d = (if remaining = [] then none else some remaining) ∧
      ((∀ field ∈ fields, ¬ s.Returns d (Column.ofField field)) ↔ remaining ≠ []) ∧
      s.beginning d = "SELECT " ++ (if s.distinct then "DISTINCT " else "") ++
        (if remaining = [] then "*" else String.intercalate ", " remaining) ++
        " FROM " ++ target.table := by
  intro d remaining s
  have hitems : s.items = remaining.map Draft.tableItem := items_draft_of_exclusion hback
  have hcolumns : s.columns? d = if remaining = [] then none else some remaining := by
    have hnames : s.items.map (SelectItem.column d) = remaining := by
      rw [hitems, List.map_map]
      exact List.map_id' _
    rw [Statement.columns?, hnames, hitems]
    simp only [List.isEmpty_iff, List.map_eq_nil_iff]
  refine ⟨hcolumns, ⟨fun hout hnil => ?_, fun hne field hfield hreturns => ?_⟩, ?_⟩
  · -- All default columns are left out: every column is returned, so also those of the fields.
    obtain ⟨field, hfield⟩ := Column.exists_mem_of_remaining_eq_nil hnil
    refine hout field hfield fun columns hsome => ?_
    rw [hcolumns, if_pos hnil] at hsome
    cases hsome
  · rw [if_neg hne] at hcolumns
    exact Column.ofField_notMem_remaining hfield (hreturns remaining hcolumns)
  · have hdefault : ∀ column ∈ remaining, column ∈ Column.defaults :=
      fun column hmem => (List.mem_filter.1 hmem).1
    rw [Statement.beginning, hitems, Draft.render_tableItems d hdefault]
    simp only [List.isEmpty_iff, List.map_eq_nil_iff]
    rfl

/-- `fields - msg, level | where host=a | sort host` returns three columns, and with the other three
excluded too it returns all columns. -/
theorem leaves_out_iff_message :
    let back : List Stage :=
      [.filter .where_ [.compare "host" .eq (.string "a") false], .sort [⟨"host", .ascending⟩]]
    let statement := fun fields =>
      Pipeline.statement ⟨[] ++ .fields fields false :: back⟩ (.standard .sqlite) 1000 []
    (statement ["msg", "level"]).columns? .sqlite = some ["timestamp", "hostname", "app_name"] ∧
      ¬ (statement ["msg", "level"]).Returns .sqlite "message" ∧
      ¬ ∀ field ∈ ["msg", "level", "_time", "host", "app"],
        ¬ (statement ["msg", "level", "_time", "host", "app"]).Returns .sqlite
          (Column.ofField field) := by
  intro back statement
  have hthree : Column.remaining ["msg", "level"] = ["timestamp", "hostname", "app_name"] := by
    decide
  have hnone : Column.remaining ["msg", "level", "_time", "host", "app"] = [] := by decide
  have hmsg : Column.ofField "msg" = "message" := by decide
  obtain ⟨hcolumns, hout, -⟩ :=
    @leaves_out_iff [] back ["msg", "level"] (.standard .sqlite) [] 1000 rfl
  obtain ⟨-, hall, -⟩ :=
    @leaves_out_iff [] back ["msg", "level", "_time", "host", "app"] (.standard .sqlite) [] 1000 rfl
  rw [hthree] at hcolumns hout
  refine ⟨hcolumns, ?_, fun h => hall.1 h hnone⟩
  rw [← hmsg]
  exact hout.2 (List.cons_ne_nil _ _) "msg" List.mem_cons_self

end Pipeline

end LogQuery
