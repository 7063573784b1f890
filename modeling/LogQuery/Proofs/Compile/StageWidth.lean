import LogQuery.Proofs.Compile.DraftWidth
import LogQuery.Proofs.Compile.ExpressionWidth

namespace LogQuery

open Sql

def Stage.exprs : Stage → List EvalExpr
  | .eval assignments => assignments.map (·.expr)
  | _ => []

namespace Draft.Bounded

variable {d : Dialect} {draft : Draft} {target : Target} {unit mass more : Nat}

/-! ### Lists of fields -/

/-- A selection copies each field that it names. -/
lemma keep (h : draft.Bounded d unit mass) (hunit : 250 ≤ unit) (fields : List String)
    (hmore : (fields.map textMass).sum ≤ more) :
    (draft.keep fields).Bounded d unit (mass + more) :=
  { h.mono more with
    count := by
      have hcount := length_le_sum_map textMass_pos fields
      rw [Draft.keep, List.length_map]
      omega
    items := by
      have hitems := (h.widths_items_le hunit fields).trans (mul_copyRate_le unit mass hmore)
      exact hitems.trans (Nat.le_add_right _ _) }

/-- Whichever default columns are listed, their names take less than a fixed space. -/
lemma widths_tableItems_le {columns : List String} (h : columns.Sublist Column.defaults) :
    SelectItem.widths d (columns.map tableItem) ≤ 150 := by
  have hcolumn : ∀ column : String, (tableItem column).width d ≤ 2 * column.length + 4 := by
    intro column
    have := Expr.width_column_le (d := d) column
    exact (SelectItem.width_unnamed _).le.trans (Nat.add_le_add_right this 2)
  calc SelectItem.widths d (columns.map tableItem)
      ≤ (columns.map fun column => 2 * column.length + 4).sum := by
        rw [SelectItem.widths, List.map_map]
        exact List.sum_le_sum fun column _ => hcolumn column
    _ ≤ (Column.defaults.map fun column => 2 * column.length + 4).sum :=
        (h.map _).sum_le_sum fun _ _ => Nat.zero_le _
    _ ≤ 150 := by decide

/-- An exclusion drops all items but the default columns. -/
lemma leaveOut (h : draft.Bounded d unit mass) (fields : List String) (more : Nat) :
    (draft.leaveOut fields).Bounded d unit (mass + more) := by
  have hsublist : (Column.defaults.filter fun c => !(fields.map Column.ofField).contains c).Sublist
      Column.defaults := List.filter_sublist
  exact
    { h.mono more with
      count := by
        have hcount := hsublist.length_le
        have hdefaults : Column.defaults.length = 5 := rfl
        rw [Draft.leaveOut, List.length_map]
        omega
      items := (widths_tableItems_le hsublist).trans (Nat.le_add_left _ _) }

/-! ### Groups of rows -/

/-- A grouping copies its columns into its results and refers to its groups. -/
lemma group (h : draft.Bounded target.dialect unit mass) (hunit : 250 ≤ unit)
    (htable : target.table.length ≤ 20) {as : List Aggregation} {fields : List String}
    (hmore : (as.map Aggregation.mass).sum + (fields.map textMass).sum ≤ more) :
    (draft.group target as fields).Bounded target.dialect unit (mass + more) := by
  have hfields := h.widths_items_le hunit fields
  have haggregations := h.widths_aggregationItems_le hunit htable as
  exact
    { h.mono more with
      count := by
        have hcount := length_le_sum_map textMass_pos fields
        have hcount' := length_le_sum_map Aggregation.mass_pos as
        rw [Draft.group, List.length_append, List.length_map, List.length_map]
        omega
      items := by
        have hitems := mul_copyRate_le unit mass hmore
        rw [Nat.add_mul] at hitems
        rw [Draft.group, SelectItem.widths_append]
        omega
      groupBy := (h.widths_references_le fields).trans (mul_nameRate_le mass (by omega)) }

/-- A count of combinations copies the fields that it counts. -/
lemma countCombinations (h : draft.Bounded d unit mass) (hunit : 250 ≤ unit)
    {fields : List String} (order : SortOrder) {limit : Nat}
    (hmore : 1 + (fields.map textMass).sum + rowsMass limit ≤ more) :
    (draft.countCombinations d fields order limit).Bounded d unit (mass + more) := by
  have hfields := h.widths_items_le hunit fields
  have hcount := d.width_countAll_le
  have hname : rowCount.length = 5 := rfl
  exact
    { h.mono more with
      count := by
        have hlength := length_le_sum_map textMass_pos fields
        rw [Draft.countCombinations, List.length_append, List.length_map, List.length_singleton]
        omega
      items := by
        have hlast := SelectItem.width_named_le (d := d) d.countAll rowCount
        have hrate := copyRate_eq unit mass
        have hitems := mul_copyRate_le unit mass
          (show (fields.map textMass).sum + 1 ≤ more by omega)
        rw [Nat.add_mul, Nat.one_mul] at hitems
        rw [Draft.countCombinations, SelectItem.widths_append, SelectItem.widths_cons,
          SelectItem.widths_nil]
        omega
      groupBy := (h.widths_references_le fields).trans (mul_nameRate_le mass (by omega))
      orderBy := by
        have hkey := OrderKey.width_le (d := d) ⟨.output rowCount, order⟩
        have hrate := mul_nameRate_le mass (show 1 ≤ more by omega)
        rw [Draft.countCombinations, List.map_singleton, List.sum_singleton]
        rw [nameRate] at hrate
        simp only [ColumnRef.name] at hkey
        omega
      limit := by
        intro n hn
        cases hn
        rw [rowsMass] at hmore
        omega }

/-- A chart adds one item for the time to those of its aggregations. -/
lemma chart (h : draft.Bounded target.dialect unit mass) (hunit : 250 ≤ unit)
    (htable : target.table.length ≤ 20) (span : Span) {as : List Aggregation}
    {splitBy : Option String}
    (hmore : 1 + (as.map Aggregation.mass).sum + outputMass splitBy ≤ more) :
    (draft.chart target span as splitBy).Bounded target.dialect unit (mass + more) := by
  have hsplit : (splitBy.toList.map textMass).sum = outputMass splitBy := by
    cases splitBy <;> simp [outputMass]
  have hlength := length_le_sum_map textMass_pos splitBy.toList
  have hname : chartTime.length = 4 := rfl
  exact
    { h.mono more with
      count := by
        have hlength' := length_le_sum_map Aggregation.mass_pos as
        rw [Draft.chart, List.length_append, List.length_cons, List.length_map, List.length_map]
        omega
      items := by
        have hfields := h.widths_items_le hunit splitBy.toList
        have haggregations := h.widths_aggregationItems_le hunit htable as
        have hbucket := Dialect.width_timeBucket_le (d := target.dialect) (.column Column.timestamp)
          span.bucketSeconds_lt
        have hcolumn := Expr.width_column_le (d := target.dialect) Column.timestamp
        have htime : Column.timestamp.length = 9 := rfl
        have hfirst := SelectItem.width_named_le (d := target.dialect)
          (target.dialect.timeBucket (.column Column.timestamp) span.bucketSeconds) chartTime
        have hrate := copyRate_eq unit mass
        have hitems := mul_copyRate_le unit mass hmore
        rw [Nat.add_mul, Nat.add_mul, Nat.one_mul, ← hsplit] at hitems
        rw [Draft.chart, List.cons_append, SelectItem.widths_cons, SelectItem.widths_append]
        omega
      groupBy := by
        have hreferences := h.widths_references_le splitBy.toList
        have hkey := ColumnRef.width_le (d := target.dialect) (.output chartTime)
        have hrate := mul_nameRate_le mass (show outputMass splitBy + 1 ≤ more by omega)
        rw [Nat.add_mul, Nat.one_mul, ← hsplit] at hrate
        rw [Draft.chart, List.map_cons, List.sum_cons]
        simp only [ColumnRef.name] at hkey
        have hone : 29 ≤ nameRate mass := Nat.le_add_left _ _
        omega
      orderBy := by
        have hkey := OrderKey.width_le (d := target.dialect) ⟨.output chartTime, .ascending⟩
        have hrate := mul_nameRate_le mass (show 1 ≤ more by omega)
        rw [Draft.chart, List.map_singleton, List.sum_singleton]
        rw [nameRate] at hrate
        simp only [ColumnRef.name] at hkey
        omega }

/-! ### Names -/

/-- Every item may get a name that is as long as the stage is heavy. -/
lemma rename (h : draft.Bounded d unit mass) (hunit : 250 ≤ unit) {renamings : List Renaming}
    (hmore : 1 + (renamings.map fun r => textMass r.source + textMass r.target).sum ≤ more) :
    ({ draft with items := renamings.foldl Draft.renameItems draft.items } : Draft).Bounded d unit
      (mass + more) := by
  have htarget : ∀ r ∈ renamings, r.target.length ≤ more := by
    intro r hr
    have hone := List.le_sum_of_mem (List.mem_map_of_mem
      (f := fun r : Renaming => textMass r.source + textMass r.target) hr)
    have hlength := length_le_textMass r.target
    omega
  exact
    { h.mono more with
      count := by
        rw [SelectItem.foldl_renameItems, List.length_map]
        exact (h.mono more).count
      items := by
        have hwidths := SelectItem.widths_foldl_renameItems_le (d := d) htarget draft.items
        have hitems := h.items
        have hcount : draft.items.length * (2 * more + 6) ≤ (mass + 5) * (8 * more) :=
          Nat.mul_le_mul h.count (by omega)
        have hexpand : (mass + 5) * (8 * more) = 8 * (mass * more) + 40 * more := by ring
        have hmore2 : more ≤ more ^ 2 := Nat.le_self_pow (by decide) more
        have hcross := Nat.mul_le_mul_right (mass * more) hunit
        have hown := Nat.mul_le_mul_right (more ^ 2) hunit
        rw [square_add]
        dsimp only
        omega }

/-! ### Computed columns -/

/-- Computed columns are paid for by what the stage adds to the mass. -/
lemma addAll (h : draft.Bounded d unit mass) (cs : List ComputedColumn) (hlength : cs.length ≤ more)
    (hname : ∀ c ∈ cs, c.name.length ≤ more + 10)
    (hcolumn : ∀ c ∈ cs, c.expr.width d ≤ 2 * (unit * more))
    (hitems : SelectItem.widths d (cs.map ComputedColumn.item) ≤ 3 * (unit * more ^ 2)) :
    (draft.addAll cs).Bounded d unit (mass + more) :=
  { h.mono more with
    name := by
      intro c hc
      rcases List.mem_append.1 hc with hc | hc
      · exact (h.mono more).name c hc
      · have := hname c hc
        omega
    column := by
      intro c hc
      rcases List.mem_append.1 hc with hc | hc
      · exact (h.mono more).column c hc
      · have := hcolumn c hc
        rw [Nat.mul_add]
        omega
    count := by
      have := h.count
      rw [Draft.addAll, List.length_append, List.length_map]
      omega
    items := by
      have := h.items
      rw [Draft.addAll, SelectItem.widths_append, square_add]
      omega }

/-- An assignment is paid for by its expression. -/
lemma eval (h : draft.Bounded target.dialect unit mass) (hunit : 250 ≤ unit)
    {assignments : List Assignment}
    (hexprs : ∀ a ∈ assignments,
      (a.expr.toSql target.dialect).width target.dialect + 20 ≤ 2 * (unit * a.expr.mass))
    (hmore : 1 + (assignments.map fun a => textMass a.field + a.expr.mass).sum ≤ more) :
    ((Stage.eval assignments).apply target draft).Bounded target.dialect unit (mass + more) := by
  have hone : ∀ a ∈ assignments, textMass a.field + a.expr.mass + 1 ≤ more := by
    intro a ha
    have := List.le_sum_of_mem (List.mem_map_of_mem
      (f := fun a : Assignment => textMass a.field + a.expr.mass) ha)
    omega
  rw [Stage.apply_eval]
  refine h.addAll _ ?_ ?_ ?_ ?_
  · have hpos : ∀ a : Assignment, 0 < textMass a.field + a.expr.mass :=
      fun a => Nat.add_pos_left (textMass_pos _) _
    have hlength := length_le_sum_map hpos assignments
    rw [Stage.computed, List.length_map]
    omega
  · intro c hc
    obtain ⟨a, ha, rfl⟩ := List.mem_map.1 hc
    have := length_le_textMass a.field
    have := hone a ha
    dsimp only
    omega
  · intro c hc
    obtain ⟨a, ha, rfl⟩ := List.mem_map.1 hc
    have hmass : unit * a.expr.mass ≤ unit * more :=
      Nat.mul_le_mul_left _ (by have := hone a ha; omega)
    have := hexprs a ha
    dsimp only
    omega
  · have hrow : SelectItem.widths target.dialect
        (((Stage.eval assignments).computed target.dialect).map ComputedColumn.item) ≤
          (assignments.map fun a => textMass a.field + a.expr.mass).sum * (2 * unit) := by
      rw [Stage.computed, List.map_map]
      refine SelectItem.widths_map_le fun a ha => ?_
      have hitem := SelectItem.width_named_le (d := target.dialect) (a.expr.toSql target.dialect)
        a.field
      have hexpr := hexprs a ha
      have hlength := length_le_textMass a.field
      have hfield := Nat.mul_le_mul_left (textMass a.field) hunit
      rw [Nat.mul_left_comm, Nat.add_mul, Nat.mul_comm a.expr.mass]
      exact hitem.trans (by omega)
    have hsquare : unit * more ≤ unit * more ^ 2 :=
      Nat.mul_le_mul_left _ (Nat.le_self_pow (by decide) more)
    have hrate : (assignments.map fun a => textMass a.field + a.expr.mass).sum * (2 * unit) ≤
        more * (2 * unit) := Nat.mul_le_mul_right _ (by omega)
    have hmore' : more * (2 * unit) = 2 * (unit * more) := by ring
    omega

/-- A bucket is paid for by its field and its name. -/
lemma addBucket (h : draft.Bounded d unit mass) (hunit : 250 ≤ unit) (field : String) (span : Span)
    {output : Option String} (hmore : 7 + textMass field + outputMass output ≤ more) :
    (draft.addBucket d field span output).Bounded d unit (mass + more) := by
  have hfield := length_le_textMass field
  have hcolumn := Column.length_ofField_le field
  have hname : (output.getD (Column.ofField field ++ "_bin")).length ≤ more + 10 := by
    cases output with
    | none =>
      have hsuffix : "_bin".length = 4 := rfl
      rw [Option.getD_none, String.length_append]
      omega
    | some name =>
      have := length_le_textMass name
      rw [outputMass, Option.elim_some] at hmore
      rw [Option.getD_some]
      omega
  have hexpr : (bucketStart d (.column (Column.ofField field)) span).width d ≤
      2 * field.length + 872 := by
    have hwidth := width_column_ofField_le (d := d) field
    cases span with
    | time amount timeUnit =>
      exact (Dialect.width_timeBucket_le _ (Span.bucketSeconds_lt (.time amount timeUnit))).trans
        (by omega)
    | numeric width => exact (Dialect.width_numericBin_le _ width).trans (by omega)
  have hrate := Nat.mul_le_mul_right more hunit
  have hsquare : unit * more ≤ unit * more ^ 2 :=
    Nat.mul_le_mul_left _ (Nat.le_self_pow (by decide) more)
  refine h.addAll [_] ?_ ?_ ?_ ?_
  · rw [List.length_singleton]
    omega
  · simpa using hname
  · rw [List.forall_mem_singleton]
    dsimp only
    omega
  · have hitem := SelectItem.width_named_le (d := d)
      (bucketStart d (.column (Column.ofField field)) span)
      (output.getD (Column.ofField field ++ "_bin"))
    rw [List.map_singleton, SelectItem.widths_cons, SelectItem.widths_nil, ComputedColumn.item]
    dsimp only
    omega

/-- The groups of a pattern are paid for by the pattern, at most once for each of its characters. -/
lemma addGroups (h : draft.Bounded target.dialect unit mass) (hunit : 250 ≤ unit)
    {field pattern : String} (hmore : 1 + fieldMass field + textMass pattern ≤ more) :
    ((Stage.rex field pattern).apply target draft).Bounded target.dialect unit (mass + more) := by
  have hfield := length_le_fieldMass field
  have hpattern := length_le_textMass pattern
  have hpos := textMass_pos pattern
  have hexpr : ∀ group, ((target.dialect.extractGroup (.column (Column.ofField field)) pattern
      group).getD .null).width target.dialect ≤ 2 * field.length + 8 * pattern.length + 42 := by
    intro group
    have hwidth := width_column_ofField_le (d := target.dialect) field
    exact (Dialect.width_extractGroup_le _ pattern group).trans (by omega)
  have hcount := Pattern.length_namedGroups_le pattern
  have hrate := Nat.mul_le_mul_right more hunit
  rw [Stage.apply_rex]
  refine h.addAll _ ?_ ?_ ?_ ?_
  · rw [Stage.computed, List.length_map]
    omega
  · intro c hc
    obtain ⟨group, hgroup, rfl⟩ := List.mem_map.1 hc
    have := Pattern.length_le_of_mem_namedGroups hgroup
    dsimp only
    omega
  · intro c hc
    obtain ⟨group, hgroup, rfl⟩ := List.mem_map.1 hc
    exact (hexpr group).trans (by omega)
  · have hrow : SelectItem.widths target.dialect
        (((Stage.rex field pattern).computed target.dialect).map ComputedColumn.item) ≤
          ((Pattern.namedGroups pattern).map fun _ => 1).sum * (unit * more) := by
      rw [Stage.computed, List.map_map]
      refine SelectItem.widths_map_le fun group hgroup => ?_
      have hname := Pattern.length_le_of_mem_namedGroups hgroup
      have hwidth := hexpr group
      rw [Function.comp_apply, ComputedColumn.item]
      exact (SelectItem.width_named_le _ _).trans (by dsimp only; omega)
    have hsum : ((Pattern.namedGroups pattern).map fun _ => 1).sum ≤ more := by
      simp
      omega
    have hsquare : more * (unit * more) = unit * more ^ 2 := by ring
    have hall := Nat.mul_le_mul_right (unit * more) hsum
    omega

/-! ### Stages -/

/-- Conditions are paid for by their mass. -/
lemma select (h : draft.Bounded d unit mass) (hunit : 250 ≤ unit) (conditions : List Condition) :
    (draft.select d conditions).Bounded d unit (mass + Condition.massOf conditions) :=
  { h.mono (Condition.massOf conditions) with
    filter := by
      have hfilter := h.filter
      have hfragment := Condition.widths_fragment_le (d := d) conditions
      have hrate := Nat.mul_le_mul_right (Condition.massOf conditions) hunit
      rw [Draft.select, Expr.widths_append, Nat.mul_add]
      omega }

/-- A stage keeps a draft bounded, if its expressions are. -/
theorem apply (h : draft.Bounded target.dialect unit mass) (hunit : 250 ≤ unit)
    (htable : target.table.length ≤ 20) (stage : Stage)
    (hexprs : ∀ e ∈ stage.exprs,
      (e.toSql target.dialect).width target.dialect + 20 ≤ 2 * (unit * e.mass)) :
    (stage.apply target draft).Bounded target.dialect unit (mass + stage.mass) := by
  cases stage with
  | filter command conditions =>
    rw [Stage.mass]
    exact h.select hunit conditions
  | stats aggregations groupBy =>
    rw [Stage.mass]
    exact h.group hunit htable (by omega)
  | sort keys =>
    rw [Stage.mass]
    exact
      { h.mono _ with
        orderBy := (h.widths_keys_le keys).trans (mul_nameRate_le _ (Nat.le_add_left _ _)) }
  | limit command count =>
    rw [Stage.mass]
    exact
      { h.mono _ with
        limit := by
          intro n hn
          cases hn
          rw [rowsMass]
          omega }
  | dedup names =>
    rw [Stage.mass]
    have hkeep := h.keep hunit names (Nat.le_add_left _ 1)
    exact { hkeep with }
  | table names =>
    rw [Stage.mass]
    exact h.keep hunit names (Nat.le_add_left _ _)
  | fields names keep =>
    rw [Stage.mass]
    cases keep with
    | true => exact h.keep hunit names (Nat.le_add_left _ _)
    | false => exact h.leaveOut names _
  | rename renamings =>
    rw [Stage.mass]
    exact h.rename hunit (Nat.le_refl _)
  | eval assignments =>
    rw [Stage.mass]
    refine h.eval hunit (fun a ha => hexprs a.expr ?_) (Nat.le_refl _)
    exact List.mem_map_of_mem ha
  | frequent which names most =>
    rw [Stage.mass]
    exact h.countCombinations hunit which.order (Nat.le_refl _)
  | bin field span output =>
    rw [Stage.mass]
    exact h.addBucket hunit field span (Nat.le_refl _)
  | timechart span aggregations splitBy =>
    rw [Stage.mass]
    exact h.chart hunit htable span (Nat.le_refl _)
  | rex field pattern =>
    rw [Stage.mass]
    exact h.addGroups hunit (Nat.le_refl _)

end Draft.Bounded

end LogQuery
