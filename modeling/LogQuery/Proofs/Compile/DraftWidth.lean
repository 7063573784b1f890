import LogQuery.Proofs.Compile.Clauses
import LogQuery.Proofs.Compile.ConditionWidth
import LogQuery.Proofs.Sql.AggregateWidth
import Mathlib.Tactic.Ring

/-!
# How wide drafts are

The stages of a pipeline copy what the stages before them computed: every field that is listed has
the expression of its computed column, and every aggregation has it up to five times, and the filter
twice. So the items of a draft may be as wide as the square of the mass of its stages, but not wider
(`Draft.Bounded`). The *unit* is half of what an expression costs for each of its characters.
-/

namespace LogQuery

open Sql

variable {d : Dialect}

/-! ### Items and keys -/

/-- The number of characters of an item, with a sign behind it. -/
def SelectItem.width (d : Dialect) (item : SelectItem) : Nat := (item.render d).toList.length + 2

def SelectItem.widths (d : Dialect) (items : List SelectItem) : Nat := (items.map (width d)).sum

/-- The number of characters of a reference, with a sign behind it. -/
def ColumnRef.width (d : Dialect) (r : ColumnRef) : Nat := (r.render d).toList.length + 2

/-- The number of characters of a key, with a sign behind it. -/
def OrderKey.width (d : Dialect) (k : OrderKey) : Nat := (k.render d).toList.length + 2

namespace SelectItem

@[simp] lemma widths_nil : widths d [] = 0 := rfl

@[simp] lemma widths_cons (item : SelectItem) (items : List SelectItem) :
    widths d (item :: items) = item.width d + widths d items := List.sum_cons

@[simp] lemma widths_append (items items' : List SelectItem) :
    widths d (items ++ items') = widths d items + widths d items' := by
  rw [widths, List.map_append, List.sum_append]
  rfl

/-- Items that are each paid for are paid for together. -/
lemma widths_map_le {α : Type} {as : List α} {f : α → SelectItem} {mass : α → Nat} {rate : Nat}
    (h : ∀ a ∈ as, (f a).width d ≤ mass a * rate) :
    widths d (as.map f) ≤ (as.map mass).sum * rate := by
  rw [widths, List.map_map, ← List.sum_map_mul_right]
  exact List.sum_le_sum h

lemma width_unnamed (e : Sql.Expr) : (⟨e, none⟩ : SelectItem).width d = e.width d + 2 := by
  simp [width, render, Expr.width]

lemma width_named_le (e : Sql.Expr) (name : String) :
    (⟨e, some name⟩ : SelectItem).width d ≤ e.width d + 2 * name.length + 8 := by
  have hname := length_identifier_le d name
  simp [width, render, Expr.width] at hname ⊢
  omega

lemma expr_width_le (item : SelectItem) : item.expr.width d + 2 ≤ item.width d := by
  rw [width, render, String.toList_append, List.length_append, Expr.width]
  omega

/-- The item with the name of a renaming, if that names it. -/
def renamed (item : SelectItem) (r : Renaming) : SelectItem :=
  if Draft.isNamed r.source item then { item with output := some r.target } else item

/-- Renamings act on each item of its own. -/
lemma foldl_renameItems (rs : List Renaming) (items : List SelectItem) :
    rs.foldl Draft.renameItems items = items.map fun item => rs.foldl renamed item := by
  induction rs generalizing items with
  | nil => exact (List.map_id _).symm
  | cons r rs ih =>
    rw [List.foldl_cons, ih, Draft.renameItems, List.map_map]
    rfl

/-- Of all names that an item is given, it keeps one. -/
lemma width_foldl_renamed_le {most : Nat} (rs : List Renaming)
    (h : ∀ r ∈ rs, r.target.length ≤ most) (item : SelectItem) :
    (rs.foldl renamed item).width d ≤ item.width d + (2 * most + 6) := by
  have hrun : ∀ item' : SelectItem, item'.expr = item.expr →
      item'.width d ≤ item.width d + (2 * most + 6) →
        (rs.foldl renamed item').width d ≤ item.width d + (2 * most + 6) := by
    induction rs with
    | nil => exact fun _ _ hwidth => hwidth
    | cons r rs ih =>
      intro item' hexpr hwidth
      have htarget := h r (by simp)
      refine ih (fun r' hr' => h r' (by simp [hr'])) (item'.renamed r) ?_ ?_
      · rw [renamed]
        split_ifs <;> exact hexpr
      · rw [renamed]
        split_ifs
        · have hnamed := width_named_le (d := d) item'.expr r.target
          have hitem := item.expr_width_le (d := d)
          rw [← hexpr] at hitem
          exact hnamed.trans (by omega)
        · exact hwidth
  exact hrun item rfl (Nat.le_add_right _ _)

/-- Renaming adds no more than the new names to the items. -/
lemma widths_foldl_renameItems_le {most : Nat} {rs : List Renaming}
    (h : ∀ r ∈ rs, r.target.length ≤ most) (items : List SelectItem) :
    widths d (rs.foldl Draft.renameItems items) ≤
      widths d items + items.length * (2 * most + 6) := by
  rw [foldl_renameItems]
  induction items with
  | nil => simp
  | cons item items ih =>
    have hitem := width_foldl_renamed_le (d := d) rs h item
    rw [List.map_cons, widths_cons, widths_cons, List.length_cons, Nat.succ_mul]
    omega

end SelectItem

lemma ColumnRef.width_le (r : ColumnRef) : r.width d ≤ 2 * r.name.length + 4 := by
  have hname := length_identifier_le d r.name
  rw [width, render]
  omega

lemma OrderKey.width_le (k : OrderKey) : k.width d ≤ 2 * k.column.name.length + 9 := by
  have hcolumn := k.column.width_le (d := d)
  have horder : k.order.display.toList.length ≤ 4 := by cases k.order <;> decide
  rw [ColumnRef.width] at hcolumn
  simp [width, render] at horder hcolumn ⊢
  omega

/-! ### Drafts -/

namespace Draft

/-- How wide the parts of a draft may be behind stages of some mass. The square comes from items and
keys, each of which may have a column or a name in it that is as wide as the stages are heavy. -/
structure Bounded (d : Dialect) (unit mass : Nat) (draft : Draft) : Prop where
  name : ∀ c ∈ draft.computed, c.name.length ≤ mass + 10
  column : ∀ c ∈ draft.computed, c.expr.width d ≤ 2 * (unit * mass)
  filter : Expr.widths d 5 draft.filter ≤ 5 * (unit * mass)
  count : draft.items.length ≤ mass + 5
  items : SelectItem.widths d draft.items ≤ 3 * (unit * mass ^ 2) + 150
  groupBy : (draft.groupBy.map (ColumnRef.width d)).sum ≤ 40 * mass ^ 2
  orderBy : (draft.orderBy.map (OrderKey.width d)).sum ≤ 40 * mass ^ 2
  limit : ∀ n ∈ draft.limit, (toString n).length ≤ mass + 20

variable {draft : Draft} {unit mass more : Nat}

namespace Bounded

/-- A bound holds for more mass as well. -/
lemma mono (h : draft.Bounded d unit mass) (more : Nat) : draft.Bounded d unit (mass + more) := by
  have hunit : unit * mass ≤ unit * (mass + more) := Nat.mul_le_mul_left _ (Nat.le_add_right _ _)
  have hsquare : mass ^ 2 ≤ (mass + more) ^ 2 := Nat.pow_le_pow_left (Nat.le_add_right _ _) 2
  have hitems : unit * mass ^ 2 ≤ unit * (mass + more) ^ 2 := Nat.mul_le_mul_left _ hsquare
  exact
    { name := fun c hc => (h.name c hc).trans (by omega)
      column := fun c hc => (h.column c hc).trans (by omega)
      filter := h.filter.trans (by omega)
      count := h.count.trans (by omega)
      items := h.items.trans (by omega)
      groupBy := h.groupBy.trans (by omega)
      orderBy := h.orderBy.trans (by omega)
      limit := fun n hn => (h.limit n hn).trans (by omega) }

/-! ### What a draft says about a field -/

/-- What one character of a stage costs that copies columns. -/
def copyRate (unit mass : Nat) : Nat := unit * (5 * mass + 1)

lemma copyRate_eq (unit mass : Nat) : copyRate unit mass = 5 * (unit * mass) + unit := by
  rw [copyRate]
  ring

lemma mem_of_computedFor {field : String} {c : ComputedColumn}
    (h : draft.computedFor? field = some c) : c ∈ draft.computed := by
  simpa using List.mem_of_find?_eq_some h

/-- The value of a field is the expression of a computed column, or the column. -/
lemma width_value_le (h : draft.Bounded d unit mass) (field : String) :
    (draft.value field).width d ≤ 2 * (unit * mass) + 2 * field.length + 22 := by
  rw [Draft.value]
  cases hc : draft.computedFor? field with
  | none => exact (width_column_ofField_le field).trans (by omega)
  | some c => exact (h.column c (mem_of_computedFor hc)).trans (by omega)

/-- A reference names a computed column, or the column of the field. -/
lemma length_name_reference_le (h : draft.Bounded d unit mass) (field : String) :
    (draft.reference field).name.length ≤ mass + 9 + textMass field := by
  have hfield := length_le_textMass field
  have hpos := textMass_pos field
  rw [Draft.reference]
  cases hc : draft.computedFor? field with
  | none => exact (Column.length_ofField_le field).trans (by omega)
  | some c => exact (h.name c (mem_of_computedFor hc)).trans (by omega)

/-- An item copies the expression of a computed column, at the rate of copies. -/
lemma width_item_le (h : draft.Bounded d unit mass) (hunit : 250 ≤ unit) (field : String) :
    (draft.item field).width d ≤ textMass field * copyRate unit mass := by
  have hfield := length_le_textMass field
  have hpos := textMass_pos field
  have hrate := copyRate_eq unit mass
  have hmass := Nat.mul_le_mul_right mass hunit
  rw [Draft.item]
  cases hc : draft.computedFor? field with
  | none =>
    have hcolumn := width_column_ofField_le (d := d) field
    have hall : textMass field * 250 ≤ textMass field * copyRate unit mass :=
      Nat.mul_le_mul_left _ (by omega)
    refine (SelectItem.width_unnamed _).le.trans ?_
    omega
  | some c =>
    have hname := h.name c (mem_of_computedFor hc)
    have hcolumn := h.column c (mem_of_computedFor hc)
    have hall := Nat.le_mul_of_pos_left (copyRate unit mass) hpos
    refine (SelectItem.width_named_le _ _).trans ?_
    omega

lemma length_nameStem_le (field : String) : (Aggregation.nameStem field).length ≤ field.length := by
  rw [Aggregation.nameStem, String.length_ofList]
  refine (List.dropWhile_suffix _).length_le.trans ?_
  rw [List.length_map, String.length_toList]

/-- The name of a result is paid for by the aggregation. -/
lemma length_outputName_le (a : Aggregation) : a.outputName.length ≤ a.mass + 8 := by
  obtain ⟨function, field, output⟩ := a
  rw [Aggregation.outputName, Aggregation.mass]
  rcases output with _ | name
  · rcases field with _ | field
    · simp [outputMass]
      omega
    · have := length_nameStem_le field
      have := length_le_textMass field
      have hscore : "_".length = 1 := rfl
      simp [outputMass]
      omega
  · have := length_le_textMass name
    simp [outputMass]
    omega

/-- The field of an aggregation stands in parentheses, so that four characters pay for the
copies. -/
lemma width_aggregationItem_le {target : Target} (h : draft.Bounded target.dialect unit mass)
    (hunit : 250 ≤ unit) (htable : target.table.length ≤ 20) (a : Aggregation) :
    (draft.aggregationItem target a).width target.dialect ≤ a.mass * copyRate unit mass := by
  have hname := length_outputName_le a
  have hrate := copyRate_eq unit mass
  rw [Draft.aggregationItem]
  refine (SelectItem.width_named_le _ _).trans ?_
  cases hfield : a.field with
  | none =>
    have hcount := target.dialect.width_countAll_le
    have hmass : 1 ≤ a.mass := by
      rw [Aggregation.mass, hfield, Option.elim_none]
      omega
    have hall : a.mass * 250 ≤ a.mass * copyRate unit mass := Nat.mul_le_mul_left _ (by omega)
    dsimp only
    omega
  | some field =>
    have haggregate := Dialect.width_aggregate_le (d := target.dialect) a.function
      (draft.value field) (draft.rows target)
    have hvalue := h.width_value_le field
    have hfilter : Expr.widths target.dialect 5 (draft.rows target).filter ≤ 5 * (unit * mass) :=
      h.filter
    have hrows : (draft.rows target).table.length ≤ 20 := htable
    have hlength := length_le_textMass field
    have hpos := textMass_pos field
    have hmass : textMass field + 3 ≤ a.mass := by
      rw [Aggregation.mass, hfield, Option.elim_some]
      omega
    have hcopies : 4 * (unit * mass) ≤ a.mass * (unit * mass) := Nat.mul_le_mul_right _ (by omega)
    have hunits : a.mass * 250 ≤ a.mass * unit := Nat.mul_le_mul_left _ hunit
    have hsplit : a.mass * copyRate unit mass = 5 * (a.mass * (unit * mass)) + a.mass * unit := by
      rw [hrate]
      ring
    dsimp only
    rw [hsplit]
    omega

/-! ### What a stage lists -/

lemma widths_items_le (h : draft.Bounded d unit mass) (hunit : 250 ≤ unit) (fields : List String) :
    SelectItem.widths d (fields.map draft.item) ≤
      (fields.map textMass).sum * copyRate unit mass :=
  SelectItem.widths_map_le fun field _ => h.width_item_le hunit field

/-- Each aggregation copies the expression of its column up to five times. -/
lemma widths_aggregationItems_le {target : Target} (h : draft.Bounded target.dialect unit mass)
    (hunit : 250 ≤ unit) (htable : target.table.length ≤ 20) (as : List Aggregation) :
    SelectItem.widths target.dialect (as.map (draft.aggregationItem target)) ≤
      (as.map Aggregation.mass).sum * copyRate unit mass :=
  SelectItem.widths_map_le fun a _ => h.width_aggregationItem_le hunit htable a

/-- What one character of a stage costs that names columns. -/
def nameRate (mass : Nat) : Nat := 2 * mass + 29

lemma reference_le_mul_nameRate (h : draft.Bounded d unit mass) (field : String) :
    2 * (draft.reference field).name.length + 9 ≤ textMass field * nameRate mass := by
  have hname := h.length_name_reference_le field
  have hpos := textMass_pos field
  have hmass : 1 * mass ≤ textMass field * mass := Nat.mul_le_mul_right _ hpos
  calc 2 * (draft.reference field).name.length + 9
      ≤ 2 * (textMass field * mass) + 29 * textMass field := by omega
    _ = textMass field * nameRate mass := by rw [nameRate]; ring

lemma widths_references_le (h : draft.Bounded d unit mass) (fields : List String) :
    ((fields.map draft.reference).map (ColumnRef.width d)).sum ≤
      (fields.map textMass).sum * nameRate mass := by
  rw [List.map_map, ← List.sum_map_mul_right]
  refine List.sum_le_sum fun field _ => ?_
  have hwidth := (draft.reference field).width_le (d := d)
  have hname := h.reference_le_mul_nameRate field
  rw [Function.comp_apply]
  omega

lemma widths_keys_le (h : draft.Bounded d unit mass) (keys : List SortKey) :
    ((keys.map fun k => (⟨draft.reference k.field, k.order⟩ : OrderKey)).map (OrderKey.width d)).sum
      ≤ (keys.map (textMass ·.field)).sum * nameRate mass := by
  rw [List.map_map, ← List.sum_map_mul_right]
  refine List.sum_le_sum fun k _ => ?_
  exact (OrderKey.width_le ⟨draft.reference k.field, k.order⟩).trans (h.reference_le_mul_nameRate _)

/-! ### Squares -/

/-- Copies of what the stages before have computed are paid for by the growth of the square of the
mass. -/
lemma mul_copyRate_le (unit mass : Nat) {cost : Nat} (hcost : cost ≤ more) :
    cost * copyRate unit mass ≤ 3 * (unit * (mass + more) ^ 2) := by
  have hmore : more ≤ more ^ 2 := Nat.le_self_pow (by decide) more
  calc cost * copyRate unit mass
      ≤ more * copyRate unit mass := Nat.mul_le_mul_right _ hcost
    _ = unit * (5 * (mass * more) + more) := by rw [copyRate]; ring
    _ ≤ unit * (3 * mass ^ 2 + 6 * (mass * more) + 3 * more ^ 2) :=
        Nat.mul_le_mul_left _ (by omega)
    _ = 3 * (unit * (mass + more) ^ 2) := by ring

/-- References to what the stages before have computed are paid for by the growth of the square of
the mass. -/
lemma mul_nameRate_le (mass : Nat) {cost : Nat} (hcost : cost ≤ more) :
    cost * nameRate mass ≤ 40 * (mass + more) ^ 2 := by
  have hmore : more ≤ more ^ 2 := Nat.le_self_pow (by decide) more
  calc cost * nameRate mass
      ≤ more * nameRate mass := Nat.mul_le_mul_right _ hcost
    _ = 2 * (mass * more) + 29 * more := by rw [nameRate]; ring
    _ ≤ 40 * mass ^ 2 + 80 * (mass * more) + 40 * more ^ 2 := by omega
    _ = 40 * (mass + more) ^ 2 := by ring

/-- Items that are added are paid for by their stage alone, and names by all stages. -/
lemma square_add (unit mass more : Nat) :
    3 * (unit * (mass + more) ^ 2) =
      3 * (unit * mass ^ 2) + 6 * (unit * (mass * more)) + 3 * (unit * more ^ 2) := by
  ring

end Bounded

end Draft

end LogQuery
