import LogQuery.Proofs.Compile.Outputs

namespace LogQuery

variable {target : Target} {draft : Draft} {stage : Stage}

/-! ### Stages that project -/

namespace Stage

/-- The fields that a stage puts in the place of the select list, if it keeps fields. -/
def projected? : Stage → Option (List String)
  | .table names => some names
  | .fields names true => some names
  | _ => none

/-- A projection keeps the fields that it names. -/
lemma apply_of_projected {names : List String} (h : stage.projected? = some names) :
    stage.apply target draft = draft.keep names := by
  cases stage with
  | table fields =>
    cases h
    rfl
  | fields fields keep =>
    cases keep with
    | true =>
      cases h
      rfl
    | false => cases h
  | _ => cases h

/-! ### Stages that compute columns -/

/-- Aggregations compute no columns. -/
lemma computed_of_isAggregation {d : Dialect} (h : stage.isAggregation = true) :
    stage.computed d = [] := by
  cases stage with
  | stats | frequent | timechart => rfl
  | _ => cases h

lemma eq_nil_of_items_addAll {cs : List ComputedColumn}
    (h : (draft.addAll cs).items = draft.items) : cs = [] :=
  List.map_eq_nil_iff.1 (List.append_right_eq_self.1 h)

/-- A stage that computes columns adds items. -/
lemma computed_of_items_apply (h : (stage.apply target draft).items = draft.items) :
    stage.computed target.dialect = [] := by
  cases stage with
  | eval assignments =>
    rw [apply_eval] at h
    exact eq_nil_of_items_addAll h
  | rex field pattern =>
    rw [apply_rex] at h
    exact eq_nil_of_items_addAll h
  | bin field span output => exact eq_nil_of_items_addAll h
  | _ => rfl

end Stage

/-- The computed column to which a field refers: the last one of its name or computed from its
column. -/
def ComputedColumn.lookup? (computed : List ComputedColumn) (field : String) :
    Option ComputedColumn :=
  computed.reverse.find? fun c => c.name == field || c.source == some (Column.ofField field)

namespace Draft

/-- A field is selected with an expression under its own name just if it is the name of the
computed column to which it refers, and that is the expression. -/
lemma item_eq_iff {field : String} {item : SelectItem} (h : item.output = some field) :
    draft.item field = item ↔ ∃ c, ComputedColumn.lookup? draft.computed field = some c ∧
      c.name = field ∧ c.expr = item.expr := by
  obtain ⟨expr, output⟩ := item
  cases h
  change draft.item field = _ ↔ ∃ c, draft.computedFor? field = some c ∧ _
  rw [Draft.item]
  cases draft.computedFor? field with
  | none => simp [tableItem]
  | some c => simp [and_comm]

end Draft

/-! ### Pipelines -/

namespace Pipeline

variable {filter : List Sql.Expr}

/-- The columns that the stages compute, in their order. -/
lemma computed_draft (stages : List Stage) :
    (Pipeline.draft ⟨stages⟩ target filter).computed =
      stages.flatMap (Stage.computed target.dialect) := by
  induction stages using List.reverseRecOn with
  | nil => rfl
  | append_singleton front stage ih =>
    rw [draft_snoc, Stage.computed_apply, ih, List.flatMap_append, List.flatMap_singleton]

/-- Stages that leave the select list as they find it compute nothing. -/
lemma flatMap_computed_of_items {front stages : List Stage}
    (h : ∀ part, part <+: stages → (Pipeline.draft ⟨front ++ part⟩ target filter).items =
      (Pipeline.draft ⟨front⟩ target filter).items) :
    stages.flatMap (Stage.computed target.dialect) = [] := by
  induction stages using List.reverseRecOn with
  | nil => rfl
  | append_singleton stages stage ih =>
    have hstages := ih fun part hpart => h part (hpart.trans (List.prefix_append _ _))
    have hitems : (stage.apply target (Pipeline.draft ⟨front ++ stages⟩ target filter)).items =
        (Pipeline.draft ⟨front ++ stages⟩ target filter).items := by
      rw [← draft_snoc, List.append_assoc, h _ List.prefix_rfl, h _ (List.prefix_append _ _)]
    rw [List.flatMap_append, hstages, List.flatMap_singleton, Stage.computed_of_items_apply hitems]
    rfl

/-- Behind an aggregation, and stages that leave its select list as it is, a projection selects an
item of the list again under its name, just if the stages in front of the aggregation compute a
column of that name with the same expression, and the name leads to it. So `stats count by host |
table host, count` selects columns `hostname` and `count` of the table. -/
theorem projected_item_iff {front between : List Stage} {aggregation projection : Stage}
    {names : List String} {item : SelectItem} {name : String} {i : Nat}
    (haggregation : aggregation.isAggregation = true)
    (hbetween : ∀ part, part <+: between →
      (Pipeline.draft ⟨front ++ aggregation :: part⟩ target filter).items =
        (Pipeline.draft ⟨front ++ [aggregation]⟩ target filter).items)
    (hprojection : projection.projected? = some names) (hitem : item.output = some name)
    (hname : names[i]? = some name) :
    (Pipeline.draft ⟨front ++ aggregation :: between ++ [projection]⟩ target filter).items[i]? =
        some item ↔
      ∃ c, ComputedColumn.lookup? (front.flatMap (Stage.computed target.dialect)) name = some c ∧
        c.name = name ∧ c.expr = item.expr := by
  have hitems : ∀ part, part <+: between →
      (Pipeline.draft ⟨front ++ [aggregation] ++ part⟩ target filter).items =
        (Pipeline.draft ⟨front ++ [aggregation]⟩ target filter).items := by
    intro part hpart
    rw [List.append_assoc, List.singleton_append]
    exact hbetween part hpart
  have hquiet : between.flatMap (Stage.computed target.dialect) = [] :=
    flatMap_computed_of_items hitems
  have hcomputed : (Pipeline.draft ⟨front ++ aggregation :: between⟩ target filter).computed =
      front.flatMap (Stage.computed target.dialect) := by
    rw [computed_draft, List.flatMap_append, List.flatMap_cons,
      Stage.computed_of_isAggregation haggregation, hquiet, List.nil_append, List.append_nil]
  rw [draft_snoc, Stage.apply_of_projected hprojection, ← hcomputed, ← Draft.item_eq_iff hitem]
  simp only [Draft.keep, List.getElem?_map, hname, Option.map_some, Option.some.injEq]

/-- Behind `eval x = a | stats count by x | sort x`, a table of `x` and `count` selects the group
again, and not the number of rows. -/
theorem projected_item_iff_group_count :
    let front : List Stage := [.eval [⟨"x", .field "a"⟩]]
    let aggregation : Stage := .stats [⟨.count, none, none⟩] ["x"]
    let items := (Pipeline.draft ⟨front ++ aggregation :: [.sort [⟨"x", .ascending⟩]] ++
      [.table ["x", "count"]]⟩ (.standard .sqlite) []).items
    items[0]? = some ⟨.column "a", some "x"⟩ ∧
      items[1]? ≠ some ⟨.call "COUNT" [.star], some "count"⟩ := by
  intro front aggregation items
  have hbetween : ∀ part, part <+: [Stage.sort [⟨"x", .ascending⟩]] →
      (Pipeline.draft ⟨front ++ aggregation :: part⟩ (.standard .sqlite) []).items =
        (Pipeline.draft ⟨front ++ [aggregation]⟩ (.standard .sqlite) []).items := by
    intro part hpart
    rcases List.prefix_cons_iff.1 hpart with rfl | ⟨part', rfl, hnil⟩
    · rfl
    · rw [List.prefix_nil.1 hnil]
      rfl
  constructor
  · refine (projected_item_iff rfl hbetween rfl rfl rfl).2 ?_
    exact ⟨⟨"x", none, .column "a"⟩, rfl, rfl, rfl⟩
  · intro h
    obtain ⟨c, hc, -⟩ := (projected_item_iff rfl hbetween rfl rfl rfl).1 h
    have hnone : ComputedColumn.lookup? (front.flatMap (Stage.computed .sqlite)) "count" = none :=
      by decide
    cases hnone.symm.trans hc

end Pipeline

end LogQuery
