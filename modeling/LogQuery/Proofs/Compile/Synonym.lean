import LogQuery.CommandLine.Libraries
import LogQuery.Compile.Pipeline
import LogQuery.Proofs.Syntax.Part
import Mathlib.Data.List.Forall2
import Mathlib.Data.Option.Basic

namespace LogQuery

/-- Two names of fields stand for the same column. -/
def Column.Synonyms (field field' : String) : Prop := ofField field = ofField field'

instance (field field' : String) : Decidable (Column.Synonyms field field') :=
  inferInstanceAs (Decidable (Column.ofField field = Column.ofField field'))

/-- The conditions differ only in the names of fields, which stand for the same columns. -/
inductive Condition.Synonymous : Condition → Condition → Prop where
  | compare {field field' : String} {comparison : Comparison} {value : Value} {negated : Bool}
      (h : Column.Synonyms field field') :
      Synonymous (.compare field comparison value negated)
        (.compare field' comparison value negated)
  | group {logic : Connective} {members members' : List Condition} {negated : Bool}
      (h : List.Forall₂ Synonymous members members') :
      Synonymous (.group logic members negated) (.group logic members' negated)

/-- The aggregations summarise the same column, if any, and name the result. -/
structure Aggregation.Synonymous (a a' : Aggregation) : Prop where
  function : a.function = a'.function
  field : Option.Rel Column.Synonyms a.field a'.field
  output : a.output = a'.output
  named : a.field.isSome → a.output.isSome

/-- The keys sort by the same column in the same direction. -/
structure SortKey.Synonymous (k k' : SortKey) : Prop where
  field : Column.Synonyms k.field k'.field
  order : k.order = k'.order

/-- The stages compute no column, and differ only in the names of fields, which stand for the same
columns. -/
inductive Stage.Synonymous : Stage → Stage → Prop where
  | filter {command : FilterCommand} {conditions conditions' : List Condition}
      (h : List.Forall₂ Condition.Synonymous conditions conditions') :
      Synonymous (.filter command conditions) (.filter command conditions')
  | stats {aggregations aggregations' : List Aggregation} {groupBy groupBy' : List String}
      (h : List.Forall₂ Aggregation.Synonymous aggregations aggregations')
      (hgroup : List.Forall₂ Column.Synonyms groupBy groupBy') :
      Synonymous (.stats aggregations groupBy) (.stats aggregations' groupBy')
  | sort {keys keys' : List SortKey} (h : List.Forall₂ SortKey.Synonymous keys keys') :
      Synonymous (.sort keys) (.sort keys')
  | limit {command : LimitCommand} {count : Nat} :
      Synonymous (.limit command count) (.limit command count)
  | dedup {fields fields' : List String} (h : List.Forall₂ Column.Synonyms fields fields') :
      Synonymous (.dedup fields) (.dedup fields')
  | table {fields fields' : List String} (h : List.Forall₂ Column.Synonyms fields fields') :
      Synonymous (.table fields) (.table fields')
  | fields {fields fields' : List String} {keep : Bool}
      (h : List.Forall₂ Column.Synonyms fields fields') :
      Synonymous (.fields fields keep) (.fields fields' keep)
  | frequent {which : Frequency} {fields fields' : List String} {limit : Nat}
      (h : List.Forall₂ Column.Synonyms fields fields') :
      Synonymous (.frequent which fields limit) (.frequent which fields' limit)
  | timechart {span : Span} {aggregations aggregations' : List Aggregation}
      {splitBy splitBy' : Option String}
      (h : List.Forall₂ Aggregation.Synonymous aggregations aggregations')
      (hsplit : Option.Rel Column.Synonyms splitBy splitBy') :
      Synonymous (.timechart span aggregations splitBy) (.timechart span aggregations' splitBy')

/-- The pipelines compute no column, and differ only in the names of fields, which stand for the
same columns. -/
def Pipeline.Synonymous (p p' : Pipeline) : Prop :=
  List.Forall₂ Stage.Synonymous p.stages p'.stages

/-- Lists related member by member have one image under a function that does not tell members apart.
-/
lemma map_eq_map_of_forall₂ {α β : Type} {R : α → α → Prop} {f : α → β} {l l' : List α}
    (h : List.Forall₂ R l l') (hf : ∀ a a', R a a' → f a = f a') : l.map f = l'.map f := by
  have hmap : List.Forall₂ (· = ·) (l.map f) (l'.map f) := List.rel_map hf h
  rwa [List.forall₂_eq_eq_eq] at hmap

/-! ### Conditions -/

namespace Condition

lemma allToSql_congr {d : Dialect} {cs cs' : List Condition} (h : List.Forall₂ Synonymous cs cs')
    (hcs : ∀ c ∈ cs, ∀ c', c.Synonymous c' → c.toSql d = c'.toSql d) :
    allToSql d cs = allToSql d cs' := by
  induction h with
  | nil => rfl
  | @cons c c' cs cs' hc _ ih =>
    rw [allToSql, allToSql, hcs c List.mem_cons_self c' hc,
      ih fun m hm => hcs m (List.mem_cons_of_mem c hm)]

/-- Synonymous conditions become one expression: the aliases end in one column. -/
lemma Synonymous.toSql_eq (d : Dialect) {c c' : Condition} (h : c.Synonymous c') :
    c.toSql d = c'.toSql d := by
  induction c using Condition.induction generalizing c' with
  | compare field comparison value negated =>
    cases h with
    | compare h =>
      rw [Column.Synonyms] at h
      rw [Condition.toSql, Condition.toSql, h]
  | group logic members negated ih =>
    cases h with
    | group h => rw [Condition.toSql, Condition.toSql, allToSql_congr h ih]

lemma fragment?_congr (d : Dialect) {cs cs' : List Condition}
    (h : List.Forall₂ Synonymous cs cs') : fragment? d cs = fragment? d cs' := by
  rw [fragment?, fragment?, allToSql_congr h fun _ _ _ hc => hc.toSql_eq d]

end Condition

/-! ### Drafts without computed columns -/

namespace Draft

variable {draft : Draft} {target : Target} (hdraft : draft.computed = [])
include hdraft

lemma computedFor?_eq_none (field : String) : draft.computedFor? field = none := by
  rw [computedFor?, hdraft]
  rfl

/-- As long as nothing is computed, a name refers to its column of the table. -/
lemma reference_eq_table (field : String) :
    draft.reference field = .table (Column.ofField field) := by
  rw [reference, computedFor?_eq_none hdraft]

lemma item_eq_tableItem (field : String) :
    draft.item field = tableItem (Column.ofField field) := by
  rw [item, computedFor?_eq_none hdraft]

lemma value_eq_column (field : String) : draft.value field = .column (Column.ofField field) := by
  rw [value, computedFor?_eq_none hdraft]

variable {fields fields' : List String} (h : List.Forall₂ Column.Synonyms fields fields')

section
include h

lemma items_congr : fields.map draft.item = fields'.map draft.item := by
  refine map_eq_map_of_forall₂ h fun field field' hfield => ?_
  rw [item_eq_tableItem hdraft, item_eq_tableItem hdraft, hfield]

lemma references_congr : fields.map draft.reference = fields'.map draft.reference := by
  refine map_eq_map_of_forall₂ h fun field field' hfield => ?_
  rw [reference_eq_table hdraft, reference_eq_table hdraft, hfield]

end

lemma aggregationItem_congr (target : Target) {a a' : Aggregation} (ha : a.Synonymous a') :
    draft.aggregationItem target a = draft.aggregationItem target a' := by
  obtain ⟨function, field, output⟩ := a
  obtain ⟨function', field', output'⟩ := a'
  obtain ⟨hfunction, hfield, houtput, hnamed⟩ := ha
  dsimp only at hfunction hfield houtput hnamed
  subst hfunction houtput
  cases hfield with
  | none => rfl
  | @some field field' hfield =>
    -- Without a name of its own, the result would be named after the field.
    obtain ⟨name, rfl⟩ := Option.isSome_iff_exists.1 (hnamed rfl)
    have hcolumn : Column.ofField field = Column.ofField field' := hfield
    simp only [aggregationItem, value_eq_column hdraft, hcolumn, Aggregation.outputName]

lemma aggregationItems_congr {aggregations aggregations' : List Aggregation} (target : Target)
    (ha : List.Forall₂ Aggregation.Synonymous aggregations aggregations') :
    aggregations.map (draft.aggregationItem target) =
      aggregations'.map (draft.aggregationItem target) :=
  map_eq_map_of_forall₂ ha fun _ _ => aggregationItem_congr hdraft target

end Draft

/-! ### Stages and pipelines -/

lemma forall₂_toList {α : Type} {R : α → α → Prop} {o o' : Option α} (h : Option.Rel R o o') :
    List.Forall₂ R o.toList o'.toList := by
  cases h with
  | none => exact .nil
  | some h => exact .cons h .nil

/-- Such a stage computes no column. -/
lemma Stage.Synonymous.computed_apply {s s' : Stage} (h : s.Synonymous s') (target : Target)
    (draft : Draft) : (s.apply target draft).computed = draft.computed := by
  cases h with
  | @fields _ _ keep => cases keep <;> rfl
  | _ => rfl

/-- Synonymous stages do the same to a draft without computed columns. -/
lemma Stage.Synonymous.apply_eq {s s' : Stage} (h : s.Synonymous s') (target : Target)
    {draft : Draft} (hdraft : draft.computed = []) :
    s.apply target draft = s'.apply target draft := by
  cases h with
  | filter h => simp only [apply, Draft.select, Condition.fragment?_congr _ h]
  | stats h hgroup =>
    simp only [apply, Draft.group, Draft.aggregationItems_congr hdraft target h,
      Draft.items_congr hdraft hgroup, Draft.references_congr hdraft hgroup]
  | sort h =>
    have hkey : ∀ k k' : SortKey, k.Synonymous k' →
        OrderKey.mk (draft.reference k.field) k.order = ⟨draft.reference k'.field, k'.order⟩ := by
      intro k k' hk
      rw [Draft.reference_eq_table hdraft, Draft.reference_eq_table hdraft, hk.field, hk.order]
    simp only [apply, map_eq_map_of_forall₂ h hkey]
  | limit => rfl
  | dedup h => simp only [apply, Draft.keep, Draft.items_congr hdraft h]
  | table h => simp only [apply, Draft.keep, Draft.items_congr hdraft h]
  | @fields fields fields' keep h =>
    have hcolumns : fields.map Column.ofField = fields'.map Column.ofField :=
      map_eq_map_of_forall₂ h fun _ _ => id
    simp only [apply, Draft.keep, Draft.leaveOut, Draft.items_congr hdraft h, hcolumns]
  | frequent h =>
    simp only [apply, Draft.countCombinations, Draft.items_congr hdraft h,
      Draft.references_congr hdraft h]
  | timechart h hsplit =>
    have hby := forall₂_toList hsplit
    simp only [apply, Draft.chart, Draft.aggregationItems_congr hdraft target h,
      Draft.items_congr hdraft hby, Draft.references_congr hdraft hby]

lemma Stage.Synonymous.not_isEntangled {s s' : Stage} (h : s.Synonymous s') :
    s.isEntangled = false ∧ s'.isEntangled = false := by
  cases h <;> exact ⟨rfl, rfl⟩

lemma not_any_isEntangled {stages stages' : List Stage}
    (h : List.Forall₂ Stage.Synonymous stages stages') :
    stages.any Stage.isEntangled = false ∧ stages'.any Stage.isEntangled = false := by
  induction h with
  | nil => exact ⟨rfl, rfl⟩
  | cons hs _ ih =>
    rw [List.any_cons, List.any_cons, hs.not_isEntangled.1, hs.not_isEntangled.2]
    exact ih

namespace Pipeline

/-- One stage after the other: the drafts stay equal, and no column is computed in them. -/
lemma foldl_apply_eq {stages stages' : List Stage}
    (h : List.Forall₂ Stage.Synonymous stages stages') (target : Target) {draft : Draft}
    (hdraft : draft.computed = []) :
    stages.foldl (Stage.apply target) draft = stages'.foldl (Stage.apply target) draft := by
  induction h generalizing draft with
  | nil => rfl
  | @cons s s' stages stages' hs _ ih =>
    rw [List.foldl_cons, List.foldl_cons, ← hs.apply_eq target hdraft]
    exact ih ((hs.computed_apply target draft).trans hdraft)

variable {p p' : Pipeline}

/-- The induction is on the stages; no synonymous stage computes a column, which the step needs. -/
lemma Synonymous.statement_eq (h : p.Synonymous p') (target : Target) (defaultLimit : Nat)
    (filter : List Sql.Expr) :
    p.statement target defaultLimit filter = p'.statement target defaultLimit filter := by
  have hdraft : p.draft target filter = p'.draft target filter := foldl_apply_eq h target rfl
  rw [statement, statement, hdraft]

/-- None of the stages that may be synonymous can break down. -/
lemma Synonymous.not_breaksDown (h : p.Synonymous p') (d : Dialect) :
    p.breaksDown d = false ∧ p'.breaksDown d = false := by
  obtain ⟨hp, hp'⟩ := not_any_isEntangled h
  rw [breaksDown, breaksDown, hp, hp', Bool.and_false]
  exact ⟨rfl, rfl⟩

/-- Pipelines that compute no column and name the results of their aggregations are compiled to the
same text if they differ only in the names of fields that stand for the same columns, wherever the
names stand, and whatever the dialect, the table and the limit are. Bounds of time are applied or
refused alike. -/
theorem synonymous_alike [Libraries] (h : p.Synonymous p') (target : Target) (defaultLimit : Nat) :
    (∃ sql, p.outcome target defaultLimit none none = .statement sql ∧
      p'.outcome target defaultLimit none none = .statement sql) ∧
    ∀ earliest latest : Option String, p.outcome target defaultLimit earliest latest ≠ .brokenDown ∧
      p.outcome target defaultLimit earliest latest =
        p'.outcome target defaultLimit earliest latest := by
  obtain ⟨hp, hp'⟩ := h.not_breaksDown target.dialect
  have hcompile : ∀ earliest latest : Option String,
      p.compile target defaultLimit earliest latest =
        p'.compile target defaultLimit earliest latest := by
    intro earliest latest
    simp only [compile, h.statement_eq]
  have hsame : ∀ earliest latest : Option String,
      p.outcome target defaultLimit earliest latest =
        p'.outcome target defaultLimit earliest latest := by
    intro earliest latest
    rw [outcome, outcome, hcompile, hp, hp']
  have hbroken : ∀ earliest latest : Option String,
      p.outcome target defaultLimit earliest latest ≠ .brokenDown := by
    intro earliest latest hbroken
    rw [outcome, hp] at hbroken
    cases hsql : p.compile target defaultLimit earliest latest <;> rw [hsql] at hbroken <;>
      cases hbroken
  have hsql : ∃ sql, p.outcome target defaultLimit none none = .statement sql := by
    rw [outcome, hp]
    exact ⟨_, rfl⟩
  obtain ⟨sql, hsql⟩ := hsql
  exact ⟨⟨sql, hsql, (hsame none none).symm.trans hsql⟩,
    fun earliest latest => ⟨hbroken earliest latest, hsame earliest latest⟩⟩

/-- `host` and `HOST`, `LEVEL` and `priority`, `app` and `Program`, `msg` and `message`, `_time`
and `time` stand for the same columns, inside a negated group and as the field of an aggregation
too. -/
theorem synonymous_alike_severity :
    let p : Pipeline := ⟨[.filter .search [.group .or [.compare "host" .eq (.string "a*") false,
        .compare "LEVEL" .ltEq (.string "error") false] true], .fields ["severity"] false,
      .stats [⟨.max, some "app", some "m"⟩, ⟨.count, none, none⟩] ["priority", "msg"],
      .sort [⟨"_time", .descending⟩]]⟩
    let p' : Pipeline := ⟨[.filter .search [.group .or [.compare "HOST" .eq (.string "a*") false,
        .compare "priority" .ltEq (.string "error") false] true], .fields ["level"] false,
      .stats [⟨.max, some "Program", some "m"⟩, ⟨.count, none, none⟩] ["level", "message"],
      .sort [⟨"time", .descending⟩]]⟩
    let sql := "SELECT severity, message, MAX(app_name) AS m, COUNT(*) AS count FROM logs" ++
      " WHERE NOT (hostname LIKE 'a%' ESCAPE '\\' OR severity <= 3) GROUP BY severity, message" ++
      " ORDER BY timestamp DESC"
    p.Synonymous p' ∧ p.outcome (.standard .sqlite) 1000 none none = .statement sql ∧
      p'.outcome (.standard .sqlite) 1000 none none = .statement sql := by
  intro p p' sql
  have h : p.Synonymous p' := by
    refine .cons (.filter (.cons (.group (.cons (.compare ?_) (.cons (.compare ?_) .nil))) .nil)) <|
      .cons (.fields (.cons ?_ .nil)) <|
      .cons (.stats (.cons ⟨rfl, .some ?_, rfl, fun _ => rfl⟩ (.cons ⟨rfl, .none, rfl, nofun⟩ .nil))
        (.cons ?_ (.cons ?_ .nil))) <|
      .cons (.sort (.cons ⟨?_, rfl⟩ .nil)) .nil
    all_goals decide
  have hsql : p.outcome (.standard .sqlite) 1000 none none = .statement sql := by decide +kernel
  have hsame := ((synonymous_alike h (.standard .sqlite) 1000).2 none none).2
  exact ⟨h, hsql, hsame.symm.trans hsql⟩

end Pipeline

end LogQuery
