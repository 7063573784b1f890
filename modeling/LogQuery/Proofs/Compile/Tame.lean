import LogQuery.Compile.Pipeline
import LogQuery.Proofs.Parser.Expression
import LogQuery.Proofs.Parser.Stages
import LogQuery.Proofs.Sql.Builders

namespace LogQuery

open Sql Sql.Expr

variable {d : Dialect}

/-! ### Conditions -/

/-- A comparison becomes a tame expression for any column and value. -/
lemma Comparison.tame_toSql (comparison : Comparison) (column : String) (value : Value) :
    (comparison.toSql d column value).Tame := by
  have hplain : ∀ op v, (Expr.binary op (.column column) (.ofValue v)).Tame :=
    fun op v => .binary .column (tame_ofValue v)
  have hlist : (Comparison.listToSql value).Tame := by
    cases value with
    | list items => exact .tuple (tame_ofValues items)
    | _ => exact .paren (tame_ofValue _)
  unfold Comparison.toSql
  dsimp only
  -- First the comparisons that depend on what kind of value there is, then the plain ones.
  split
  · exact .nullTest .column
  · exact .nullTest .column
  · exact .nullTest .column
  · exact Dialect.tame_regexMatch .column _
  · exact Dialect.tame_regexMatch .column _
  · exact .not (Dialect.tame_regexMatch .column _)
  · split_ifs
    · exact Dialect.tame_like .column _ _ _
    · exact hplain _ _
  · split_ifs
    · exact Dialect.tame_like .column _ _ _
    · exact hplain _ _
  · split_ifs
    · exact Dialect.tame_like .column _ _ _
    · exact Dialect.tame_contains .column _
  · exact Dialect.tame_contains .column _
  · exact .binary .column hlist
  · exact .binary .column hlist
  all_goals exact hplain _ _

namespace Condition

mutual

/-- Conditions become tame expressions. The recursion is on the condition. -/
lemma tame_toSql : ∀ c : Condition, (c.toSql d).Tame
  | .compare field comparison value negated => by
    rw [toSql]
    have htest := comparison.tame_toSql (d := d) (Column.ofField field) value
    split_ifs
    · exact .not (.paren htest)
    · exact htest
  | .group logic members negated => by
    rw [toSql]
    have hwhole : (Expr.paren (.chain (.ofConnective logic) (allToSql d members))).Tame :=
      .paren (.chain (tame_allToSql members))
    split_ifs
    · exact .not hwhole
    · exact hwhole

lemma tame_allToSql : ∀ cs : List Condition, ∀ e ∈ allToSql d cs, e.Tame
  | [], _, he => by cases he
  | c :: rest, e, he => by
    rcases List.mem_cons.1 he with rfl | he
    · exact tame_toSql c
    · exact tame_allToSql rest e he

end

lemma tame_fragment (cs : List Condition) : ∀ e ∈ fragment? d cs, e.Tame := by
  intro e he
  have hall := tame_allToSql (d := d) cs
  rw [fragment?] at he
  split at he
  · cases he
  · next heq =>
    cases he
    exact hall e (by simp [heq])
  · cases he
    exact .paren (.chain hall)

end Condition

/-! ### Expressions -/

namespace EvalFunction

/-- The arguments of a case split are its branches, so both sides inherit from them. -/
lemma tame_branches {es : List Expr} (h : ∀ e ∈ es, e.Tame) :
    (∀ b ∈ (branches es).1, b.1.Tame ∧ b.2.Tame) ∧ ∀ e ∈ (branches es).2, e.Tame := by
  fun_induction branches es with
  | case1 => simp
  | case2 otherwise => simpa using h
  | case3 condition value rest later otherwise hrest ih =>
    rw [hrest] at ih
    obtain ⟨hlater, hotherwise⟩ := ih fun e he => h e (by simp [he])
    refine ⟨fun b hb => ?_, hotherwise⟩
    rcases List.mem_cons.1 hb with rfl | hb
    · exact ⟨h _ (by simp), h _ (by simp)⟩
    · exact hlater b hb

/-- The names in the table of functions are bare. -/
lemma bare_sqlName {function : EvalFunction} {name : String} (h : function.sqlName? = some name) :
    Bare name := by
  cases function <;> cases h <;> decide

lemma tame_toSql {function : EvalFunction} {args : List EvalExpr} {es : List Expr} {e : Expr}
    (hes : ∀ e ∈ es, e.Tame) (h : function.toSql? d args es = some e) : e.Tame := by
  simp only [toSql?] at h
  -- One case for each row of the table of functions; the last is for those with a name in SQL.
  split at h
  · cases h
    exact Dialect.tame_conditional (by simpa using hes _ (by simp)) (by simpa using hes _ (by simp))
      (hes _ (by simp))
  · cases h
    obtain ⟨htaken, hotherwise⟩ := tame_branches hes
    refine Dialect.tame_conditional (fun b hb => (htaken b hb).1) (fun b hb => (htaken b hb).2) ?_
    cases hlast : (branches es).2 with
    | none => exact .null
    | some last => exact hotherwise last hlast
  · cases h
    exact Dialect.tame_concat hes
  · cases h
    exact Dialect.tame_substring hes
  · cases h
    exact Dialect.tame_toText (hes _ (by simp))
  · cases h
    exact Dialect.tame_toNumber (hes _ (by simp))
  · cases h
    exact Dialect.tame_naturalLog (hes _ (by simp))
  · cases h
    exact Dialect.tame_now
  · cases h
    exact .paren (.nullTest (hes _ (by simp)))
  · cases h
    exact .paren (.nullTest (hes _ (by simp)))
  · obtain ⟨pattern, -, rfl⟩ := Option.map_eq_some_iff.1 h
    exact Dialect.tame_regexMatch (hes _ (by simp)) pattern
  · cases h
    exact .paren (.binary (hes _ (by simp)) (hes _ (by simp)))
  · obtain ⟨range, -, rfl⟩ := Option.map_eq_some_iff.1 h
    exact Dialect.tame_inRange (hes _ (by simp)) range
  · next q arg e =>
    cases h
    cases hanswer : answerOf? q arg with
    | none => exact Dialect.tame_ask (hes _ (by simp)) q
    | some answer =>
      obtain ⟨text, -, haddress⟩ := Option.bind_eq_some_iff.1 hanswer
      obtain ⟨address, -, hreturn⟩ := Option.bind_eq_some_iff.1 haddress
      cases hreturn
      exact Dialect.tame_ofAnswer _
  · obtain ⟨name, hname, rfl⟩ := Option.map_eq_some_iff.1 h
    exact .call (bare_sqlName hname) hes

end EvalFunction

namespace EvalExpr

/-- A call the table does not know is passed on, which is why its name has to be bare. -/
lemma tame_callToSql {name : String} (hname : Bare name) {args : List EvalExpr} {es : List Expr}
    (hes : ∀ e ∈ es, e.Tame) : (callToSql d name args es).Tame := by
  rw [callToSql]
  cases hknown : (EvalFunction.ofCall? name args.length).bind fun f => f.toSql? d args es with
  | none => exact .call hname hes
  | some e =>
    obtain ⟨function, -, h⟩ := Option.bind_eq_some_iff.1 hknown
    exact EvalFunction.tame_toSql hes h

lemma allToSql_eq_map (args : List EvalExpr) : allToSql d args = args.map (toSql d) := by
  induction args with
  | nil => rfl
  | cons e rest ih => rw [allToSql, ih, List.map_cons]

/-- An expression that calls only functions with bare names is tame in SQL. -/
lemma Calls.tame_toSql {e : EvalExpr} (h : e.Calls Bare) : (e.toSql d).Tame := by
  induction h with
  | literal => exact tame_ofValue _
  | field => exact .column
  | binary _ _ ihleft ihright => exact .paren (.binary ihleft ihright)
  | call hname _ ih =>
    rw [toSql]
    refine tame_callToSql hname fun e he => ?_
    rw [allToSql_eq_map, List.mem_map] at he
    obtain ⟨a, ha, rfl⟩ := he
    exact ih a ha

end EvalExpr

/-! ### Bounds of time -/

namespace TimeBound

lemma tame_toSql (b : TimeBound) : (b.toSql d).Tame := by
  cases b with
  | now => exact Dialect.tame_now
  | ago amount unit => exact Dialect.tame_timeAgo amount unit
  | timestamp text => exact .text

lemma tame_conditions (earliest latest : Option TimeBound) :
    ∀ e ∈ conditions d earliest latest, e.Tame := by
  intro e he
  rcases List.mem_append.1 he with he | he <;>
  · obtain ⟨b, -, rfl⟩ := Option.map_eq_some_iff.1 (Option.mem_toList.1 he)
    exact .binary .column b.tame_toSql

end TimeBound

/-! ### Drafts -/

/-- Every expression of the draft is tame. -/
structure Draft.Tame (draft : Draft) : Prop where
  items : ∀ item ∈ draft.items, item.expr.Tame
  filter : ∀ e ∈ draft.filter, e.Tame
  computed : ∀ c ∈ draft.computed, c.expr.Tame

namespace Draft

lemma tame_tableItem (column : String) : (tableItem column).expr.Tame := .column

/-- A draft starts with the default columns and the filter it is given. -/
lemma tame_start {filter : List Expr} (h : ∀ e ∈ filter, e.Tame) : (start filter).Tame where
  items := List.forall_mem_map.2 fun column _ => tame_tableItem column
  filter := h
  computed := by simp [start]

namespace Tame

variable {draft : Draft} {target : Target}

/-- What a field is computed by is one of the computed columns. -/
lemma computedFor (h : draft.Tame) {field : String} {c : ComputedColumn}
    (hc : draft.computedFor? field = some c) : c.expr.Tame :=
  h.computed c (List.mem_reverse.1 (List.mem_of_find?_eq_some hc))

/-- A field stands for its computed expression, or for a column of the table. -/
lemma value (h : draft.Tame) (field : String) : (draft.value field).Tame := by
  rw [Draft.value]
  split
  · next c hc => exact h.computedFor hc
  · exact .column

lemma item (h : draft.Tame) (field : String) : (draft.item field).expr.Tame := by
  rw [Draft.item]
  split
  · next c hc => exact h.computedFor hc
  · exact tame_tableItem _

lemma map_item (h : draft.Tame) (fields : List String) :
    ∀ item ∈ fields.map draft.item, item.expr.Tame :=
  List.forall_mem_map.2 fun field _ => h.item field

/-- A subquery names the table, so the name of the table has to be bare. -/
lemma aggregationItem (h : draft.Tame) (htable : Bare target.table) (a : Aggregation) :
    (draft.aggregationItem target a).expr.Tame := by
  rw [Draft.aggregationItem]
  dsimp only
  split
  · exact Dialect.tame_countAll
  · exact Dialect.tame_aggregate _ (h.value _) htable h.filter

lemma map_aggregationItem (h : draft.Tame) (htable : Bare target.table) (as : List Aggregation) :
    ∀ item ∈ as.map (draft.aggregationItem target), item.expr.Tame :=
  List.forall_mem_map.2 fun a _ => h.aggregationItem htable a

/-- A change of the select list to tame items. -/
lemma withItems (h : draft.Tame) {items : List SelectItem} (hitems : ∀ i ∈ items, i.expr.Tame)
    {draft' : Draft} (hitems' : draft'.items = items) (hfilter : draft'.filter = draft.filter)
    (hcomputed : draft'.computed = draft.computed) : draft'.Tame :=
  ⟨hitems' ▸ hitems, hfilter ▸ h.filter, hcomputed ▸ h.computed⟩

lemma select (h : draft.Tame) (cs : List Condition) : (draft.select d cs).Tame where
  items := h.items
  filter := List.forall_mem_append.2 ⟨h.filter, fun e he =>
    Condition.tame_fragment cs e (Option.mem_toList.1 he)⟩
  computed := h.computed

lemma group (h : draft.Tame) (htable : Bare target.table) (as : List Aggregation)
    (fields : List String) : (draft.group target as fields).Tame := by
  have hitems := List.forall_mem_append.2 ⟨h.map_item fields, h.map_aggregationItem htable as⟩
  exact h.withItems hitems rfl rfl rfl

lemma countCombinations (h : draft.Tame) (fields : List String) (order : SortOrder) (limit : Nat) :
    (draft.countCombinations d fields order limit).Tame := by
  refine h.withItems (List.forall_mem_append.2 ⟨h.map_item fields, ?_⟩) rfl rfl rfl
  exact List.forall_mem_singleton.2 Dialect.tame_countAll

lemma chart (h : draft.Tame) (htable : Bare target.table) (span : Span) (as : List Aggregation)
    (splitBy : Option String) : (draft.chart target span as splitBy).Tame := by
  refine h.withItems (List.forall_mem_append.2 ⟨?_, h.map_aggregationItem htable as⟩) rfl rfl rfl
  exact List.forall_mem_cons.2 ⟨Dialect.tame_timeBucket .column _, h.map_item _⟩

lemma keep (h : draft.Tame) (fields : List String) : (draft.keep fields).Tame :=
  h.withItems (h.map_item fields) rfl rfl rfl

lemma leaveOut (h : draft.Tame) (fields : List String) : (draft.leaveOut fields).Tame :=
  h.withItems (List.forall_mem_map.2 fun column _ => tame_tableItem column) rfl rfl rfl

/-- Renaming changes the names of items, which are quoted where they are printed. -/
lemma rename_items {items : List SelectItem} (h : ∀ i ∈ items, i.expr.Tame) (rs : List Renaming) :
    ∀ i ∈ rs.foldl renameItems items, i.expr.Tame := by
  induction rs generalizing items with
  | nil => exact h
  | cons r rs ih =>
    refine ih fun i hi => ?_
    obtain ⟨i', hi', rfl⟩ := List.mem_map.1 hi
    split_ifs <;> exact h i' hi'

lemma addComputed (h : draft.Tame) {c : ComputedColumn} (hc : c.expr.Tame) :
    (draft.addComputed c).Tame where
  items := List.forall_mem_append.2 ⟨h.items, List.forall_mem_singleton.2 hc⟩
  filter := h.filter
  computed := List.forall_mem_append.2 ⟨h.computed, List.forall_mem_singleton.2 hc⟩

/-- Columns that are added one after the other. -/
lemma foldl_addComputed {α : Type} {f : α → ComputedColumn} {as : List α} (h : draft.Tame)
    (hf : ∀ a ∈ as, (f a).expr.Tame) :
    (as.foldl (fun draft a => draft.addComputed (f a)) draft).Tame := by
  induction as generalizing draft with
  | nil => exact h
  | cons a as ih => exact ih (h.addComputed (hf a (by simp))) fun b hb => hf b (by simp [hb])

lemma addBucket (h : draft.Tame) (field : String) (span : Span) (output : Option String) :
    (draft.addBucket d field span output).Tame := by
  refine h.addComputed ?_
  cases span with
  | time amount unit => exact Dialect.tame_timeBucket .column _
  | numeric width => exact Dialect.tame_numericBin .column width

/-- A stage leaves a tame draft tame, whatever conditions it has. -/
lemma apply (h : draft.Tame) (htable : Bare target.table) {stage : Stage}
    (hstage : stage.Meets (fun _ => True) (EvalExpr.Calls Bare)) :
    (stage.apply target draft).Tame := by
  cases stage with
  | filter command cs => exact h.select cs
  | stats as groupBy => exact h.group htable as groupBy
  | sort keys => exact h.withItems h.items rfl rfl rfl
  | limit command count => exact h.withItems h.items rfl rfl rfl
  | dedup names => exact h.withItems (h.map_item names) rfl rfl rfl
  | table names => exact h.keep names
  | fields names keep =>
    cases keep with
    | true => exact h.keep names
    | false => exact h.leaveOut names
  | rename renamings => exact h.withItems (rename_items h.items renamings) rfl rfl rfl
  | eval assignments => exact h.foldl_addComputed fun a ha => (hstage a ha).tame_toSql
  | frequent which names most => exact h.countCombinations names _ most
  | bin field span output => exact h.addBucket field span output
  | timechart span as splitBy => exact h.chart htable span as splitBy
  | rex field pattern => exact h.foldl_addComputed fun g _ => Dialect.tame_extractGroup .column _ _

/-- The induction is on the stages. -/
lemma foldl_apply (h : draft.Tame) (htable : Bare target.table) {stages : List Stage}
    (hstages : ∀ stage ∈ stages, stage.Meets (fun _ => True) (EvalExpr.Calls Bare)) :
    (stages.foldl (Stage.apply target) draft).Tame := by
  induction stages generalizing draft with
  | nil => exact h
  | cons stage stages ih =>
    obtain ⟨hfirst, hrest⟩ := List.forall_mem_cons.1 hstages
    exact ih (h.apply htable hfirst) hrest

end Tame

end Draft

/-- The draft of a pipeline is tame, as every stage leaves a tame draft tame. -/
lemma Pipeline.tame_draft {p : Pipeline} {target : Target} (htable : Bare target.table)
    (hp : ∀ stage ∈ p.stages, stage.Meets (fun _ => True) (EvalExpr.Calls Bare))
    {filter : List Expr} (h : ∀ e ∈ filter, e.Tame) : (p.draft target filter).Tame :=
  (Draft.tame_start h).foldl_apply htable hp

end LogQuery
