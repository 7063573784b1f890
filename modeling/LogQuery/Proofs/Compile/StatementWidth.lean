import LogQuery.CommandLine.Libraries
import LogQuery.Proofs.Compile.StageWidth
import LogQuery.Proofs.Compile.Statement
import LogQuery.Proofs.Parser.Mass

namespace LogQuery

open Sql

variable {d : Dialect}

/-! ### Statements -/

namespace Statement

/-- A clause is as long as its items and the separators between them. -/
lemma length_clause_le (keyword separator : String) (items : List String) :
    (clause keyword separator items).toList.length ≤
      keyword.toList.length + 2 +
        (items.map fun s => s.toList.length + separator.toList.length).sum := by
  rw [clause]
  split_ifs
  · simp
  · have hrow := length_intercalate_le items separator
    simp only [String.toList_append, List.length_append]
    have hblank : " ".toList.length = 1 := rfl
    omega

/-- The `LIMIT` clause takes its number and seven characters. -/
lemma length_limitClause_le (limit : Option Nat) :
    (clause "LIMIT" "" (limit.map toString).toList).toList.length ≤
      limit.elim 0 (fun n => (toString n).length) + 7 := by
  have h := length_clause_le "LIMIT" "" (limit.map toString).toList
  have hkeyword : "LIMIT".toList.length = 5 := rfl
  cases limit with
  | none => exact h.trans (by simp)
  | some n =>
    have hn : (toString n).toList.length = (toString n).length := String.length_toList
    have hempty : "".toList.length = 0 := rfl
    refine h.trans ?_
    simp only [Option.map_some, Option.toList_some, List.map_singleton, List.sum_singleton,
      Option.elim_some]
    omega

/-- The star that stands for an empty list is the only character the items do not pay for. -/
lemma length_selectList_le (items : List SelectItem) :
    (if items.isEmpty then "*"
      else String.intercalate ", " (items.map (SelectItem.render d))).toList.length ≤
        SelectItem.widths d items + 1 := by
  split_ifs
  · simp
  · have hrow := length_intercalate_le (items.map (SelectItem.render d)) ", "
    rw [List.map_map] at hrow
    exact hrow.trans (Nat.le_succ _)

/-- A statement is as long as its parts, and what SQL puts between them. -/
lemma length_render_le (s : Statement) :
    (s.render d).length ≤ SelectItem.widths d s.items + s.table.length +
      Expr.widths d 5 s.filter + (s.groupBy.map (ColumnRef.width d)).sum +
      (s.orderBy.map (OrderKey.width d)).sum + s.limit.elim 0 (fun n => (toString n).length) +
      60 := by
  have hitems := length_selectList_le (d := d) s.items
  have hwhere := length_clause_le "WHERE" " AND " (s.filter.map (Expr.render d))
  have hgroup := length_clause_le "GROUP BY" ", " (s.groupBy.map (ColumnRef.render d))
  have horder := length_clause_le "ORDER BY" ", " (s.orderBy.map (OrderKey.render d))
  have hlimit := length_limitClause_le s.limit
  have hdistinct : (if s.distinct then "DISTINCT " else "").toList.length ≤ 9 := by
    split_ifs <;> decide
  have hselect : "SELECT ".toList.length = 7 := rfl
  have hfrom : " FROM ".toList.length = 6 := rfl
  have hkeywords : "WHERE".toList.length = 5 ∧ "GROUP BY".toList.length = 8 ∧
    "ORDER BY".toList.length = 8 := ⟨rfl, rfl, rfl⟩
  rw [List.map_map] at hwhere hgroup horder
  change _ ≤ _ + Expr.widths d 5 s.filter at hwhere
  change _ ≤ _ + (s.groupBy.map (ColumnRef.width d)).sum at hgroup
  change _ ≤ _ + (s.orderBy.map (OrderKey.width d)).sum at horder
  rw [← String.length_toList, render_eq, beginning, ending]
  simp only [String.toList_append, List.length_append]
  rw [← String.length_toList]
  omega

/-- The text of a statement has the text of every item in it. -/
lemma width_le_length_render {s : Statement} {item : SelectItem} (h : item ∈ s.items) :
    item.expr.width d ≤ (s.render d).length := by
  have hitem : item.expr.width d ≤ (item.render d).toList.length := by
    rw [SelectItem.render, String.toList_append, List.length_append]
    exact Nat.le_add_right _ _
  have hrow := sum_length_le_intercalate (s.items.map (SelectItem.render d)) ", "
  have hone := List.le_sum_of_mem (List.mem_map_of_mem
    (f := fun item : SelectItem => (item.render d).toList.length) h)
  have hnonempty : s.items.isEmpty = false := by
    cases hitems : s.items with
    | nil => simp [hitems] at h
    | cons => rfl
  rw [List.map_map] at hrow
  rw [← String.length_toList, render, hnonempty]
  simp only [String.toList_append, List.length_append]
  exact (hitem.trans (hone.trans hrow)).trans (by simp; omega)

end Statement

/-! ### Pipelines -/

namespace Draft

lemma bounded_start (d : Dialect) (unit : Nat) : (start []).Bounded d unit 0 where
  name := by simp [start]
  column := by simp [start]
  filter := Nat.zero_le _
  count := Nat.le_refl _
  items := Bounded.widths_tableItems_le (List.Sublist.refl _)
  groupBy := Nat.le_refl _
  orderBy := Nat.le_refl _
  limit := by simp [start]

/-- What is filled in at the end is a key and a number. -/
lemma Bounded.length_render_finish_le {draft : Draft} {unit mass defaultLimit : Nat}
    {table : String} (h : draft.Bounded d unit mass) (hunit : 250 ≤ unit)
    (htable : table.length ≤ 20) (hlimit : (toString defaultLimit).length ≤ 20) :
    ((draft.finish table defaultLimit).render d).length ≤ 4 * (unit * (mass + 1) ^ 2) := by
  have hrender := (draft.finish table defaultLimit).length_render_le (d := d)
  have hitems := h.items
  have hfilter := h.filter
  have hgroup := h.groupBy
  have horder : ((draft.finish table defaultLimit).orderBy.map (OrderKey.width d)).sum ≤
      40 * mass ^ 2 + 27 := by
    have hkey := OrderKey.width_le (d := d) ⟨.table Column.timestamp, .descending⟩
    have hname : Column.timestamp.length = 9 := rfl
    change ((if draft.orderBy.isEmpty && !draft.aggregated && !draft.distinct then
      [⟨.table Column.timestamp, .descending⟩] else draft.orderBy).map (OrderKey.width d)).sum ≤ _
    split_ifs
    · rw [List.map_singleton, List.sum_singleton]
      simp only [ColumnRef.name] at hkey
      omega
    · exact h.orderBy.trans (Nat.le_add_right _ _)
  have hrows : (draft.finish table defaultLimit).limit.elim 0 (fun n => (toString n).length) ≤
      mass + 20 := by
    change (draft.limit.or (if draft.aggregated then none else some defaultLimit)).elim 0 _ ≤ _
    cases hdraft : draft.limit with
    | none =>
      split_ifs
      · exact Nat.zero_le _
      · exact hlimit.trans (Nat.le_add_left _ _)
    | some n => exact h.limit n hdraft
  have hsquare : 4 * (unit * (mass + 1) ^ 2) =
      4 * (unit * mass ^ 2) + 8 * (unit * mass) + 4 * unit := by ring
  have hown := Nat.mul_le_mul_right (mass ^ 2) hunit
  have hmass := Nat.mul_le_mul_right mass hunit
  change ((draft.finish table defaultLimit).render d).length ≤ SelectItem.widths d draft.items +
    table.length + Expr.widths d 5 draft.filter + (draft.groupBy.map (ColumnRef.width d)).sum +
    _ + _ + 60 at hrender
  omega

end Draft

namespace Pipeline

variable {p : Pipeline} {target : Target} {unit : Nat}

/-- The induction is on the stages, from the first to the last. -/
lemma bounded_draft (hunit : 250 ≤ unit) (htable : target.table.length ≤ 20)
    (hexprs : ∀ stage ∈ p.stages, ∀ e ∈ stage.exprs,
      (e.toSql target.dialect).width target.dialect + 20 ≤ 2 * (unit * e.mass)) :
    (p.draft target []).Bounded target.dialect unit p.mass := by
  have hrun : ∀ (stages : List Stage) (draft : Draft) (mass : Nat), stages ⊆ p.stages →
      draft.Bounded target.dialect unit mass →
        (stages.foldl (Stage.apply target) draft).Bounded target.dialect unit
          (mass + (stages.map Stage.mass).sum) := by
    intro stages
    induction stages with
    | nil => exact fun draft mass _ h => h
    | cons stage stages ih =>
      intro draft mass hsubset h
      have hstage := h.apply hunit htable stage (hexprs stage (hsubset (by simp)))
      rw [List.foldl_cons, List.map_cons, List.sum_cons, ← Nat.add_assoc]
      exact ih _ _ (List.subset_of_cons_subset hsubset) hstage
  have h := hrun p.stages _ 0 (List.Subset.refl _) (Draft.bounded_start target.dialect unit)
  rwa [Nat.zero_add] at h

/-- How deep tests of addresses nest in the expressions of a pipeline. -/
def addressDepth (p : Pipeline) : Nat := EvalExpr.addressDepthOfAll (p.stages.flatMap Stage.exprs)

/-- The square of the mass pays for a statement, but for the growth by questions in one another. -/
theorem length_statement_le (p : Pipeline) {target : Target} {defaultLimit : Nat}
    (htable : target.table.length ≤ 20) (hlimit : (toString defaultLimit).length ≤ 20) :
    ((p.statement target defaultLimit []).render target.dialect).length ≤
      1000 * (p.mass + 1) ^ 2 * target.dialect.addressGrowth ^ p.addressDepth := by
  have hunit : 250 ≤ 250 * target.dialect.addressGrowth ^ p.addressDepth :=
    Nat.le_mul_of_pos_right _ (Nat.pow_pos target.dialect.addressGrowth_pos)
  have hbounded := bounded_draft (p := p) hunit htable fun stage hstage e he => by
    have hdepth := EvalExpr.addressDepth_le_ofAll (List.mem_flatMap_of_mem hstage he)
    have hwidth := e.width_toSql_le (d := target.dialect)
    have hrate := Nat.mul_le_mul_right e.mass (EvalExpr.widthRate_mono (d := target.dialect) hdepth)
    refine hwidth.trans (hrate.trans (Nat.le_of_eq ?_))
    rw [EvalExpr.widthRate, ← addressDepth]
    ring
  refine (hbounded.length_render_finish_le hunit htable hlimit).trans (Nat.le_of_eq ?_)
  ring

end Pipeline

/-! ### Nested tests -/

lemma Sql.Expr.width_column_pos (name : String) : 0 < (column name).width d := by
  change 0 < (identifier d name).toList.length
  rw [identifier]
  split_ifs with hplain
  · rw [isPlainName.eq_def] at hplain
    split at hplain
    · cases hplain
    · next c rest hname => simp [hname]
  · simp [quoteName]

namespace EvalExpr

/-- The class of the class of an expression, and so on. -/
def classified (e : EvalExpr) : Nat → EvalExpr
  | 0 => e
  | n + 1 => .call AddressQuestion.classify.name [classified e n]

variable (name : String) (n : Nat)

/-- A classification is no literal, so a question about it is not answered on its own. -/
lemma textOf_classified : EvalFunction.textOf? ((field name).classified n) = none := by
  cases n <;> rfl

/-- A question about the value of a field is not answered at once. -/
lemma answerOf_classified (q : AddressQuestion) :
    EvalFunction.answerOf? q ((field name).classified n) = none := by
  rw [EvalFunction.answerOf?, textOf_classified]
  rfl

lemma toSql_classified_succ : ((field name).classified (n + 1)).toSql d =
    d.ask .classify (((field name).classified n).toSql d) := by
  have hcall : EvalFunction.ofCall? AddressQuestion.classify.name 1 = some (.address .classify) :=
    by decide
  rw [classified, toSql, allToSql, allToSql, callToSql, List.length_singleton, hcall]
  change ((EvalFunction.answerOf? .classify _).getD _) = _
  rw [answerOf_classified, Option.getD_none]

/-- The depth counts the classifications nested in one another. -/
lemma addressDepth_classified : ((field name).classified n).addressDepth = n := by
  induction n with
  | zero => rw [classified, addressDepth]
  | succ n ih =>
    have htests : testsAddress AddressQuestion.classify.name [(field name).classified n] =
        true := by
      have hcall : EvalFunction.ofCall? AddressQuestion.classify.name 1 =
          some (.address .classify) := by decide
      rw [testsAddress, List.length_singleton, hcall, Option.any_some, EvalFunction.testsAddress,
        answerOf_classified, Option.isNone_none]
    rw [classified, addressDepth, addressDepthOfAll, addressDepthOfAll, htests, ih, Nat.max_zero]
    rfl

/-- Every test multiplies the text that it tests. -/
lemma growth_pow_le_width :
    d.addressGrowth ^ n ≤ (((field name).classified n).toSql d).width d := by
  induction n with
  | zero =>
    rw [classified, toSql, Nat.pow_zero]
    exact Sql.Expr.width_column_pos _
  | succ n ih =>
    rw [toSql_classified_succ, Nat.pow_succ, Nat.mul_comm]
    exact (Nat.mul_le_mul_left _ ih).trans (Dialect.growth_mul_width_le _)

end EvalExpr

/-! ### Queries -/

/-- The statement of a query has at most a thousand times as many characters as the square of what
the query has, times a power of the number of copies that a test of an address makes; its exponent
is how deep such tests nest. There are pipelines of every depth whose statements are as long as
this power. -/
theorem Config.length_compile_le [Libraries] (d : Dialect) :
    (∀ {query sql : String} {p : Pipeline},
      parseQuery ({} : Config).parserLimits query = .ok p →
        ({} : Config).compile query d none none = .ok sql →
          sql.length ≤ 1000 * (query.length + 1) ^ 2 * d.addressGrowth ^ p.addressDepth) ∧
    ∀ (output name : String) (depth : Nat),
      let p : Pipeline := ⟨[.eval [⟨output, (EvalExpr.field name).classified depth⟩]]⟩
      p.addressDepth = depth ∧
        d.addressGrowth ^ depth ≤ ((p.statement (.standard d) 1000 []).render d).length := by
  constructor
  · intro query sql p hp h
    obtain ⟨p', hp', hsql⟩ := compile_eq_ok.1 h
    cases hp.symm.trans hp'
    obtain ⟨from?, to?, hfrom, hto, rfl⟩ := Pipeline.compile_eq_ok.1 hsql
    cases hfrom
    cases hto
    have hmass := mass_le_of_parseQuery hp
    have htable : (({} : Config).target d).table.length ≤ 20 := by cases d <;> decide
    have hlimit : (toString ({} : Config).defaultLimit).length ≤ 20 := by decide
    have hstatement := p.length_statement_le htable hlimit
    refine hstatement.trans (Nat.mul_le_mul_right _ (Nat.mul_le_mul_left _ ?_))
    exact Nat.pow_le_pow_left (Nat.succ_le_succ hmass) 2
  · intro output name depth p
    constructor
    · change max ((EvalExpr.field name).classified depth).addressDepth 0 = depth
      rw [EvalExpr.addressDepth_classified, Nat.max_zero]
    · have hitem : (⟨((EvalExpr.field name).classified depth).toSql d, some output⟩ : SelectItem) ∈
          (p.statement (.standard d) 1000 []).items := by
        change _ ∈ _ ++ [_]
        exact List.mem_append_right _ (List.mem_singleton_self _)
      exact (EvalExpr.growth_pow_le_width name depth).trans (Statement.width_le_length_render hitem)

/-- A test that copies the name of its field once. -/
theorem Config.length_compile_le_loopback :
    let p : Pipeline := ⟨[.eval [⟨"x", .call "is_loopback_ip" [.field "y"]⟩]]⟩
    let sql := "SELECT timestamp, hostname, app_name, severity, message, "
      ++ "(toIPv4OrNull(y) BETWEEN toIPv4('127.0.0.0') AND toIPv4('127.255.255.255')) AS x "
      ++ "FROM heimsight.logs ORDER BY timestamp DESC LIMIT 1000"
    parseQuery (parserLimits {}) "eval x=is_loopback_ip(y)" = .ok p ∧
      compile {} "eval x=is_loopback_ip(y)" .clickHouse none none = .ok sql ∧
      p.addressDepth = 1 ∧
      sql.length ≤ 1000 * ("eval x=is_loopback_ip(y)".length + 1) ^ 2 * 14 := by
  intro p sql
  have hp : parseQuery (parserLimits {}) "eval x=is_loopback_ip(y)" = .ok p := by
    with_unfolding_all rfl
  have hsql : compile {} "eval x=is_loopback_ip(y)" .clickHouse none none = .ok sql :=
    eq_ok_of_toOption (by decide +kernel)
  have hdepth : p.addressDepth = 1 := by decide
  have hlength := (length_compile_le .clickHouse).1 hp hsql
  rw [hdepth] at hlength
  exact ⟨hp, hsql, hdepth, hlength⟩

end LogQuery
