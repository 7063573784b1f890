import LogQuery.CommandLine.Libraries
import LogQuery.Proofs.Parser.ConditionSpelling
import LogQuery.Proofs.Parser.ExpressionDerivation
import LogQuery.Proofs.Parser.Stages
import LogQuery.Proofs.Syntax.WellFormed

namespace LogQuery

/-! ### What texts stand for -/

/-- The name of a percentile has one or two digits, and not only zeros. -/
lemma AggregateFunction.percentOf?_bounds {name : List Char} {percent : Nat}
    (h : percentOf? name = some percent) : 1 ≤ percent ∧ percent ≤ 99 := by
  have hdigit : ∀ c : Char, c.isDigit = true → c.toNat - '0'.toNat ≤ 9 := by
    intro c hc
    have hbounds := Char.isDigit_iff_toNat.1 hc
    have hnine : '9'.toNat = '0'.toNat + 9 := rfl
    omega
  rw [percentOf?.eq_def] at h
  dsimp only at h
  split at h
  · next digits =>
    split_ifs at h with hname
    cases h
    simp only [Bool.and_eq_true, decide_eq_true_eq, bne_iff_ne, List.all_eq_true] at hname
    obtain ⟨⟨⟨hpos, hlength⟩, hdigits⟩, hne⟩ := hname
    refine ⟨Nat.pos_of_ne_zero hne, ?_⟩
    rcases digits with _ | ⟨c, _ | ⟨c', _ | ⟨c'', more⟩⟩⟩
    · simp at hpos
    · have hc := hdigit c (hdigits c (by simp))
      simp only [List.foldl_cons, List.foldl_nil]
      omega
    · have hc := hdigit c (hdigits c (by simp))
      have hc' := hdigit c' (hdigits c' (by simp))
      simp only [List.foldl_cons, List.foldl_nil]
      omega
    · simp at hlength
  · cases h

lemma AggregateFunction.percentile_bounds {name : String} {percent : Nat}
    (h : ofName? name = some (.percentile percent)) : 1 ≤ percent ∧ percent ≤ 99 := by
  rw [ofName?] at h
  dsimp only at h
  split at h
  · next f _ hfind =>
    have hnamed : ∀ entry ∈ named, entry.1 ≠ .percentile percent := by simp [named]
    cases h
    exact absurd rfl (hnamed _ (List.mem_of_find?_eq_some hfind))
  · obtain ⟨percent', hpercent, heq⟩ := Option.map_eq_some_iff.1 h
    cases heq
    exact percentOf?_bounds hpercent

lemma Span.wellFormed_of_ofText? {text : String} {span : Span} (h : ofText? text = some span) :
    span.WellFormed := by
  rw [ofText?] at h
  dsimp only at h
  split at h
  · split_ifs at h with hamount
    cases h
    exact Nat.pos_of_ne_zero hamount
  · obtain ⟨numeral, -, h⟩ := Option.bind_eq_some_iff.1 h
    split_ifs at h with hwidth
    cases h
    rw [WellFormed]
    simpa using hwidth

namespace Parser

variable {good : Token → Prop}

/-! ### Conditions -/

lemma valueAt_yields_scalar (what : Expectation) (t : Token) :
    Yields good (valueAt what t) Value.IsScalar := by
  rw [valueAt, valueBy]
  split_ifs
  · exact .pure trivial
  · exact .pure trivial
  · refine .bind_of_forall fun text => ?_
    split
    · split_ifs with hfinite
      · exact .pure (Bool.and_eq_true _ _ ▸ hfinite).2
      · exact .pure trivial
    · exact .pure trivial
  · refine .bind_of_forall fun text => ?_
    split_ifs
    · exact .pure trivial
    · exact .pure trivial
  · exact .failAt

lemma valueList_yields_scalars : Yields good valueList fun value =>
    ∃ items, value = .list items ∧ items ≠ [] ∧ ∀ v ∈ items, v.IsScalar := by
  refine .bind_of_forall fun opening => ?_
  refine .bind (P := fun items => ∀ v ∈ items, v.IsScalar) (.many fun t rest p hturn _ => ?_)
    fun items hitems => .bind_of_forall fun closing => ?_
  · split_ifs at hturn
    · cases hturn
      exact .pure (by simp)
    · cases hturn
      exact .map (valueAt_yields_scalar _ t) fun v hv w hw => by
        cases hw
        exact hv
  · split_ifs with hempty
    · exact .failAt
    · exact .pure ⟨items, rfl, by simpa using hempty, hitems⟩

lemma termAt_yields_wellFormed (t : Token) :
    Yields good (termAt t) fun c => ∀ c' ∈ c, c'.WellFormed := by
  have hraw : ∀ {value : Value}, value.IsScalar →
      ∀ c' ∈ some (Condition.inRaw value), c'.WellFormed := by
    rintro value h c' ⟨⟩
    exact Condition.wellFormed_inRaw h
  have hcompare : ∀ {comparison : Comparison} {value : Value}, comparison.Suits value →
      ∀ c' ∈ some (Condition.compare t.text comparison value false), c'.WellFormed := by
    rintro comparison value h c' ⟨⟩
    exact .compare h
  rw [termAt, termBy]
  split_ifs
  · refine .bind_of_forall fun text => ?_
    split_ifs
    · exact .pure (by simp)
    · exact .pure (hraw trivial)
  · exact .pure (hraw trivial)
  · exact .pure (hraw trivial)
  · refine .bind_of_forall fun o => ?_
    split
    · exact .bind_of_forall fun text => .pure (hraw trivial)
    · next comparison sign =>
      dsimp only
      split
      · exact .bind valueList_yields_scalars fun value h => .pure (hcompare h)
      · exact .bind valueList_yields_scalars fun value h => .pure (hcompare h)
      · next hin hnotIn =>
        have hsuits : ∀ value : Value, value.IsScalar → comparison.Suits value := by
          intro value h
          cases comparison with
          | isIn => exact (hin rfl).elim
          | notIn => exact (hnotIn rfl).elim
          | _ => exact h
        refine .bind_of_forall fun u => ?_
        exact .bind (valueAt_yields_scalar _ u) fun value h => .pure (hcompare (hsuits value h))
  · exact .failAt

lemma conditions_yields_wellFormed :
    Yields good conditions fun cs => ∀ c ∈ cs, c.WellFormed := by
  intro s ts cs rest hts h
  obtain ⟨o, ho, -, rfl⟩ := reads_conditions.1 h
  obtain ⟨p, hp, -, rfl⟩ := derives_of_reads_disjunction (takesDerived_unary s s.maxDepth) ho
  have hmeaning : ∀ c ∈ p.meaning, c.WellFormed :=
    hp.meetsAt (fun t _ _ => termAt_yields_wellFormed t) (fun _ h => h.negate)
      (fun _ _ hlength h => .group hlength h) hts
  exact Condition.wellFormed_topLevel hmeaning

/-! ### Expressions -/

lemma isScalar_numberLiteral (text : String) : (numberLiteral text).IsScalar := by
  rw [numberLiteral]
  split
  · split_ifs with hfinite
    · exact hfinite
    · trivial
  · trivial

/-- The induction is on the derivation. -/
lemma DerivesExpr.wellFormed {level : ExprLevel} {n : Nat} {ts : List Token} {e : EvalExpr}
    (h : DerivesExpr level n ts e) : e.WellFormed := by
  induction h with
  | single _ ih => exact ih
  | chain _ _ _ _ _ ih ih' | compare _ _ _ _ ih ih' => exact .binary ih ih'
  | minus _ _ ih => exact .binary (.literal rfl) ih
  | number => exact .literal (isScalar_numberLiteral _)
  | string | regex | null => exact .literal trivial
  | field _ hnull => exact .field hnull
  | callEmpty => exact .call (by simp)
  | call _ _ _ _ _ _ ih ihmore =>
    refine .call fun a ha => ?_
    rcases List.mem_cons.1 ha with rfl | ha
    · exact ih
    · obtain ⟨x, hx, rfl⟩ := List.mem_map.1 ha
      exact ihmore x hx
  | parens _ _ _ ih => exact ih

lemma expression_yields_wellFormed : Yields good expression EvalExpr.WellFormed := by
  intro s ts e rest _ h
  obtain ⟨front, -, hfront⟩ := derives_of_reads_expression h
  exact hfront.wellFormed

/-! ### Parts of stages -/

lemma fieldList_yields_ne_nil : Yields good fieldList fun names => names ≠ [] :=
  .bind_of_forall fun _ => .bind_of_forall fun _ => .pure (by simp)

lemma spanValue_yields_wellFormed : Yields good spanValue Span.WellFormed := by
  refine .bind_of_forall fun t => .bind_of_forall fun text => ?_
  split
  · next hspan => exact .pure (Span.wellFormed_of_ofText? hspan)
  · exact .failAt

lemma aggregationAt_yields_wellFormed (t : Token) :
    Yields good (aggregationAt t) Aggregation.WellFormed := by
  rw [aggregationAt]
  split
  · exact .failAt
  · split
    · exact .failAt
    · next function hfunction =>
      refine .bind_of_forall fun field => ?_
      split_ifs with hfield
      · exact .failAt
      · refine .bind_of_forall fun output => .pure ⟨fun hcount => ?_, fun percent hpercent => ?_⟩
        · by_contra hnone
          exact hfield ⟨hcount, by simpa using hnone⟩
        · cases hpercent
          exact AggregateFunction.percentile_bounds hfunction

lemma aggregations_yields_wellFormed :
    Yields good aggregations fun all => all ≠ [] ∧ ∀ a ∈ all, a.WellFormed := by
  refine .bind (P := fun all => ∀ a ∈ all, a.WellFormed) (.many fun t rest p hturn _ => ?_)
    fun all hall => ?_
  · split at hturn
    · cases hturn
      exact .pure (by simp)
    · cases hturn
    · cases hturn
    · split_ifs at hturn
      cases hturn
      exact .map (aggregationAt_yields_wellFormed t) fun a ha b hb => by
        cases hb
        exact ha
  · split_ifs with hempty
    · exact .fail
    · exact .pure ⟨by simpa using hempty, hall⟩

/-! ### Stages -/

lemma filter_yields_wellFormed [Libraries] (command : FilterCommand) :
    Yields good (.filter command <$> conditions) Stage.WellFormed :=
  .map conditions_yields_wellFormed fun _ h => h

lemma stats_yields_wellFormed [Libraries] : Yields good stats Stage.WellFormed := by
  refine .bind aggregations_yields_wellFormed fun all hall => .bind_of_forall fun byClause => ?_
  split_ifs
  · exact .bind_of_forall fun _ => .pure hall
  · exact .bind_of_forall fun _ => .pure hall

lemma sort_yields_wellFormed [Libraries] : Yields good sort Stage.WellFormed := by
  refine .bind_of_forall fun keys => ?_
  split_ifs with hempty
  · exact .fail
  · refine .pure ?_
    simpa [Stage.WellFormed] using hempty

lemma limit_yields_wellFormed [Libraries] (command : LimitCommand) :
    Yields good (limit command) Stage.WellFormed := by
  refine .bind_of_forall fun k => ?_
  split_ifs
  · exact .bind_of_forall fun _ => .pure trivial
  · exact .pure trivial

lemma fields_yields_wellFormed [Libraries] : Yields good fields Stage.WellFormed := by
  refine .bind_of_forall fun minus => ?_
  split_ifs
  · exact .bind fieldList_yields_ne_nil fun names h => .pure h
  · exact .bind_of_forall fun _ => .bind fieldList_yields_ne_nil fun names h => .pure h

lemma rename_yields_wellFormed [Libraries] : Yields good rename Stage.WellFormed :=
  .bind_of_forall fun _ => .bind_of_forall fun _ => .bind_of_forall fun _ =>
    .pure (List.cons_ne_nil _ _)

lemma assignment_yields_wellFormed : Yields good assignment fun a => a.expr.WellFormed :=
  assignment_yields expression_yields_wellFormed

lemma eval_yields_wellFormed [Libraries] : Yields good eval Stage.WellFormed := by
  refine .bind assignment_yields_wellFormed fun first hfirst => ?_
  refine .bind (P := fun more => ∀ a ∈ more, a.expr.WellFormed) (.many fun t rest p hturn _ => ?_)
    fun more hmore => .pure ⟨List.cons_ne_nil _ _, List.forall_mem_cons.2 ⟨hfirst, hmore⟩⟩
  split_ifs at hturn
  cases hturn
  exact .map assignment_yields_wellFormed fun a ha b hb => by
    cases hb
    exact ha

lemma frequent_yields_wellFormed [Libraries] (which : Frequency) :
    Yields good (frequent which) Stage.WellFormed := by
  refine .bind_of_forall fun k => ?_
  split_ifs
  · exact .bind_of_forall fun _ => .bind fieldList_yields_ne_nil fun names h =>
      .bind_of_forall fun _ => .pure h
  · exact .bind_of_forall fun _ => .bind fieldList_yields_ne_nil fun names h =>
      .bind_of_forall fun _ => .pure h

/-- The span that was read last is kept, whatever is read besides. -/
lemma bin_yields_wellFormed [Libraries] (command : Token) : Yields good
    (bin command) Stage.WellFormed := by
  refine .bind (P := fun parts => ∀ span ∈ parts.span, span.WellFormed)
    (.iterate (fun parts hparts t rest p hturn _ => ?_) (by simp)) fun parts hparts => ?_
  · split_ifs at hturn
    · cases hturn
      refine .bind_of_forall fun _ => .bind spanValue_yields_wellFormed fun span hspan => .pure ?_
      simpa using hspan
    · cases hturn
      exact .bind_of_forall fun _ => .pure hparts
    · cases hturn
      exact .bind_of_forall fun _ => .pure hparts
    · cases hturn
      exact .failAt
  · split
    · exact .fail
    · exact .failAt
    · next span _ hspan => exact .pure (hparts span hspan)

lemma parameter_yields {α : Type} {name : String} {p : Parser α} {Q : α → Prop}
    (h : Yields good p Q) : Yields good (parameter name p) fun o => ∀ a ∈ o, Q a := by
  refine .optional fun t rest q hturn _ => ?_
  split_ifs at hturn
  cases hturn
  exact .bind_of_forall fun _ => h

/-- Of the spans that were read, or else an hour, one is kept. -/
lemma timechart_yields_wellFormed [Libraries] : Yields good timechart Stage.WellFormed := by
  have hspan : Yields good (parameter "span" spanValue) fun o => ∀ span ∈ o, span.WellFormed :=
    parameter_yields spanValue_yields_wellFormed
  have hkept : ∀ first second third : Option Span, (∀ span ∈ first, span.WellFormed) →
      (∀ span ∈ second, span.WellFormed) → (∀ span ∈ third, span.WellFormed) →
        ((third <|> second <|> first).getD (.time 1 .hour)).WellFormed := by
    intro first second third hfirst hsecond hthird
    cases third with
    | some span => exact hthird span rfl
    | none =>
      cases second with
      | some span => exact hsecond span rfl
      | none =>
        cases first with
        | some span => exact hfirst span rfl
        | none => exact Nat.one_pos
  refine .bind hspan fun first hfirst => .bind aggregations_yields_wellFormed fun all hall =>
    .bind hspan fun second hsecond => .bind_of_forall fun byClause => ?_
  split_ifs
  · exact .bind_of_forall fun _ => .bind hspan fun third hthird =>
      .pure ⟨hkept first second third hfirst hsecond hthird, hall⟩
  · exact .bind_of_forall fun _ => .bind hspan fun third hthird =>
      .pure ⟨hkept first second third hfirst hsecond hthird, hall⟩

lemma rex_yields_wellFormed [Libraries] : Yields good rex Stage.WellFormed := by
  refine .bind_of_forall fun field => .bind_of_forall fun t => ?_
  split_ifs with _ hpattern
  · exact .pure hpattern
  · exact .failAt
  · exact .failAt

lemma stageOf_yields_wellFormed [Libraries] (token : Token) (command : Command) :
    Yields good (stageOf token command) Stage.WellFormed := by
  cases command with
  | search | filter | where_ => exact filter_yields_wellFormed _
  | stats => exact stats_yields_wellFormed
  | sort => exact sort_yields_wellFormed
  | limit | head | tail => exact limit_yields_wellFormed _
  | dedup | table => exact .map fieldList_yields_ne_nil fun _ h => h
  | fields => exact fields_yields_wellFormed
  | rename => exact rename_yields_wellFormed
  | eval => exact eval_yields_wellFormed
  | top | rare => exact frequent_yields_wellFormed _
  | bin => exact bin_yields_wellFormed _
  | timechart => exact timechart_yields_wellFormed
  | rex => exact rex_yields_wellFormed

end Parser

/-- Whatever the tokens and the limits are, the pipeline that is read is well-formed. -/
theorem wellFormed_of_parseTokens [Libraries] {limits : ParserLimits} {ts : List Token}
    {p : Pipeline} (h : parseTokens limits ts = .ok p) : p.WellFormed := by
  obtain ⟨stop, body, rest, -, -, hstages⟩ := parseTokens_eq_ok h
  have hall : ∀ t ∈ body, True := fun _ _ => trivial
  exact Parser.stages_yields Parser.stageOf_yields_wellFormed hall hstages

/-- Tokens without an end and all at one place, which no text has. -/
theorem wellFormed_of_parseTokens_handmade :
    let ts : List Token := [(.command .where_, "where"), (.identifier, "a"), (.clause .in_, "IN"),
      (.symbol .lParen, "("), (.identifier, "b"), (.identifier, "null"), (.symbol .rParen, ")"),
      (.symbol .pipe, "|"), (.command .timechart, "timechart"), (.identifier, "span"),
      (.symbol .eq, "="), (.string, "5m"), (.identifier, "p95"), (.symbol .lParen, "("),
      (.identifier, "x"), (.symbol .rParen, ")")].map fun x => ⟨x.1, x.2, .start⟩
    let p : Pipeline := ⟨[.filter .where_ [.compare "a" .isIn (.list [.string "b", .null]) false],
      .timechart (.time 5 .minute) [⟨.percentile 95, some "x", none⟩] none]⟩
    parseTokens ⟨20, 3⟩ ts = .ok p ∧ p.WellFormed := by
  intro ts p
  have hparse : parseTokens ⟨20, 3⟩ ts = .ok p := by with_unfolding_all rfl
  exact ⟨hparse, wellFormed_of_parseTokens hparse⟩

end LogQuery
