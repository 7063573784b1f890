import LogQuery.CommandLine.Libraries
import LogQuery.Proofs.Compile.Statement
import LogQuery.Proofs.Number.Reading
import LogQuery.Proofs.Number.Shortest
import LogQuery.Proofs.Parser.ConditionRederivation
import LogQuery.Proofs.Parser.SingleStage

namespace LogQuery

open Lexer

/-- The value that the digits of a natural number are read as. -/
def Value.ofNat (n : Nat) : Value :=
  if (Binary64.ofNat n).isFinite then .number (.ofNat n) else .string (toString n)

/-- The operator of SQL for a comparison with a number. -/
def Comparison.operator? : Comparison → Option Sql.Operator
  | .eq => some .eq
  | .notEq => some .notEq
  | .lt => some .lt
  | .ltEq => some .ltEq
  | .gt => some .gt
  | .gtEq => some .gtEq
  | _ => none

variable {comparison : Comparison} {op : Sql.Operator} {n : Nat}

/-! ### Reading -/

namespace Parser

variable {s : Setting} {t : Token} {ts : List Token}

/-- The digits of a number are read as the binary64 number nearest to it. -/
lemma reads_valueAt_natural (what : Expectation) (hkind : t.kind = .number)
    (htext : t.text = toString n) (hts : (t :: ts).IsChain Apart) :
    (valueAt what t).Reads s ts (.ofNat n) ts := by
  rw [valueAt, valueBy, hkind]
  refine reads_bind.2 ⟨t.text, ts, reads_glue (by rw [hkind]; rfl) hts, ?_⟩
  rw [htext, Binary64.ofText?_toString]
  simp [Value.ofNat, reads_pure]

/-- A word, a comparison and digits are one condition. -/
lemma reads_conditions_natural (hop : comparison.operator? = some op) {field number : Token}
    {signs : List Token} (hfield : field.kind = .identifier)
    (hsigns : signs.map Token.spelling = comparison.spelling) (hkind : number.kind = .number)
    (htext : number.text = toString n) :
    conditions.Reads s (field :: (signs ++ [number]))
      [.compare field.text comparison (.ofNat n) false] [] := by
  have hterm : (termAt field).Reads s (signs ++ [number])
      (some (.compare field.text comparison (.ofNat n) false)) [] := by
    refine reads_termAt_single (by rw [hfield]; rfl) ?_ ?_ hsigns fun what =>
      reads_valueAt_natural what hkind htext (.singleton _)
    · rintro rfl
      cases hop
    · rintro rfl
      cases hop
  have hderives : Derives s .disjunction (field :: (signs ++ [number])) []
      (.any [.all [.term (some (.compare field.text comparison (.ofNat n) false))]]) := by
    refine .disjunction (.member ?_ (.term ?_ ?_ hterm) .done) .noMore
    · rw [IsConnective, hfield]
      rintro (h | h) <;> cases h
    · rw [hfield]
      rintro ⟨⟩
    · rw [hfield]
      rintro ⟨⟩
  have hends : EndsStage [] := by
    rintro t ⟨⟩
  exact hderives.reads_conditions (Nat.zero_le _) hends

end Parser

/-- The query that compares `id` with a natural number. -/
def comparisonQuery (comparison : Comparison) (n : Nat) : String :=
  "search id" ++ comparison.display ++ toString n

lemma spells_sign (hop : comparison.operator? = some op) {previous : Option TokenKind}
    {rest : List Char} (hrest : rest.head?.any (· = '=') = false) :
    Spells previous comparison.display.toList comparison.spelling rest := by
  cases comparison with
  | eq | lt | gt => exact spells_comparison rfl hrest
  | ltEq | gtEq => exact spells_comparisonEquals rfl
  | notEq => exact spells_notEqual
  | contains | isIn | notIn => cases hop

/-- The query is made of four tokens. -/
lemma spells_comparisonQuery (hop : comparison.operator? = some op) (n : Nat) :
    Spells none (comparisonQuery comparison n).toList
      ((.command .search, "search") :: (.identifier, "id") ::
        (comparison.spelling ++ [(.number, toString n)])) [] := by
  have hne := Binary64.toString_toList_ne_nil n
  have hdigits : ∀ c ∈ (toString n).toList, c.isDigit = true :=
    fun c hc => Binary64.isDigit_of_mem_toString hc
  have hequals : ((toString n).toList ++ []).head?.any (· = '=') = false := by
    obtain ⟨c, more, htext⟩ := List.exists_cons_of_ne_nil hne
    have hc : c.isDigit = true := hdigits c (htext ▸ List.mem_cons_self)
    rw [htext]
    refine decide_eq_false ?_
    rintro rfl
    cases hc
  have hsearch : ∀ more, Spells none "search".toList [(.command .search, "search")]
      ([' '] ++ more) := fun _ => spells_word (isWord_of_all rfl rfl) endsText_space
  have hcommand : ∀ more, Spells none "search ".toList [(.command .search, "search")] more :=
    fun more => (hsearch more).append spells_space
  have hfield : ∀ previous, Spells previous "id".toList [(.identifier, "id")]
      (comparison.display.toList ++ (toString n).toList ++ []) := by
    intro previous
    rw [List.append_assoc]
    refine spells_word (isWord_of_all rfl rfl) ?_
    cases comparison with
    | isIn | notIn => cases hop
    | _ => exact endsText_cons (by decide)
  have hnumber : ∀ previous, Spells previous (toString n).toList [(.number, toString n)] [] :=
    fun _ => spells_numeral (.whole hne hdigits) endsText_nil
  have hrow := (hcommand _).append
    ((hfield _).append ((spells_sign hop hequals).append (hnumber _)))
  rw [comparisonQuery]
  simpa using hrow

/-- The query is read as one comparison with the nearest binary64 number. -/
lemma parseQuery_comparisonQuery [Libraries] (hop : comparison.operator? = some op) (n : Nat)
    {limits : ParserLimits} (hlimit : 4 ≤ limits.maxTokens) :
    parseQuery limits (comparisonQuery comparison n) =
      .ok ⟨[.filter .search [.compare "id" comparison (.ofNat n) false]]⟩ := by
  obtain ⟨front, stop, hparted, hfront⟩ := (spells_comparisonQuery hop n).exists_tokens .start
  obtain ⟨t, body, rfl, ht, hbody⟩ := List.map_eq_cons_iff.1 hfront
  obtain ⟨field, body, rfl, hfield, hbody⟩ := List.map_eq_cons_iff.1 hbody
  obtain ⟨signs, body, rfl, hsigns, hbody⟩ := List.map_eq_append_iff.1 hbody
  obtain ⟨number, rfl, hnumber⟩ := List.map_eq_singleton_iff.1 hbody
  obtain ⟨hfield, htext⟩ := Token.spelling_eq.1 hfield
  obtain ⟨hnumber, hdigits⟩ := Token.spelling_eq.1 hnumber
  have hread := Parser.reads_conditions_natural (s := ⟨stop, limits.maxDepth⟩) hop hfield hsigns
    hnumber hdigits
  rw [htext] at hread
  have hlength : signs.length = 1 := by
    rw [← List.length_map (f := Token.spelling), hsigns]
    cases comparison with
    | contains | isIn | notIn => cases hop
    | _ => rfl
  refine parseQuery_of_stage hparted.lexing (Token.spelling_eq.1 ht).1
    (Parser.reads_map.2 ⟨_, hread, rfl⟩) ?_
  simpa [hlength] using hlimit

/-! ### The statement -/

lemma not_mem_toString {c : Char} (h : c.isDigit = false) : c ∉ (toString n).toList := by
  intro hc
  rw [Binary64.isDigit_of_mem_toString hc] at h
  cases h

/-- Digits hold no wildcard, so they are compared as they are, also where they form a text. -/
lemma toSql_ofNat (hop : comparison.operator? = some op) (d : Dialect) (n : Nat) :
    comparison.toSql d "id" (.ofNat n) = .binary op (.column "id") (.ofValue (.ofNat n)) := by
  have hwildcard : Sql.hasWildcard (toString n) = false := by
    rw [Sql.hasWildcard, List.contains_eq_mem]
    exact decide_eq_false (not_mem_toString rfl)
  rw [Value.ofNat]
  generalize toString n = digits at hwildcard
  have hlevel : Comparison.orderedValue "id" (.string digits) = .string digits := rfl
  split_ifs
  · cases comparison <;> cases hop <;> rfl
  · cases comparison <;> cases hop <;>
      simp [Comparison.toSql, Comparison.isRelational, hwildcard, hlevel]

/-- Digits need no escape between quotes. -/
lemma quoteText_toString (d : Dialect) (n : Nat) :
    Sql.quoteText d (toString n) = "'" ++ toString n ++ "'" := by
  have hescape : ∀ c ∈ (toString n).toList, Sql.escapeInText d c = [c] := by
    intro c hc
    have hquote : c ≠ '\'' := by
      rintro rfl
      exact not_mem_toString rfl hc
    have hbackslash : c ≠ '\\' := by
      rintro rfl
      exact not_mem_toString rfl hc
    rw [Sql.escapeInText, if_neg hquote, if_neg (fun h => hbackslash h.1)]
  have hsame : (toString n).toList.flatMap (Sql.escapeInText d) = (toString n).toList := by
    rw [List.flatMap_congr hescape, List.flatMap_singleton']
  refine String.toList_inj.1 ?_
  rw [Sql.quoteText, hsame]
  simp

/-- What a column is compared with. -/
lemma render_ofNat (d : Dialect) (n : Nat) : (Sql.Expr.ofValue (.ofNat n)).render d =
    if (Binary64.ofNat n).isFinite then (Binary64.ofNat n).plain else "'" ++ toString n ++ "'" := by
  rw [Value.ofNat]
  split_ifs
  · rfl
  · exact quoteText_toString d n

lemma clause_singleton (keyword separator item : String) :
    Statement.clause keyword separator [item] = " " ++ keyword ++ " " ++ item := rfl

/-- Without another order the latest rows come first. -/
lemma clause_latestFirst (d : Dialect) :
    Statement.clause "ORDER BY" ", " [OrderKey.render d ⟨.table Column.timestamp, .descending⟩] =
      " ORDER BY timestamp DESC" := by
  have htime : Sql.identifier d Column.timestamp = Column.timestamp := if_pos (by decide)
  rw [OrderKey.render, ColumnRef.render, ColumnRef.name, htime]
  decide

/-- The text of a statement that selects the rows of a table by a condition. -/
def selectWhere (table condition : String) (limit : Nat) : String :=
  "SELECT timestamp, hostname, app_name, severity, message FROM " ++ table ++ " WHERE " ++ condition
    ++ " ORDER BY timestamp DESC" ++ " LIMIT " ++ toString limit

/-- A statement that only its filter sets apart. -/
lemma render_filtered (d : Dialect) (table : String) (e : Sql.Expr) (limit : Nat) :
    Statement.render d ⟨false, Column.defaults.map Draft.tableItem, table, [e], [],
      [⟨.table Column.timestamp, .descending⟩], some limit⟩ =
      selectWhere table (e.render d) limit := by
  have hitems : (Column.defaults.map Draft.tableItem).map (SelectItem.render d) = Column.defaults :=
    Draft.render_tableItems d fun _ h => h
  have hsome : (Column.defaults.map Draft.tableItem).isEmpty = false := rfl
  have hselect : "SELECT " ++ "" ++ String.intercalate ", " Column.defaults ++ " FROM " =
      "SELECT timestamp, hostname, app_name, severity, message FROM " := by decide
  have hnil : Statement.clause "GROUP BY" ", " [] = "" := rfl
  have hwhere : " " ++ "WHERE" ++ " " = " WHERE " := by decide
  have hlimit : " " ++ "LIMIT" ++ " " = " LIMIT " := by decide
  unfold selectWhere
  simp only [Statement.render_eq, Statement.beginning, Statement.ending, hsome, hitems,
    List.map_cons, List.map_nil, Option.map_some, Option.toList_some, clause_latestFirst, hnil]
  rw [clause_singleton, clause_singleton, hwhere, hlimit, ← hselect]
  simp only [Bool.false_eq_true, if_false, String.append_empty, String.empty_append,
    String.append_assoc]

lemma render_binary_id (d : Dialect) (op : Sql.Operator) (e : Sql.Expr) :
    (Sql.Expr.binary op (.column "id") e).render d = "id " ++ op.text ++ " " ++ e.render d := by
  have hid : Sql.identifier d "id" = "id" := if_pos (by decide)
  have hspace : "id " = "id" ++ " " := by decide
  change String.intercalate (" " ++ op.text ++ " ") [Sql.identifier d "id", e.render d] = _
  rw [hid, hspace, String.intercalate_cons_cons, String.intercalate_singleton]
  simp only [String.append_assoc]

/-- Digits between quotes are not digits alone. -/
lemma quoted_ne_toString (n m : Nat) : "'" ++ toString n ++ "'" ≠ toString m := by
  intro h
  have hquote : '\'' ∈ (toString m).toList := by
    rw [← h]
    simp
  exact not_mem_toString rfl hquote

namespace Config

/-- The statement compares the column with the text of the nearest binary64 number. -/
lemma compile_comparisonQuery [Libraries] (hop : comparison.operator? = some op) (c : Config)
    (hlimit : 4 ≤ c.maxTokens) (d : Dialect) (n : Nat) :
    c.compile (comparisonQuery comparison n) d none none =
      .ok (selectWhere (c.table d)
        ("id " ++ op.text ++ " " ++ (Sql.Expr.ofValue (.ofNat n)).render d) c.defaultLimit) := by
  refine Config.compile_eq_ok.2 ⟨_, parseQuery_comparisonQuery hop n hlimit, ?_⟩
  refine Pipeline.compile_eq_ok.2 ⟨none, none, rfl, rfl, ?_⟩
  have hid : Column.ofField "id" = "id" := by decide
  have htest : Condition.toSql d (.compare "id" comparison (.ofNat n) false) =
      .binary op (.column "id") (.ofValue (.ofNat n)) := by
    rw [← toSql_ofNat hop, ← hid]
    rfl
  have hrender := render_filtered d (c.table d) (.binary op (.column "id") (.ofValue (.ofNat n)))
    c.defaultLimit
  rw [← htest] at hrender
  rw [← render_binary_id, ← htest]
  exact hrender.symm

/-- A column that is compared with a natural number is compared with its digits just if it is, of
the natural numbers that are rounded to the same number, the shortest, which all are up to
`2 ^ 53`. The digits of another number are those of the shortest one, and a number that is too large
is a text. -/
theorem compile_comparison [Libraries] (hop : comparison.operator? = some op) (c : Config)
    (hlimit : 4 ≤ c.maxTokens) (d : Dialect) (n : Nat) :
    ∃ rhs, c.compile (comparisonQuery comparison n) d none none =
        .ok (selectWhere (c.table d) ("id " ++ op.text ++ " " ++ rhs) c.defaultLimit) ∧
      (rhs = toString n ↔ n < twoTo 1024 - twoTo 970 ∧ (Binary64.ofNat n).IsShortest n) ∧
      (n ≤ twoTo 53 → rhs = toString n) ∧
      (n < twoTo 1024 - twoTo 970 →
        ∃ shortest, (Binary64.ofNat n).IsShortest shortest ∧ rhs = toString shortest) ∧
      (twoTo 1024 - twoTo 970 ≤ n → rhs = "'" ++ toString n ++ "'") := by
  refine ⟨_, compile_comparisonQuery hop c hlimit d n, ?_⟩
  rw [render_ofNat]
  by_cases hfinite : (Binary64.ofNat n).isFinite
  · have hbound := (Binary64.isFinite_ofNat_iff n).1 hfinite
    have hown := Binary64.plain_eq_toString_iff (m := n) hfinite
    rw [if_pos hfinite]
    refine ⟨⟨fun h => ⟨hbound, hown.1 h⟩, fun h => hown.2 h.2⟩, ?_, ?_, ?_⟩
    · exact fun hle => hown.2 (Binary64.isShortest_of_le hle)
    · exact fun _ => Binary64.exists_isShortest_plain hfinite
    · exact fun hge => absurd hbound (Nat.not_lt.2 hge)
  · have hbound : ¬ n < twoTo 1024 - twoTo 970 := mt (Binary64.isFinite_ofNat_iff n).2 hfinite
    have hbits : twoTo 53 < twoTo 1024 - twoTo 970 := by decide +kernel
    have hsmall : ¬ n ≤ twoTo 53 := fun hle => hbound (hle.trans_lt hbits)
    rw [if_neg hfinite]
    refine ⟨⟨fun h => absurd h (quoted_ne_toString n n), fun h => absurd h.1 hbound⟩, ?_, ?_, ?_⟩
    · exact fun hle => absurd hle hsmall
    · exact fun hlt => absurd hlt hbound
    · exact fun _ => rfl

/-- The largest number up to which all are compared as they are. -/
theorem compile_comparison_twoTo : ∃ rhs,
    Config.compile {} (comparisonQuery .ltEq 9007199254740992) .sqlite none none =
      .ok (selectWhere "logs" ("id <= " ++ rhs) 1000) ∧ rhs = "9007199254740992" := by
  obtain ⟨rhs, hcompile, -, hown, -⟩ :=
    @compile_comparison .ltEq .ltEq _ rfl {} (by decide) .sqlite 9007199254740992
  exact ⟨rhs, hcompile, hown (by decide)⟩

/-- The next number is compared as the one before it. -/
theorem compile_comparison_rounds :
    ¬ ∀ n, Config.compile {} (comparisonQuery .eq n) .sqlite none none =
      .ok (selectWhere "logs" ("id = " ++ toString n) 1000) := by
  intro h
  have hother : Config.compile {} (comparisonQuery .eq 9007199254740993) .sqlite none none ≠
      .ok (selectWhere "logs" "id = 9007199254740993" 1000) := by
    decide +kernel
  exact hother (h 9007199254740993)

end Config

end LogQuery
