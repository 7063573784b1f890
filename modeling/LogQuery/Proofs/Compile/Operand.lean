import LogQuery.CommandLine.Libraries
import LogQuery.Proofs.Compile.Tame
import LogQuery.Proofs.Sql.Delimited
import LogQuery.Proofs.Sql.Word
import LogQuery.Proofs.Syntax.Part

namespace LogQuery

open Sql

variable {d : Dialect}

/-! ### Open functions -/

namespace EvalFunction

/-- The call of the function is written as an operator with no parentheses around it. -/
inductive IsOpen (d : Dialect) : EvalFunction → List EvalExpr → Prop where
  | regexMatch {e pattern : EvalExpr} : d = .sqlite → (patternOf? pattern).isSome = true →
      IsOpen d .match_ [e, pattern]
  | inRange {block e : EvalExpr} : ((textOf? block).bind AddressRange.ofText?).isSome = true →
      IsOpen d .cidrMatch [block, e]
  | isPublic {e : EvalExpr} : answerOf? .isPublic e = none → IsOpen d (.address .isPublic) [e]

end EvalFunction

namespace Dialect

open Sql.Expr

variable {e : Expr} {es : List Expr}

lemma delimited_conditional {branches : List (Expr × Expr)} (h : ∀ b ∈ branches, b.1.Tame)
    (h' : ∀ b ∈ branches, b.2.Tame) (he : e.Tame) :
    Delimited d ((d.conditional branches e).render d) := by
  have htame := tame_conditional (d := d) h h' he
  cases d with
  | sqlite => exact .caseWhen htame
  | clickHouse =>
    cases htame with
    | call _ hargs => exact .call (by split_ifs <;> decide) hargs

lemma delimited_concat (h : ∀ e ∈ es, e.Tame) : Delimited d ((d.concat es).render d) := by
  cases d with
  | clickHouse => exact .call (by decide) h
  | sqlite =>
    unfold concat
    dsimp only
    split_ifs
    · exact .text
    · exact .paren (.chain h)

lemma delimited_substring (h : ∀ e ∈ es, e.Tame) : Delimited d ((d.substring es).render d) := by
  cases d <;> exact .call (by decide) h

lemma delimited_toText (h : e.Tame) : Delimited d ((d.toText e).render d) := by
  cases d with
  | clickHouse => exact .call (by decide) (by simpa using h)
  | sqlite => exact .cast h .text

lemma delimited_toNumber (h : e.Tame) : Delimited d ((d.toNumber e).render d) := by
  cases d with
  | clickHouse => exact .call (by decide) (by simpa using .call₁ (by decide) h)
  | sqlite => exact .cast h .real

lemma delimited_naturalLog (h : e.Tame) : Delimited d ((d.naturalLog e).render d) := by
  cases d <;> exact .call (by decide) (by simpa using h)

lemma delimited_now : Delimited d (d.now.render d) := by
  cases d with
  | clickHouse => exact .call (by decide) (by simp)
  | sqlite => exact .call (by decide) (by simp)

/-- Only SQLite writes a match as an operator with bare operands. -/
lemma delimited_regexMatch_iff (h : e.Tame) (pattern : String) :
    Delimited d ((d.regexMatch e pattern).render d) ↔ d ≠ .sqlite := by
  cases d with
  | clickHouse => exact iff_of_true (.call (by decide) (by simpa using h)) (by decide)
  | sqlite => exact iff_of_false (Expr.not_delimited_regexp h pattern) (by decide)

/-- The test of one range stands without parentheses. -/
lemma not_delimited_inRange (h : e.Tame) (r : AddressRange) :
    ¬ Delimited d ((d.inRange e r).render d) := by
  cases d with
  | clickHouse =>
    exact not_delimited_between (.call₁ (by decide) h) (getLast?_call _ _) (by decide)
  | sqlite =>
    obtain ⟨c, hlast, hc⟩ := exists_getLast?_toString r.last.value
    exact not_delimited_between (tame_addressNumber h) hlast hc

/-- The test of several ranges stands in parentheses. -/
lemma delimited_inSomeRange (h : e.Tame) (ranges : List AddressRange) :
    Delimited d ((d.inSomeRange e ranges).render d) := by
  cases tame_inSomeRange (d := d) h ranges with
  | paren hchain => exact .paren hchain

lemma delimited_ofAnswer (answer : AddressAnswer) :
    Delimited d ((ofAnswer answer).render d) := by
  cases answer with
  | label c => exact .text
  | flag holds => exact .nat

/-- Of the questions about addresses, one is asked by a negation. -/
lemma delimited_ask_iff (h : e.Tame) (q : AddressQuestion) :
    Delimited d ((d.ask q e).render d) ↔ q ≠ .isPublic := by
  cases q with
  | classify =>
    refine iff_of_true (delimited_conditional (fun b hb => ?_) (fun b hb => ?_) .text) (by decide)
    · obtain ⟨r, -, rfl⟩ := List.mem_map.1 hb
      exact tame_inRange h r.1
    · obtain ⟨r, -, rfl⟩ := List.mem_map.1 hb
      exact .text
  | isPublic => exact iff_of_false (Expr.not_delimited_not_paren _) (by decide)
  | isPrivate | isInternal | isLoopback | isLinkLocal | isMulticast | isReserved =>
    exact iff_of_true (delimited_inSomeRange h _) (by decide)

end Dialect

/-! ### Calls -/

namespace EvalFunction

variable {function : EvalFunction} {args : List EvalExpr} {es : List Expr} {e : Expr}

lemma solid_sqlName {name : String} (h : function.sqlName? = some name) : Solid name := by
  cases function <;> cases h <;> decide

/-- A call that is open is one that the function has a meaning for. -/
lemma IsOpen.isSome_toSql? (h : function.IsOpen d args) (hlength : es.length = args.length) :
    (function.toSql? d args es).isSome = true := by
  cases h with
  | @regexMatch e pattern hd hpattern =>
    obtain ⟨x, y, rfl⟩ := List.length_eq_two.1 hlength
    rwa [toSql?, Option.isSome_map]
  | @inRange block e hblock =>
    obtain ⟨x, y, rfl⟩ := List.length_eq_two.1 hlength
    rwa [toSql?, Option.isSome_map]
  | isPublic =>
    obtain ⟨x, rfl⟩ := List.length_eq_one_iff.1 hlength
    rfl

/-- A known function is delimited unless it is one of those that are open. -/
lemma delimited_iff_not_isOpen_of_toSql? (hes : ∀ e ∈ es, e.Tame)
    (h : function.toSql? d args es = some e) :
    Delimited d (e.render d) ↔ ¬ function.IsOpen d args := by
  simp only [toSql?] at h
  -- One case for each row of the table of functions; the last is for those with a name in SQL.
  split at h
  · cases h
    refine iff_of_true (Dialect.delimited_conditional ?_ ?_ (hes _ (by simp))) (by rintro ⟨⟩)
    · simpa using hes _ (by simp)
    · simpa using hes _ (by simp)
  · cases h
    obtain ⟨htaken, hotherwise⟩ := tame_branches hes
    refine iff_of_true (Dialect.delimited_conditional (fun b hb => (htaken b hb).1)
      (fun b hb => (htaken b hb).2) ?_) (by rintro ⟨⟩)
    cases hlast : (branches es).2 with
    | none => exact .null
    | some last => exact hotherwise last hlast
  · cases h
    exact iff_of_true (Dialect.delimited_concat hes) (by rintro ⟨⟩)
  · cases h
    exact iff_of_true (Dialect.delimited_substring hes) (by rintro ⟨⟩)
  · cases h
    exact iff_of_true (Dialect.delimited_toText (hes _ (by simp))) (by rintro ⟨⟩)
  · cases h
    exact iff_of_true (Dialect.delimited_toNumber (hes _ (by simp))) (by rintro ⟨⟩)
  · cases h
    exact iff_of_true (Dialect.delimited_naturalLog (hes _ (by simp))) (by rintro ⟨⟩)
  · cases h
    exact iff_of_true Dialect.delimited_now (by rintro ⟨⟩)
  · cases h
    exact iff_of_true (.paren (.nullTest (hes _ (by simp)))) (by rintro ⟨⟩)
  · cases h
    exact iff_of_true (.paren (.nullTest (hes _ (by simp)))) (by rintro ⟨⟩)
  · next a pattern e b =>
    obtain ⟨text, htext, rfl⟩ := Option.map_eq_some_iff.1 h
    rw [Dialect.delimited_regexMatch_iff (hes _ (by simp)), not_iff_not]
    constructor
    · intro hd
      exact .regexMatch hd (by rw [htext]; rfl)
    · rintro ⟨⟩
      assumption
  · cases h
    exact iff_of_true (.paren (.binary (hes _ (by simp)) (hes _ (by simp)))) (by rintro ⟨⟩)
  · next block a b e =>
    obtain ⟨range, hrange, rfl⟩ := Option.map_eq_some_iff.1 h
    refine iff_of_false (Dialect.not_delimited_inRange (hes _ (by simp)) range) (not_not_intro ?_)
    exact .inRange (by rw [hrange]; rfl)
  · next q arg e =>
    cases h
    cases hanswer : answerOf? q arg with
    | none =>
      rw [Option.getD_none, Dialect.delimited_ask_iff (hes _ (by simp)), Ne, not_iff_not]
      constructor
      · rintro rfl
        exact .isPublic hanswer
      · rintro ⟨⟩
        rfl
    | some answer =>
      obtain ⟨text, -, haddress⟩ := Option.bind_eq_some_iff.1 hanswer
      obtain ⟨address, -, hreturn⟩ := Option.bind_eq_some_iff.1 haddress
      cases hreturn
      refine iff_of_true (Dialect.delimited_ofAnswer _) ?_
      rintro ⟨⟩
      simp_all
  · next hrows =>
    obtain ⟨name, hname, rfl⟩ := Option.map_eq_some_iff.1 h
    refine iff_of_true (.call (solid_sqlName hname) hes) ?_
    rintro ⟨⟩ <;> cases hname

end EvalFunction

namespace EvalExpr

/-- The expression is a call that is written as an operator with no parentheses around it. -/
def IsOpen (d : Dialect) : EvalExpr → Prop
  | .call name args => ∃ function, EvalFunction.ofCall? name args.length = some function ∧
      function.IsOpen d args
  | _ => False

variable {P Q : String → Prop} {e x : EvalExpr}

lemma Calls.mono (h : e.Calls P) (hPQ : ∀ name, P name → Q name) : e.Calls Q := by
  induction h with
  | literal => exact .literal
  | field => exact .field
  | binary _ _ ihleft ihright => exact .binary ihleft ihright
  | call hname _ ih => exact .call (hPQ _ hname) ih

/-- What holds of all calls in an expression holds of those in its parts. -/
lemma Calls.of_isPart (h : e.Calls P) (hx : x.IsPart e) : x.Calls P := by
  induction hx with
  | self => exact h
  | left _ ih =>
    cases h with
    | binary hleft _ => exact ih hleft
  | right _ ih =>
    cases h with
    | binary _ hright => exact ih hright
  | arg ha _ ih =>
    cases h with
    | call _ hargs => exact ih (hargs _ ha)

lemma delimited_ofValue (v : Value) : Delimited d ((Expr.ofValue v).render d) := by
  cases v with
  | string s => exact .text
  | regex s => exact .text
  | number x => exact .number
  | null => exact .null
  | list items => exact .tuple (Expr.tame_ofValues items)

/-- An expression with solid names of functions delimits itself just if it is not open. -/
lemma Calls.delimited_iff (h : e.Calls Solid) :
    Delimited d ((e.toSql d).render d) ↔ ¬ e.IsOpen d := by
  have htame {x : EvalExpr} (hx : x.Calls Solid) : (x.toSql d).Tame :=
    (hx.mono fun _ hname => hname.bare).tame_toSql
  cases h with
  | @literal value => exact iff_of_true (delimited_ofValue value) id
  | field => exact iff_of_true .name id
  | binary hleft hright => exact iff_of_true (.paren (.binary (htame hleft) (htame hright))) id
  | @call name args hname hargs =>
    have hes : ∀ y ∈ allToSql d args, y.Tame := by
      intro y hy
      rw [allToSql_eq_map, List.mem_map] at hy
      obtain ⟨a, ha, rfl⟩ := hy
      exact htame (hargs a ha)
    have hlength : (allToSql d args).length = args.length := by
      rw [allToSql_eq_map, List.length_map]
    rw [toSql, callToSql, IsOpen]
    cases hfunction : EvalFunction.ofCall? name args.length with
    | none =>
      refine iff_of_true (.call hname hes) ?_
      rintro ⟨function, ⟨⟩, -⟩
    | some function =>
      have hopen : (∃ f, some function = some f ∧ f.IsOpen d args) ↔ function.IsOpen d args := by
        simp
      rw [hopen, Option.bind_some]
      cases hsql : function.toSql? d args (allToSql d args) with
      | none =>
        refine iff_of_true (.call hname hes) fun hopen => ?_
        have hsome := hopen.isSome_toSql? hlength
        rw [hsql] at hsome
        cases hsome
      | some e => exact EvalFunction.delimited_iff_not_isOpen_of_toSql? hes hsql

end EvalExpr

/-! ### Queries -/

/-- Every part of every expression of a query delimits itself in SQL, apart from the calls that are
open. So `cidrmatch("10.0.0.0/8", src) + 1` adds one to the upper bound of the range. -/
theorem delimited_iff_not_isOpen [Libraries] {limits : ParserLimits} {query : String} {p : Pipeline}
    (h : parseQuery limits query = .ok p) {assignments : List Assignment}
    (hstage : Stage.eval assignments ∈ p.stages) {a : Assignment} (ha : a ∈ assignments)
    {x : EvalExpr} (hx : x.IsPart a.expr) (d : Dialect) :
    Delimited d ((x.toSql d).render d) ↔ ¬ x.IsOpen d := by
  have hmeets : ∀ stage ∈ p.stages, stage.Meets (fun _ => True) (EvalExpr.Calls Solid) :=
    parseQuery_meets .trivial
      (Parser.expression_yields fun t ht hword => Text.solid_lowercase (ht hword)) h
      fun tokens htokens => solid_of_mem_tokenize htokens
  have hcalls : a.expr.Calls Solid := hmeets _ hstage a ha
  exact (hcalls.of_isPart hx).delimited_iff

/-- The test of a range to which `cidrmatch("10.0.0.0/8", src) + y` adds is open, and the sum is
not. -/
theorem delimited_iff_not_isOpen_cidrMatch :
    let test : EvalExpr := .call "cidrmatch" [.literal (.string "10.0.0.0/8"), .field "src"]
    let whole : EvalExpr := .binary .add test (.field "y")
    parseQuery (Config.parserLimits {}) "eval x = cidrmatch(\"10.0.0.0/8\", src) + y" =
        .ok ⟨[.eval [⟨"x", whole⟩]]⟩ ∧
      (test.toSql .clickHouse).render .clickHouse =
        "toIPv4OrNull(src) BETWEEN toIPv4('10.0.0.0') AND toIPv4('10.255.255.255')" ∧
      ¬ Delimited .clickHouse ((test.toSql .clickHouse).render .clickHouse) ∧
      Delimited .clickHouse ((whole.toSql .clickHouse).render .clickHouse) := by
  intro test whole
  have hp : parseQuery (Config.parserLimits {}) "eval x = cidrmatch(\"10.0.0.0/8\", src) + y" =
      .ok ⟨[.eval [⟨"x", whole⟩]]⟩ := by with_unfolding_all rfl
  have htest := delimited_iff_not_isOpen hp List.mem_cons_self List.mem_cons_self (.left .self)
    .clickHouse
  have hwhole := delimited_iff_not_isOpen hp List.mem_cons_self List.mem_cons_self .self .clickHouse
  have hopen : test.IsOpen .clickHouse := ⟨.cidrMatch, by decide, .inRange (by decide)⟩
  exact ⟨hp, by decide +kernel, fun h => htest.1 h hopen, hwhole.2 id⟩

end LogQuery
