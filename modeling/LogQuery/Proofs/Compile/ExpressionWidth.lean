import LogQuery.Proofs.Compile.ConditionWidth
import LogQuery.Proofs.Compile.Tame
import LogQuery.Proofs.Sql.AddressWidth

/-!
# How wide expressions of a query are in SQL

Most functions take over their arguments once each, so that their SQL is as long as the expression
is heavy, up to a constant factor. The tests of addresses do not: they have copies of the text that
they test. Where such tests stand in the arguments of one another, the copies multiply, and the SQL
is bounded by a power of their number (`EvalExpr.width_toSql_le`), whose exponent is how deep the
tests nest (`EvalExpr.addressDepth`).
-/

namespace LogQuery

open Sql

variable {d : Dialect}

/-! ### How deep tests of addresses nest -/

/-- The call tests an address that the rows hold. An address that is written in the query is
classified at once. -/
def EvalFunction.testsAddress (function : EvalFunction) (args : List EvalExpr) : Bool :=
  match function, args with
  | .address q, [arg] => (answerOf? q arg).isNone
  | .cidrMatch, _ => true
  | _, _ => false

namespace EvalExpr

/-- The call of a name tests an address that the rows hold. -/
def testsAddress (name : String) (args : List EvalExpr) : Bool :=
  (EvalFunction.ofCall? name args.length).any (·.testsAddress args)

mutual

/-- The largest number of tests of addresses of which each stands in the arguments of the one
before. -/
def addressDepth : EvalExpr → Nat
  | .literal _ | .field _ => 0
  | .binary _ left right => max (addressDepth left) (addressDepth right)
  | .call name args => addressDepthOfAll args + (testsAddress name args).toNat

/-- How deep tests of addresses nest in any of some expressions. -/
def addressDepthOfAll : List EvalExpr → Nat
  | [] => 0
  | e :: rest => max (addressDepth e) (addressDepthOfAll rest)

end

/-- Questions nest as deep in a list of arguments as in the deepest of them. -/
lemma addressDepth_le_ofAll {args : List EvalExpr} {a : EvalExpr} (h : a ∈ args) :
    a.addressDepth ≤ addressDepthOfAll args := by
  induction args with
  | nil => cases h
  | cons e rest ih =>
    rw [addressDepthOfAll]
    rcases List.mem_cons.1 h with rfl | h
    · exact Nat.le_max_left _ _
    · exact (ih h).trans (Nat.le_max_right _ _)

end EvalExpr

/-! ### Values -/

namespace Dialect

variable {e : Sql.Expr}

lemma width_toText_le (e : Sql.Expr) : (d.toText e).width d ≤ e.width d + 20 := by
  cases d with
  | clickHouse => exact (Expr.width_callOne_le _ _ (k := 8) (by decide)).trans (by omega)
  | sqlite => exact (Expr.width_cast_le _ _).trans (by omega)

lemma width_toNumber_le (e : Sql.Expr) : (d.toNumber e).width d ≤ e.width d + 40 := by
  cases d with
  | clickHouse =>
    have hinner := Expr.width_callOne_le (d := .clickHouse) "toString" e (k := 8) (by decide)
    exact (Expr.width_callOne_le _ _ (k := 15) (by decide)).trans (by omega)
  | sqlite => exact (Expr.width_cast_le _ _).trans (by omega)

lemma width_naturalLog_le (e : Sql.Expr) : (d.naturalLog e).width d ≤ e.width d + 7 := by
  cases d with
  | clickHouse => exact Expr.width_callOne_le _ _ (k := 3) (by decide)
  | sqlite => exact Expr.width_callOne_le _ _ (k := 3) (by decide)

lemma width_now_le (d : Dialect) : d.now.width d ≤ 30 := by
  cases d with
  | clickHouse => exact (Expr.width_call_le _ _).trans (by decide)
  | sqlite =>
    have htext := Expr.width_text_le (d := .sqlite) "now"
    have hname : "now".length = 3 := rfl
    exact (Expr.width_callOne_le _ _ (k := 8) (by decide)).trans (by omega)

lemma width_substring_le (es : List Sql.Expr) :
    (d.substring es).width d ≤ Expr.widths d 2 es + 11 := by
  cases d with
  | clickHouse =>
    have hcall := Expr.width_call_le (d := .clickHouse) "substring" es
    have hname : "substring".length = 9 := rfl
    exact hcall.trans (by omega)
  | sqlite =>
    have hcall := Expr.width_call_le (d := .sqlite) "substr" es
    have hname : "substr".length = 6 := rfl
    exact hcall.trans (by omega)

lemma width_concat_le (es : List Sql.Expr) : (d.concat es).width d ≤ Expr.widths d 4 es + 8 := by
  cases d with
  | clickHouse =>
    have hcall := Expr.width_call_le (d := .clickHouse) "concat" es
    have hname : "concat".length = 6 := rfl
    have hgap := Expr.widths_mono (d := .clickHouse) (show 2 ≤ 4 by decide) es
    exact hcall.trans (by omega)
  | sqlite =>
    have hchain := Expr.width_chain_le (d := .sqlite) .concat es
    have hop : Operator.concat.text.toList.length + 2 = 4 := rfl
    have hempty := Expr.width_text_le (d := .sqlite) ""
    have hnothing : "".length = 0 := rfl
    rw [hop] at hchain
    rw [concat]
    split_ifs
    · omega
    · rw [Expr.width_paren]
      omega

end Dialect

/-! ### Calls -/

namespace EvalFunction

/-- Conditions and values that take turns are all of the row, with the value that is left over. -/
lemma branchParts_branches (es : List Sql.Expr) :
    Expr.branchParts (branches es).1 ++ (branches es).2.toList = es := by
  match es with
  | [] => rfl
  | [e] => rfl
  | condition :: value :: rest =>
    have ih := branchParts_branches rest
    exact congrArg (condition :: value :: ·) ih

/-- A conditional writes each of its arguments once. -/
lemma width_branches_le (es : List Sql.Expr) :
    (d.conditional (branches es).1 ((branches es).2.getD .null)).width d ≤
      Expr.widths d 6 es + 18 := by
  have hparts := congrArg (Expr.widths d 6) (branchParts_branches es)
  have hconditional := Dialect.width_conditional_le (d := d) (branches es).1
    ((branches es).2.getD .null)
  rw [Expr.widths_append] at hparts
  cases hlast : (branches es).2 with
  | none =>
    rw [hlast, Option.getD_none, Expr.width_null] at hconditional
    rw [Option.getD_none]
    omega
  | some otherwise =>
    rw [hlast, Option.getD_some] at hconditional
    rw [hlast, Option.toList_some, Expr.widths_cons, Expr.widths_nil] at hparts
    rw [Option.getD_some]
    omega

lemma length_sqlName_le {f : EvalFunction} {name : String} (h : f.sqlName? = some name) :
    name.length ≤ 8 := by
  cases f <;> cases h <;> decide

lemma width_ofAnswer_le (answer : AddressAnswer) : (Dialect.ofAnswer answer).width d ≤ 22 := by
  cases answer with
  | label c =>
    have := Expr.width_text_le (d := d) c.label
    have := Dialect.length_label_le c
    rw [Dialect.ofAnswer]
    omega
  | flag holds =>
    have := Expr.width_nat_le (d := d) (n := holds.toNat) (by cases holds <;> decide)
    rw [Dialect.ofAnswer]
    omega

lemma width_answerOf_le {q : AddressQuestion} {arg : EvalExpr} {answer : Sql.Expr}
    (h : answerOf? q arg = some answer) : answer.width d ≤ 22 := by
  obtain ⟨s, -, h⟩ := Option.bind_eq_some_iff.1 h
  obtain ⟨address, -, h⟩ := Option.bind_eq_some_iff.1 h
  cases h
  exact width_ofAnswer_le _

variable {rate : Nat} {args : List EvalExpr} {f : EvalFunction} {e : Sql.Expr}

lemma length_patternOf_le {arg : EvalExpr} {pattern : String} (h : patternOf? arg = some pattern) :
    pattern.length ≤ arg.mass := by
  rw [patternOf?.eq_def] at h
  split at h
  · cases h
    rw [EvalExpr.mass, Value.mass]
    exact length_le_textMass _
  · cases h
    rw [EvalExpr.mass, Value.mass]
    exact length_le_textMass _
  · cases h

/-- A pattern is no operand: its text is written out in the test. -/
lemma width_matches_le {first pattern : EvalExpr} {p : String} (hrate : 2 ≤ rate)
    (hfirst : (first.toSql d).width d + 20 ≤ rate * first.mass)
    (hp : patternOf? pattern = some p) :
    (d.regexMatch (first.toSql d) p).width d ≤ rate * EvalExpr.massOf [first, pattern] + 40 := by
  have hpattern := length_patternOf_le hp
  have hmatch := d.width_regexMatch_le (e := first.toSql d) p
  have hmass : EvalExpr.massOf [first, pattern] = first.mass + pattern.mass := by
    simp [EvalExpr.massOf]
  have htwo : 2 * pattern.mass ≤ rate * pattern.mass := Nat.mul_le_mul_right _ hrate
  rw [hmass, Nat.mul_add]
  omega

/-- A call of a known function that tests no address takes over each argument at most once. -/
lemma width_toSql?_le (hrate : 500 ≤ rate)
    (hargs : ∀ a ∈ args, (a.toSql d).width d + 20 ≤ rate * a.mass)
    (h : f.toSql? d args (args.map (EvalExpr.toSql d)) = some e)
    (htests : f.testsAddress args = false) :
    e.width d ≤ rate * EvalExpr.massOf args + 40 := by
  have hall := Expr.widths_map_le hargs
  rw [← EvalExpr.massOf] at hall
  have hgap : ∀ gap ≤ 20, Expr.widths d gap (args.map (EvalExpr.toSql d)) ≤
      rate * EvalExpr.massOf args := fun gap hgap => (Expr.widths_mono hgap _).trans hall
  have hcall : ∀ name : String, name.length ≤ 8 →
      (Expr.call name (args.map (EvalExpr.toSql d))).width d ≤
        rate * EvalExpr.massOf args + 40 := by
    intro name hname
    have hcall := Expr.width_call_le (d := d) name (args.map (EvalExpr.toSql d))
    have := hgap 2 (by decide)
    omega
  have hsingle : ∀ e, args.map (EvalExpr.toSql d) = [e] →
      e.width d ≤ rate * EvalExpr.massOf args := by
    intro e hsql
    have he := hgap 0 (by decide)
    rwa [hsql, Expr.widths_cons, Expr.widths_nil] at he
  rw [toSql?.eq_def] at h
  split at h
  case h_1 condition value otherwise hsql =>
    cases h
    have hbranches := hgap 6 (by decide)
    rw [hsql] at hbranches
    exact (width_branches_le [condition, value, otherwise]).trans (by omega)
  case h_2 =>
    cases h
    exact (width_branches_le _).trans (by have := hgap 6 (by decide); omega)
  case h_3 =>
    cases h
    exact (Dialect.width_concat_le _).trans (by have := hgap 4 (by decide); omega)
  case h_4 =>
    cases h
    exact (Dialect.width_substring_le _).trans (by have := hgap 2 (by decide); omega)
  case h_5 e hsql =>
    cases h
    have he := hsingle e hsql
    exact (Dialect.width_toText_le e).trans (by omega)
  case h_6 e hsql =>
    cases h
    have he := hsingle e hsql
    exact (Dialect.width_toNumber_le e).trans (by omega)
  case h_7 e hsql =>
    cases h
    have he := hsingle e hsql
    exact (Dialect.width_naturalLog_le e).trans (by omega)
  case h_8 =>
    cases h
    exact d.width_now_le.trans (by omega)
  case h_9 e hsql | h_10 e hsql =>
    cases h
    have he := hsingle e hsql
    have htest := Expr.width_nullTest_le (d := d) e
    rw [Expr.width_paren]
    exact (Nat.add_le_add_right (htest _) 2).trans (by omega)
  case h_11 first pattern e e' hsql =>
    obtain ⟨p, hp, rfl⟩ := Option.map_eq_some_iff.1 h
    have he : first.toSql d = e := (List.cons.inj hsql).1
    rw [← he]
    exact width_matches_le (Nat.le_trans (by decide) hrate) (hargs first (by simp)) hp
  case h_12 e pattern hsql =>
    cases h
    have hop : Operator.like.text.toList.length = 4 := rfl
    have hboth := hgap 0 (by decide)
    rw [hsql, Expr.widths_cons, Expr.widths_cons, Expr.widths_nil] at hboth
    rw [Expr.width_paren, Expr.width_binary]
    omega
  case h_13 => cases htests
  case h_14 q arg e hsql =>
    cases h
    cases hanswer : answerOf? q arg with
    | none =>
      rw [testsAddress, hanswer] at htests
      cases htests
    | some answer =>
      have := width_answerOf_le (d := d) hanswer
      rw [Option.getD_some]
      omega
  case h_15 =>
    obtain ⟨name, hname, rfl⟩ := Option.map_eq_some_iff.1 h
    exact hcall name (length_sqlName_le hname)

/-- A test of a block is made of a block that the query writes, and of the text to test. -/
lemma eq_inRange_of_toSql? (h : cidrMatch.toSql? d args (args.map (EvalExpr.toSql d)) = some e) :
    ∃ block text, args = [block, text] ∧ ∃ range, e = d.inRange (text.toSql d) range := by
  rcases args with _ | ⟨block, _ | ⟨text, _ | ⟨extra, more⟩⟩⟩
  · cases h
  · cases h
  · obtain ⟨range, -, rfl⟩ := Option.map_eq_some_iff.1 h
    exact ⟨block, text, rfl, range, rfl⟩
  · cases h

/-- A test of an address is so much wider than its arguments as it has copies of the address. -/
lemma width_toSql?_of_testsAddress
    (hargs : ∀ a ∈ args, (a.toSql d).width d + 20 ≤ rate * a.mass)
    (h : f.toSql? d args (args.map (EvalExpr.toSql d)) = some e)
    (htests : f.testsAddress args = true) :
    e.width d ≤ d.addressGrowth * (rate * EvalExpr.massOf args + 300) := by
  rw [testsAddress.eq_def] at htests
  split at htests
  case h_1 q arg =>
    rw [Option.isNone_iff_eq_none] at htests
    have harg := hargs arg (by simp)
    have hmass : EvalExpr.massOf [arg] = arg.mass := by simp [EvalExpr.massOf]
    have hask := Dialect.width_ask_le (d := d) q (arg.toSql d)
    change some ((answerOf? q arg).getD (d.ask q (arg.toSql d))) = some e at h
    rw [htests] at h
    cases h
    rw [hmass]
    exact hask.trans (Nat.mul_le_mul_left _ (by omega))
  case h_2 args =>
    obtain ⟨block, text, rfl, range, rfl⟩ := eq_inRange_of_toSql? h
    have htext := hargs text (by simp)
    have hrange := d.width_inRange_le (text.toSql d) range
    have hcopies := d.rangeCopies_le_addressGrowth
    have hmass : EvalExpr.massOf [block, text] = block.mass + text.mass := by
      simp [EvalExpr.massOf]
    have hrate' : rate * text.mass ≤ rate * (block.mass + text.mass) :=
      Nat.mul_le_mul_left _ (Nat.le_add_left _ _)
    rw [hmass]
    exact hrange.trans (Nat.mul_le_mul hcopies (by omega))
  case h_3 => cases htests

end EvalFunction

namespace EvalExpr

variable {rate : Nat} {name : String} {args : List EvalExpr}

/-- The mass of the call pays for its name, and for what stands around a test of an address. -/
lemma width_callToSql_le (hrate : 500 ≤ rate)
    (hargs : ∀ a ∈ args, (a.toSql d).width d + 20 ≤ rate * a.mass) :
    (callToSql d name args (args.map (toSql d))).width d + 20 ≤
      d.addressGrowth ^ (testsAddress name args).toNat * (rate * (call name args).mass) := by
  have hmass : rate * (call name args).mass =
      rate * (name.length / 2) + rate + rate * massOf args := by
    rw [mass, ← massOf, Nat.mul_add, Nat.mul_add, Nat.mul_one]
  have hone : rate * (call name args).mass ≤
      d.addressGrowth ^ (testsAddress name args).toNat * (rate * (call name args).mass) :=
    Nat.le_mul_of_pos_left _ (Nat.pow_pos d.addressGrowth_pos)
  have hname : 500 * (name.length / 2) ≤ rate * (name.length / 2) := Nat.mul_le_mul_right _ hrate
  rw [callToSql]
  cases hsql : (EvalFunction.ofCall? name args.length).bind
      fun f => f.toSql? d args (args.map (toSql d)) with
  | none =>
    have hcall := Expr.width_call_le (d := d) name (args.map (toSql d))
    have hall := Expr.widths_map_le hargs
    have hgap := Expr.widths_mono (d := d) (show 2 ≤ 20 by decide) (args.map (toSql d))
    rw [← massOf] at hall
    rw [Option.getD_none]
    omega
  | some e =>
    obtain ⟨f, hf, he⟩ := Option.bind_eq_some_iff.1 hsql
    rw [Option.getD_some]
    cases htests : f.testsAddress args with
    | false =>
      have hwidth := EvalFunction.width_toSql?_le hrate hargs he htests
      omega
    | true =>
      have hwidth := EvalFunction.width_toSql?_of_testsAddress hargs he htests
      have hpos := d.addressGrowth_pos
      rw [testsAddress, hf, Option.any_some, htests, Bool.toNat_true, Nat.pow_one, hmass]
      calc e.width d + 20
          ≤ d.addressGrowth * (rate * massOf args + 300) + d.addressGrowth * 20 := by omega
        _ = d.addressGrowth * (rate * massOf args + 300 + 20) := (Nat.mul_add _ _ _).symm
        _ ≤ _ := Nat.mul_le_mul_left _ (by omega)

/-! ### Expressions -/

/-- The rate at which the SQL of expressions is paid for in which tests of addresses nest so
deep. -/
def widthRate (d : Dialect) (depth : Nat) : Nat := 500 * d.addressGrowth ^ depth

lemma le_widthRate (d : Dialect) (depth : Nat) : 500 ≤ widthRate d depth :=
  Nat.le_mul_of_pos_right _ (Nat.pow_pos d.addressGrowth_pos)

lemma widthRate_mono {depth depth' : Nat} (h : depth ≤ depth') :
    widthRate d depth ≤ widthRate d depth' :=
  Nat.mul_le_mul_left _ (Nat.pow_le_pow_right d.addressGrowth_pos h)

/-- Each question around an expression multiplies its rate by the growth of a question. -/
lemma widthRate_add (depth more : Nat) :
    widthRate d (depth + more) = d.addressGrowth ^ more * widthRate d depth := by
  rw [widthRate, widthRate, Nat.pow_add, ← Nat.mul_assoc, Nat.mul_comm]

/-- A call raises the rate if it tests an address. The induction is on the expression. -/
theorem width_toSql_le (e : EvalExpr) :
    (e.toSql d).width d + 20 ≤ widthRate d e.addressDepth * e.mass := by
  induction e using EvalExpr.induction with
  | literal value =>
    have hvalue := Expr.width_ofValue_le (d := d) value
    have hpos := value.mass_pos
    have hrate := Nat.mul_le_mul_right value.mass (le_widthRate d 0)
    rw [addressDepth, mass, toSql]
    omega
  | field name =>
    have hcolumn := width_column_ofField_le (d := d) name
    have hname := length_le_textMass name
    have hpos := textMass_pos name
    have hrate := Nat.mul_le_mul_right (textMass name) (le_widthRate d 0)
    rw [addressDepth, mass, toSql]
    omega
  | binary op left right ihleft ihright =>
    have hop := Expr.length_operator_le (.ofBinary op)
    have hleft := Nat.mul_le_mul_right left.mass
      (widthRate_mono (d := d) (Nat.le_max_left left.addressDepth right.addressDepth))
    have hright := Nat.mul_le_mul_right right.mass
      (widthRate_mono (d := d) (Nat.le_max_right left.addressDepth right.addressDepth))
    rw [addressDepth, mass, toSql, Expr.width_paren, Expr.width_binary, Nat.mul_add]
    omega
  | call name args ih =>
    have hargs : ∀ a ∈ args, (a.toSql d).width d + 20 ≤
        widthRate d (addressDepthOfAll args) * a.mass := fun a ha =>
      (ih a ha).trans (Nat.mul_le_mul_right _ (widthRate_mono (addressDepth_le_ofAll ha)))
    rw [addressDepth, widthRate_add, Nat.mul_assoc, toSql, allToSql_eq_map]
    exact width_callToSql_le (le_widthRate d _) hargs

end EvalExpr

end LogQuery
