import LogQuery.Compile.Expression
import LogQuery.Proofs.Sql.Printer
import LogQuery.Sql.Aggregate
import LogQuery.Sql.Bucket

namespace LogQuery

open Sql

variable {d : Dialect} {e e' : Expr} {es : List Expr}

/-! ### Literals and operators -/

namespace Sql.Expr

attribute [simp] Tame.column Tame.text Tame.number Tame.nat Tame.null Tame.star Tame.interval

mutual

@[simp] lemma tame_ofValue : ∀ v : Value, (ofValue v).Tame
  | .string _ | .regex _ => .text
  | .number _ => .number
  | .null => .null
  | .list items => .tuple (tame_ofValues items)

lemma tame_ofValues : ∀ vs : List Value, ∀ e ∈ ofValues vs, Tame e
  | [], _, he => by cases he
  | v :: rest, e, he => by
    rcases List.mem_cons.1 he with rfl | he
    · exact tame_ofValue v
    · exact tame_ofValues rest e he

end

/-- An operator between tame operands. -/
lemma Tame.binary {op : Operator} (h : e.Tame) (h' : e'.Tame) : (Expr.binary op e e').Tame :=
  .chain (by simp [h, h'])

/-- A call with one argument. -/
lemma Tame.call₁ {function : String} (hname : Bare function) (h : e.Tame) :
    (Expr.call function [e]).Tame := .call hname (by simp [h])

/-- A call with two arguments. -/
lemma Tame.call₂ {function : String} (hname : Bare function) (h : e.Tame) (h' : e'.Tame) :
    (Expr.call function [e, e']).Tame := .call hname (by simp [h, h'])

end Sql.Expr

namespace Dialect

open Sql.Expr

/-! ### Tests of text -/

lemma tame_contains (h : e.Tame) (needle : String) : (d.contains e needle).Tame := by
  cases d with
  | clickHouse => exact .binary (.call₂ (by decide) h .text) .nat
  | sqlite =>
    exact .binary (.call₂ (by decide) (.call₁ (by decide) h) (.call₁ (by decide) .text)) .nat

lemma tame_like (h : e.Tame) (pattern : String) (ignoreCase negated : Bool) :
    (d.like e pattern ignoreCase negated).Tame := by
  cases d with
  | clickHouse => exact .binary h .text
  | sqlite => exact .binary h (.binary .text .text)

lemma tame_regexMatch (h : e.Tame) (pattern : String) : (d.regexMatch e pattern).Tame := by
  cases d with
  | clickHouse => exact .call₂ (by decide) h .text
  | sqlite => exact .binary h .text

lemma tame_extractGroup (h : e.Tame) (pattern group : String) :
    ((d.extractGroup e pattern group).getD .null).Tame := by
  cases d with
  | clickHouse => exact .call₂ (by decide) h .text
  | sqlite => exact .null

/-! ### Values -/

lemma tame_concat (h : ∀ e ∈ es, e.Tame) : (d.concat es).Tame := by
  cases d with
  | clickHouse => exact .call (by decide) h
  | sqlite =>
    unfold concat
    dsimp only
    split_ifs
    · exact .text
    · exact .paren (.chain h)

lemma tame_conditional {branches : List (Expr × Expr)} (h : ∀ b ∈ branches, b.1.Tame)
    (h' : ∀ b ∈ branches, b.2.Tame) (he : e.Tame) : (d.conditional branches e).Tame := by
  cases d with
  | clickHouse =>
    refine .call (by split_ifs <;> decide) fun x hx => ?_
    rw [List.mem_append, List.mem_flatMap, List.mem_singleton] at hx
    rcases hx with ⟨b, hb, hx⟩ | rfl
    · rw [List.mem_pair] at hx
      rcases hx with rfl | rfl
      · exact h b hb
      · exact h' b hb
    · exact he
  | sqlite => exact .caseWhen h h' he

lemma tame_substring (h : ∀ e ∈ es, e.Tame) : (d.substring es).Tame := by
  cases d <;> exact .call (by decide) h

lemma tame_toText (h : e.Tame) : (d.toText e).Tame := by
  cases d with
  | clickHouse => exact .call₁ (by decide) h
  | sqlite => exact .cast h

lemma tame_toNumber (h : e.Tame) : (d.toNumber e).Tame := by
  cases d with
  | clickHouse => exact .call₁ (by decide) (.call₁ (by decide) h)
  | sqlite => exact .cast h

lemma tame_naturalLog (h : e.Tame) : (d.naturalLog e).Tame := by
  cases d <;> exact .call₁ (by decide) h

/-! ### Times and buckets -/

lemma tame_now : d.now.Tame := by
  cases d with
  | clickHouse => exact .call (by decide) (by simp)
  | sqlite => exact .call₁ (by decide) .text

lemma tame_timeAgo (amount : Nat) (unit : TimeUnit) : (d.timeAgo amount unit).Tame := by
  cases d with
  | clickHouse => exact .binary tame_now .interval
  | sqlite => exact .call₂ (by decide) .text .text

/-- The functions that start an interval have bare names. -/
lemma bare_startFunction {seconds : Nat} {function : String}
    (h : startFunction? seconds = some function) : Bare function := by
  obtain ⟨front, back, htable, -⟩ := List.lookup_eq_some_iff.1 h
  have hall : ∀ p ∈ front ++ (seconds, function) :: back, Bare p.2 := by
    rw [← htable]
    decide
  exact hall (seconds, function) (by simp)

lemma tame_timeBucket (h : e.Tame) (seconds : Nat) : (d.timeBucket e seconds).Tame := by
  cases d with
  | clickHouse =>
    unfold timeBucket
    dsimp only
    split
    · next function hfunction => exact .call₁ (bare_startFunction hfunction) h
    · exact .call₂ (by decide) h .interval
  | sqlite =>
    rw [timeBucket]
    dsimp only
    split
    · exact .call₂ (by decide) .text h
    · have hepoch : (Expr.cast (.call "strftime" [.text "%s", e]) .integer).Tame :=
        .cast (.call₂ (by decide) .text h)
      exact .call₂ (by decide) (.binary (.paren (.binary hepoch .nat)) .nat) .text

lemma tame_numericBin (h : e.Tame) (width : Binary64) : (d.numericBin e width).Tame := by
  cases d with
  | clickHouse => exact .binary (.call₁ (by decide) (.binary h .number)) .number
  | sqlite => exact .binary (.cast (.binary h .number)) .number

/-! ### Aggregates -/

lemma tame_countAll : d.countAll.Tame := by
  cases d with
  | clickHouse => exact .call (by decide) (by simp)
  | sqlite => exact .call₁ (by decide) .star

lemma tame_clickHouseAggregate (function : AggregateFunction) (h : e.Tame) :
    (clickHouseAggregate function e).Tame := by
  cases function with
  | mode => exact .element (.applied (by decide) (by simp) (by simp [h]))
  | range => exact .binary (.call₁ (by decide) h) (.call₁ (by decide) h)
  | percentile p => exact .applied (by decide) (by simp) (by simp [h])
  | earliest | first | latest | last => exact .call₂ (by decide) h .column
  | _ => exact .call₁ (by decide) h

/-- The table and the filter come into a subquery, so they have to be bare and tame too. -/
lemma tame_sqliteAggregate (function : AggregateFunction) (h : e.Tame) {rows : RowSource}
    (htable : Bare rows.table) (hfilter : ∀ f ∈ rows.filter, f.Tame) :
    (sqliteAggregate function e rows).Tame := by
  cases function with
  | distinctCount | values => exact .call₁ (by decide) (.distinct h)
  | earliest | first | latest | last => exact .edgeRow h htable
  | median | percentile p => exact .sortedAt h htable hfilter
  | mode => exact .mostFrequent h htable hfilter
  | stddev | variance => exact .nat
  | range => exact .binary (.call₁ (by decide) h) (.call₁ (by decide) h)
  | _ => exact .call₁ (by decide) h

lemma tame_aggregate (function : AggregateFunction) (h : e.Tame) {rows : RowSource}
    (htable : Bare rows.table) (hfilter : ∀ f ∈ rows.filter, f.Tame) :
    (d.aggregate function e rows).Tame := by
  cases d with
  | clickHouse => exact tame_clickHouseAggregate function h
  | sqlite => exact tame_sqliteAggregate function h htable hfilter

/-! ### Addresses -/

lemma tame_behindPoint (h : e.Tame) : (behindPoint e).Tame :=
  .call₂ (by decide) h (.binary (.call₂ (by decide) h .text) .nat)

lemma tame_beforePoint (h : e.Tame) : (beforePoint e).Tame := by
  have hlength : (Expr.binary .subtract (.call "instr" [e, .text "."]) (.nat 1)).Tame :=
    .binary (.call₂ (by decide) h .text) .nat
  exact .cast (.call (by decide) (by simp [h, hlength]))

lemma tame_addressNumber (h : e.Tame) : (addressNumber e).Tame := by
  have h₁ := tame_behindPoint h
  have h₂ := tame_behindPoint h₁
  have h₃ := tame_behindPoint h₂
  refine .paren (.chain ?_)
  simp only [List.forall_mem_cons, List.not_mem_nil, false_implies, implies_true, and_true]
  exact ⟨.binary (tame_beforePoint h) .nat, .binary (tame_beforePoint h₁) .nat,
    .binary (tame_beforePoint h₂) .nat, .cast h₃⟩

lemma tame_inRange (h : e.Tame) (r : AddressRange) : (d.inRange e r).Tame := by
  cases d with
  | clickHouse =>
    exact .between (.call₁ (by decide) h) (.call₁ (by decide) .text) (.call₁ (by decide) .text)
  | sqlite => exact .between (tame_addressNumber h) .nat .nat

/-- A list of ranges becomes a disjunction of range tests. -/
lemma tame_inSomeRange (h : e.Tame) (ranges : List AddressRange) :
    (d.inSomeRange e ranges).Tame := by
  refine .paren (.chain fun x hx => ?_)
  obtain ⟨r, -, rfl⟩ := List.mem_map.1 hx
  exact tame_inRange h r

lemma tame_ofAnswer (answer : AddressAnswer) : (ofAnswer answer).Tame := by
  cases answer with
  | label c => exact .text
  | flag holds => exact .nat

/-- An address question becomes range tests, or the answer itself. -/
lemma tame_ask (h : e.Tame) (q : AddressQuestion) : (d.ask q e).Tame := by
  cases q with
  | classify =>
    refine tame_conditional (fun b hb => ?_) (fun b hb => ?_) .text
    · obtain ⟨r, -, rfl⟩ := List.mem_map.1 hb
      exact tame_inRange h r.1
    · obtain ⟨r, -, rfl⟩ := List.mem_map.1 hb
      exact .text
  | isPublic => exact .not (tame_inSomeRange h _)
  | _ => exact tame_inSomeRange h _

end Dialect

end LogQuery
