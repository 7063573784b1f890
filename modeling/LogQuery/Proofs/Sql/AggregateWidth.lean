import LogQuery.Proofs.Pattern.Groups
import LogQuery.Proofs.Sql.Width
import LogQuery.Sql.Aggregate
import LogQuery.Sql.Bucket
import LogQuery.Sql.Matching

namespace LogQuery

/-- The width of a bucket of time is cut off at the largest number of 64 bits. -/
lemma Span.bucketSeconds_lt (span : Span) : span.bucketSeconds < tenTo 20 := by
  have hmost : maxSeconds < tenTo 20 := by decide
  rw [bucketSeconds.eq_def]
  split
  · exact (Nat.min_le_left _ _).trans_lt hmost
  · split_ifs
    · exact (Nat.min_le_left _ _).trans_lt hmost
    · decide

namespace Dialect

open Sql

variable {d : Dialect} {e : Expr}

/-! ### Buckets -/

/-- A function that starts an interval has a name of thirty characters at most. -/
lemma length_startFunction_le {seconds : Nat} {function : String}
    (h : startFunction? seconds = some function) : function.length ≤ 30 := by
  obtain ⟨front, back, htable, -⟩ := List.lookup_eq_some_iff.1 h
  have hall : ∀ p ∈ front ++ (seconds, function) :: back, p.2.length ≤ 30 := by
    rw [← htable]
    decide
  exact hall (seconds, function) (by simp)

lemma length_startFormat_le {seconds : Nat} {format : String}
    (h : startFormat? seconds = some format) : format.length ≤ 30 := by
  obtain ⟨front, back, htable, -⟩ := List.lookup_eq_some_iff.1 h
  have hall : ∀ p ∈ front ++ (seconds, format) :: back, p.2.length ≤ 30 := by
    rw [← htable]
    decide
  exact hall (seconds, format) (by simp)

/-- A bucket of time is at most two hundred characters wider than its column. -/
lemma width_timeBucket_le (e : Expr) {seconds : Nat} (h : seconds < tenTo 20) :
    (d.timeBucket e seconds).width d ≤ e.width d + 200 := by
  cases d with
  | clickHouse =>
    rw [timeBucket]
    split
    · next function hfunction =>
      have := Expr.width_callOne_le (d := .clickHouse) _ e (length_startFunction_le hfunction)
      omega
    · have := Expr.width_interval_le (d := .clickHouse) .second h
      have := Expr.width_callTwo_le (d := .clickHouse) "toStartOfInterval" e
        (.interval seconds .second) (k := 17) (by decide)
      omega
  | sqlite =>
    have hcall : ∀ format : String,
        (Expr.call "strftime" [.text format, e]).width .sqlite ≤
          e.width .sqlite + 2 * format.length + 16 := by
      intro format
      have := Expr.width_text_le (d := .sqlite) format
      have := Expr.width_callTwo_le (d := .sqlite) "strftime" (.text format) e (k := 8) (by decide)
      omega
    rw [timeBucket]
    split
    · next format hformat =>
      have := length_startFormat_le hformat
      exact (hcall format).trans (by omega)
    · have hepoch := Expr.width_cast_le (d := .sqlite) (.call "strftime" [.text "%s", e]) .integer
      have hstrftime := hcall "%s"
      have hseconds := Expr.width_nat_le (d := .sqlite) h
      have hunix := Expr.width_text_le (d := .sqlite) "unixepoch"
      have hformat : "%s".length = 2 := rfl
      have hunit : "unixepoch".length = 9 := rfl
      have hdivide : Operator.divide.text.toList.length = 1 := rfl
      have hmultiply : Operator.multiply.text.toList.length = 1 := rfl
      refine (Expr.width_callTwo_le _ _ _ (k := 8) (by decide)).trans ?_
      rw [Expr.width_binary, Expr.width_paren, Expr.width_binary]
      omega

lemma width_numericBin_le (e : Expr) (width : Binary64) :
    (d.numericBin e width).width d ≤ e.width d + 850 := by
  have hwidth := Expr.width_number_le (d := d) width
  have hdivide : Operator.divide.text.toList.length = 1 := rfl
  have hmultiply : Operator.multiply.text.toList.length = 1 := rfl
  cases d with
  | clickHouse =>
    have hfloor := Expr.width_callOne_le (d := .clickHouse) "floor"
      (.binary .divide e (.number width)) (k := 5) (by decide)
    rw [Expr.width_binary] at hfloor
    rw [numericBin, Expr.width_binary]
    omega
  | sqlite =>
    have hcast := Expr.width_cast_le (d := .sqlite) (.binary .divide e (.number width)) .integer
    rw [Expr.width_binary] at hcast
    rw [numericBin, Expr.width_binary]
    omega

/-! ### Aggregates -/

lemma width_countAll_le (d : Dialect) : d.countAll.width d ≤ 10 := by
  cases d with
  | clickHouse => exact (Expr.width_call_le _ _).trans (by decide)
  | sqlite =>
    have := Expr.width_callOne_le (d := .sqlite) "COUNT" .star (k := 5) (by decide)
    rw [Expr.width_star] at this
    rw [countAll]
    omega

/-- A function of a column, and of another one if it picks a row. -/
lemma width_clickHouseAggregate_le (function : AggregateFunction) (e : Expr) :
    (clickHouseAggregate function e).width .clickHouse ≤ 2 * e.width .clickHouse + 500 := by
  have hone : ∀ name : String, name.length ≤ 14 →
      (Expr.call name [e]).width .clickHouse ≤ e.width .clickHouse + 18 :=
    fun name hname => Expr.width_callOne_le name e hname
  have htime := Expr.width_column_le (d := .clickHouse) "timestamp"
  have hname : "timestamp".length = 9 := rfl
  have htwo : ∀ name : String, name.length ≤ 6 →
      (Expr.call name [e, .column "timestamp"]).width .clickHouse ≤ e.width .clickHouse + 32 :=
    fun name hname => (Expr.width_callTwo_le name e _ hname).trans (by omega)
  cases function with
  | mode =>
    have hcount := Expr.width_nat_le (d := .clickHouse) (n := 1) (by decide)
    have htop := Expr.width_applied_le (d := .clickHouse) "topK" [.nat 1] [e]
    have hname : "topK".length = 4 := rfl
    rw [Expr.widths_cons, Expr.widths_cons, Expr.widths_nil] at htop
    exact (Expr.width_element_le _ (by decide)).trans (by omega)
  | range =>
    have hmax := hone "max" (by decide)
    have hmin := hone "min" (by decide)
    have hsubtract : Operator.subtract.text.toList.length = 1 := rfl
    rw [clickHouseAggregate, Expr.width_binary]
    omega
  | percentile p =>
    have hfraction := Expr.width_number_le (d := .clickHouse) (fraction p)
    have hquantile := Expr.width_applied_le (d := .clickHouse) "quantile" [.number (fraction p)] [e]
    have hname : "quantile".length = 8 := rfl
    rw [Expr.widths_cons, Expr.widths_cons, Expr.widths_nil] at hquantile
    rw [clickHouseAggregate]
    omega
  | earliest | first => exact (htwo "argMin" (by decide)).trans (by omega)
  | latest | last => exact (htwo "argMax" (by decide)).trans (by omega)
  | _ => exact (hone _ (by decide)).trans (by omega)

/-- An aggregate of SQLite writes its operand up to five times and the filter up to twice. -/
lemma width_sqliteAggregate_le (function : AggregateFunction) (e : Expr) (rows : RowSource) :
    (sqliteAggregate function e rows).width .sqlite ≤
      5 * e.width .sqlite + 2 * Expr.widths .sqlite 5 rows.filter + 2 * rows.table.length +
        540 := by
  have hone : ∀ (name : String) (e : Expr), name.length ≤ 12 →
      (Expr.call name [e]).width .sqlite ≤ e.width .sqlite + 16 :=
    fun name e hname => Expr.width_callOne_le name e hname
  cases function with
  | distinctCount | values =>
    refine (hone _ (.distinct e) (by decide)).trans ?_
    rw [Expr.width_distinct]
    omega
  | earliest | first | latest | last => exact (Expr.width_edgeRow_le _ _ _).trans (by omega)
  | median | percentile p => exact Expr.width_sortedAt_le _ _ _ _
  | mode => exact (Expr.width_mostFrequent_le _ _ _).trans (by omega)
  | stddev | variance => exact (Expr.width_nat_le (by decide)).trans (by omega)
  | range =>
    have hmax := hone "MAX" e (by decide)
    have hmin := hone "MIN" e (by decide)
    have hsubtract : Operator.subtract.text.toList.length = 1 := rfl
    rw [sqliteAggregate, Expr.width_binary]
    omega
  | _ => exact (hone _ e (by decide)).trans (by omega)

/-- An aggregate has its column in it at most five times, and the filter of its rows at most
twice. -/
theorem width_aggregate_le (function : AggregateFunction) (e : Expr) (rows : RowSource) :
    (d.aggregate function e rows).width d ≤
      5 * e.width d + 2 * Expr.widths d 5 rows.filter + 2 * rows.table.length + 540 := by
  cases d with
  | clickHouse => exact (width_clickHouseAggregate_le function e).trans (by omega)
  | sqlite => exact width_sqliteAggregate_le function e rows

/-! ### Groups of patterns -/

/-- The pattern is quoted, and its isolated group adds at most its own opening. -/
lemma width_extractGroup_le (e : Expr) (pattern group : String) :
    ((d.extractGroup e pattern group).getD .null).width d ≤
      e.width d + 8 * pattern.length + 20 := by
  cases d with
  | clickHouse =>
    have htext := Expr.width_text_le (d := .clickHouse) (Pattern.isolateGroup pattern group)
    have hpattern := Pattern.length_isolateGroup_le pattern group
    have hcall := Expr.width_callTwo_le (d := .clickHouse) "extract" e
      (.text (Pattern.isolateGroup pattern group)) (k := 7) (by decide)
    rw [extractGroup, Option.getD_some]
    omega
  | sqlite =>
    rw [extractGroup, Option.getD_none, Expr.width_null]
    omega

end Dialect

end LogQuery
