import LogQuery.CommandLine.Libraries
import LogQuery.Proofs.Compile.Statement
import LogQuery.Proofs.Compile.Tame
import LogQuery.Proofs.Sql.Word

namespace LogQuery

open Sql

variable {d : Dialect}

/-! ### Statements -/

lemma SelectItem.piece_render {item : SelectItem} (h : item.expr.Tame) :
    Piece d 0 0 (item.render d) := by
  refine (h.piece d 0).append ?_
  cases item.output with
  | none => exact .constant (s := "") (by decide)
  | some name => exact .append (.constant (by decide)) (piece_identifier d name)

lemma OrderKey.piece_render (k : OrderKey) : Piece d 0 0 (k.render d) := by
  refine .append (.append (piece_identifier d _) (.constant (by decide))) ?_
  cases k.order <;> exact .constant (by decide)

namespace Statement

/-- A clause of confined items is confined. -/
lemma piece_clause {keyword separator : String} {items : List String}
    (hkeyword : Piece d 0 0 keyword) (hseparator : Piece d 0 0 separator)
    (h : ∀ s ∈ items, Piece d 0 0 s) : Piece d 0 0 (clause keyword separator items) := by
  rw [clause]
  split_ifs
  · exact .constant (by decide)
  · refine .append (.append (.append ?_ hkeyword) ?_) (.intercalate hseparator h) <;>
      exact .constant (by decide)

/-- A statement of tame expressions is confined, whatever else is in it. -/
lemma piece_render {s : Statement} (hitems : ∀ item ∈ s.items, item.expr.Tame)
    (htable : Bare s.table) (hfilter : ∀ e ∈ s.filter, e.Tame) : Piece d 0 0 (s.render d) := by
  have hdistinct : Piece d 0 0 (if s.distinct then "DISTINCT " else "") := by
    split_ifs <;> exact .constant (by decide)
  have hselect : Piece d 0 0 (if s.items.isEmpty then "*"
      else String.intercalate ", " (s.items.map (SelectItem.render d))) := by
    split_ifs
    · exact .constant (by decide)
    · refine .intercalate (.constant (by decide)) fun t ht => ?_
      obtain ⟨item, hitem, rfl⟩ := List.mem_map.1 ht
      exact SelectItem.piece_render (hitems item hitem)
  have hname : Piece d 0 0 s.table := htable.piece
  have hwhere : Piece d 0 0 (clause "WHERE" " AND " (s.filter.map (Expr.render d))) := by
    refine piece_clause (.constant (by decide)) (.constant (by decide)) fun t ht => ?_
    obtain ⟨e, he, rfl⟩ := List.mem_map.1 ht
    exact (hfilter e he).piece d 0
  have hgroup : Piece d 0 0 (clause "GROUP BY" ", " (s.groupBy.map (ColumnRef.render d))) := by
    refine piece_clause (.constant (by decide)) (.constant (by decide)) fun t ht => ?_
    obtain ⟨r, -, rfl⟩ := List.mem_map.1 ht
    exact piece_identifier d r.name
  have horder : Piece d 0 0 (clause "ORDER BY" ", " (s.orderBy.map (OrderKey.render d))) := by
    refine piece_clause (.constant (by decide)) (.constant (by decide)) fun t ht => ?_
    obtain ⟨k, -, rfl⟩ := List.mem_map.1 ht
    exact k.piece_render
  have hlimit : Piece d 0 0 (clause "LIMIT" "" (s.limit.map toString).toList) := by
    refine piece_clause (.constant (by decide)) (.constant (by decide)) fun t ht => ?_
    obtain ⟨n, -, rfl⟩ := Option.map_eq_some_iff.1 (Option.mem_toList.1 ht)
    exact piece_toString n
  rw [render_eq]
  refine .append (.append (.append (.append (.append (.append ?_ hdistinct) hselect) ?_) hname)
    hwhere) (.append (.append hgroup horder) hlimit) <;> exact .constant (by decide)

end Statement

/-! ### Queries -/

namespace Config

variable {c : Config} {query : String} {earliest latest : Option String} {sql : String}

/-- Whatever the query and the bounds of time say, the statement is confined, as long as the
configured table has a plain name. Of the texts of a query only words reach the statement unquoted,
in front of the parentheses of calls, and the reader of tokens lets no sign into a word. -/
theorem confined_of_compile [Libraries] (htable : isPlainName (c.table d) = true)
    (h : c.compile query d earliest latest = .ok sql) : Confined d sql := by
  obtain ⟨p, hp, hsql⟩ := compile_eq_ok.1 h
  obtain ⟨from?, to?, -, -, rfl⟩ := Pipeline.compile_eq_ok.1 hsql
  have hbare : Bare (c.target d).table := bare_of_isPlainName htable
  have hstages : ∀ stage ∈ p.stages, stage.Meets (fun _ => True) (EvalExpr.Calls Bare) :=
    parseQuery_meets .trivial
      (Parser.expression_yields fun t ht hword => Text.bare_lowercase (ht hword)) hp
      fun tokens htokens => bare_of_mem_tokenize htokens
  have hdraft := Pipeline.tame_draft hbare hstages (TimeBound.tame_conditions (d := d) from? to?)
  exact (Statement.piece_render hdraft.items hbare hdraft.filter).confined

/-- A text with a quote in it, a call of an unknown function, and a bound of time. -/
theorem confined_of_compile_quotes :
    let sql := "SELECT timestamp, hostname, app_name, severity, message, foo(a, 'q)') AS x"
      ++ " FROM heimsight.logs WHERE timestamp <= now() AND message = 'a;b''--'"
      ++ " ORDER BY timestamp DESC LIMIT 1000"
    compile {} "msg=\"a;b'--\" | eval x=foo(a, 'q)')" .clickHouse none (some "now") = .ok sql ∧
      Confined .clickHouse sql := by
  intro sql
  have hsql : compile {} "msg=\"a;b'--\" | eval x=foo(a, 'q)')" .clickHouse none (some "now")
      = .ok sql := eq_ok_of_toOption (by decide +kernel)
  exact ⟨hsql, confined_of_compile (by decide) hsql⟩

end Config

end LogQuery
