import LogQuery.Proofs.Sql.Literal
import LogQuery.Sql.Printer

namespace LogQuery.Sql

variable {d : Dialect} {i : Nat} {s t : String}

/-! ### Texts of several pieces -/

/-- Pieces with pieces between them are a piece. -/
lemma Piece.intercalate {sep : String} (hsep : Piece d i i sep) {items : List String}
    (h : ∀ s ∈ items, Piece d i i s) : Piece d i i (String.intercalate sep items) := by
  induction items with
  | nil =>
    rw [String.intercalate_nil]
    exact .constant (by decide)
  | cons s rest ih =>
    cases rest with
    | nil =>
      rw [String.intercalate_singleton]
      exact h s (by simp)
    | cons t rest =>
      rw [String.intercalate_cons_cons]
      exact ((h s (by simp)).append hsep).append (ih fun u hu => h u (by simp [hu]))

/-- Parentheses are the one place where the depth changes. -/
lemma Piece.parens (h : Piece d (i + 1) (i + 1) s) : Piece d i i ("(" ++ s ++ ")") := by
  have hopen : Piece d i (i + 1) "(" := .fixed i 0 1 (by decide)
  have hclose : Piece d (i + 1) i ")" := .fixed i 1 0 (by decide)
  exact (hopen.append h).append hclose

/-- A comma neither opens nor closes anything. -/
lemma Piece.commas {items : List String} (h : ∀ s ∈ items, Piece d i i s) :
    Piece d i i (Expr.commas items) := .intercalate (.constant (by decide)) h

/-- A call: the name of a function and its arguments in parentheses. -/
lemma Piece.call (hs : Bare s) {items : List String} (h : ∀ t ∈ items, Piece d (i + 1) (i + 1) t) :
    Piece d i i (s ++ "(" ++ Expr.commas items ++ ")") := by
  have := hs.piece.append (Piece.commas h).parens
  simpa only [String.append_assoc] using this

/-- The units of an interval are bare words. -/
lemma bare_intervalUnit (unit : TimeUnit) : Bare (intervalUnit unit) := by
  rw [Bare, intervalUnit, String.toUpper]
  rw [String.toList_map]
  refine List.all_eq_true.1 ?_
  cases unit <;> decide

lemma piece_operator (op : Operator) : Piece d i i (" " ++ op.text ++ " ") := by
  cases op <;> exact .constant (by decide)

namespace Expr

/-! ### Tame expressions -/

/-- Every text that the expression takes over as it is is bare. -/
inductive Tame : Expr → Prop where
  | verbatim {sql : String} : Bare sql → Tame (.verbatim sql)
  | column {name : String} : Tame (.column name)
  | text {s : String} : Tame (.text s)
  | number {x : Binary64} : Tame (.number x)
  | nat {n : Nat} : Tame (.nat n)
  | null : Tame .null
  | star : Tame .star
  | paren {e : Expr} : Tame e → Tame (.paren e)
  | tuple {items : List Expr} : (∀ e ∈ items, Tame e) → Tame (.tuple items)
  | chain {op : Operator} {operands : List Expr} :
      (∀ e ∈ operands, Tame e) → Tame (.chain op operands)
  | not {e : Expr} : Tame e → Tame (.not e)
  | nullTest {e : Expr} {negated : Bool} : Tame e → Tame (.nullTest e negated)
  | between {e first last : Expr} :
      Tame e → Tame first → Tame last → Tame (.between e first last)
  | call {function : String} {args : List Expr} :
      Bare function → (∀ e ∈ args, Tame e) → Tame (.call function args)
  | applied {function : String} {params args : List Expr} :
      Bare function → (∀ e ∈ params, Tame e) → (∀ e ∈ args, Tame e) →
        Tame (.applied function params args)
  | element {e : Expr} {index : Nat} : Tame e → Tame (.element e index)
  | distinct {e : Expr} : Tame e → Tame (.distinct e)
  | cast {e : Expr} {type : CastType} : Tame e → Tame (.cast e type)
  | interval {amount : Nat} {unit : TimeUnit} : Tame (.interval amount unit)
  | caseWhen {branches : List (Expr × Expr)} {otherwise : Expr} :
      (∀ b ∈ branches, Tame b.1) → (∀ b ∈ branches, Tame b.2) → Tame otherwise →
        Tame (.caseWhen branches otherwise)
  | sortedAt {e : Expr} {fraction : Binary64} {table : String} {filter : List Expr} :
      Tame e → Bare table → (∀ f ∈ filter, Tame f) → Tame (.sortedAt e fraction table filter)
  | mostFrequent {e : Expr} {table : String} {filter : List Expr} :
      Tame e → Bare table → (∀ f ∈ filter, Tame f) → Tame (.mostFrequent e table filter)
  | edgeRow {e : Expr} {table : String} {last : Bool} :
      Tame e → Bare table → Tame (.edgeRow e table last)

/-! ### The induction -/

lemma renderAll_eq_map (d : Dialect) (es : List Expr) : renderAll d es = es.map (render d) := by
  induction es with
  | nil => rfl
  | cons e rest ih => rw [renderAll, ih, List.map_cons]

lemma piece_renderAll {es : List Expr} (h : ∀ e ∈ es, Piece d i i (e.render d)) :
    ∀ s ∈ renderAll d es, Piece d i i s := by
  intro s hs
  rw [renderAll_eq_map, List.mem_map] at hs
  obtain ⟨e, he, rfl⟩ := hs
  exact h e he

/-- The words of a case split open and close nothing. -/
lemma piece_renderBranches {branches : List (Expr × Expr)}
    (hcondition : ∀ b ∈ branches, Piece d i i (b.1.render d))
    (hvalue : ∀ b ∈ branches, Piece d i i (b.2.render d)) :
    Piece d i i (renderBranches d branches) := by
  induction branches with
  | nil => exact .constant (s := "") (by decide)
  | cons b rest ih =>
    have hb := hcondition b (by simp)
    have hb' := hvalue b (by simp)
    have hrest := ih (fun c hc => hcondition c (by simp [hc])) fun c hc => hvalue c (by simp [hc])
    rw [renderBranches]
    refine .append (.append (.append (.append ?_ hb) ?_) hb') hrest <;>
      exact .constant (by decide)

/-- The filter of a subquery is joined by `AND`, with `IS NOT NULL` in front. -/
lemma piece_subqueryFilter {items : List String} (hs : Piece d i i s)
    (h : ∀ t ∈ items, Piece d i i t) : Piece d i i (subqueryFilter s items) := by
  refine .append (.constant (by decide)) (.intercalate (.constant (by decide)) fun t ht => ?_)
  rcases List.mem_append.1 ht with ht | ht
  · exact h t ht
  · rw [List.mem_singleton.1 ht]
    exact hs.append (.constant (by decide))

/-- The value at a fraction of the way through the rows: a subquery inside a subquery. -/
lemma piece_sortedAt {rows : String} (hs : ∀ i, Piece d i i s) (hrows : ∀ i, Piece d i i rows)
    (fraction : Binary64) : Piece d i i ("(SELECT " ++ s ++ " " ++ rows ++ " ORDER BY " ++ s
      ++ " LIMIT 1 OFFSET (SELECT CAST(COUNT(" ++ s ++ ") * " ++ fraction.plain
      ++ " AS INTEGER) " ++ rows ++ "))") := by
  have hselect : Piece d i (i + 1) ("(SELECT " ++ s ++ " " ++ rows ++ " ORDER BY " ++ s) :=
    .append (.append (.append (.append (.append (.fixed i 0 1 (by decide)) (hs _))
      (.constant (by decide))) (hrows _)) (.constant (by decide))) (hs _)
  have hcount : Piece d (i + 1) (i + 3) (" LIMIT 1 OFFSET (SELECT CAST(COUNT(" ++ s ++ ") * ") :=
    .append (.append (.fixed (i + 1) 0 3 (by decide)) (hs _))
      (.fixed (i + 3) 1 0 (by decide))
  have hclose : Piece d (i + 3) (i + 2) " AS INTEGER) " :=
    .fixed (i + 2) 1 0 (by decide)
  have hend : Piece d (i + 2) i "))" := .fixed i 2 0 (by decide)
  have := hselect.append (hcount.append ((piece_plain fraction).append
    (hclose.append ((hrows _).append hend))))
  simpa only [String.append_assoc] using this

/-- The text of a tame expression is a piece, under any number of parentheses. The induction is on
how the expression is built. -/
theorem Tame.piece (d : Dialect) {e : Expr} (h : e.Tame) (i : Nat) :
    Piece d i i (e.render d) := by
  induction h generalizing i with
  | verbatim h => exact h.piece
  | column => exact piece_identifier d _
  | text => exact piece_quoteText d _
  | number => exact piece_plain _
  | nat => exact piece_toString _
  | null => exact .constant (s := "NULL") (by decide)
  | star => exact .constant (s := "*") (by decide)
  | paren _ ih => exact (ih (i + 1)).parens
  | tuple _ ih => exact (Piece.commas (piece_renderAll fun e he => ih e he (i + 1))).parens
  | @chain op _ _ ih =>
    exact .intercalate (piece_operator op) (piece_renderAll fun e he => ih e he i)
  | not _ ih => exact .append (.constant (by decide)) (ih i)
  | @nullTest _ negated _ ih =>
    refine .append (ih i) ?_
    cases negated <;> exact .constant (by decide)
  | between _ _ _ ih ihfirst ihlast =>
    refine .append (.append (.append (.append (ih i) ?_) (ihfirst i)) ?_) (ihlast i) <;>
      exact .constant (by decide)
  | call hname _ ih => exact .call hname (piece_renderAll fun e he => ih e he (i + 1))
  | applied hname _ _ ihparams ihargs =>
    have hparams := Piece.commas (piece_renderAll fun e he => ihparams e he (i + 1))
    have hargs := Piece.commas (piece_renderAll fun e he => ihargs e he (i + 1))
    refine .append (.append (.append (.append (.append hname.piece ?_) hparams) ?_) hargs) ?_
    · exact .fixed i 0 1 (by decide)
    · exact .fixed i 1 1 (by decide)
    · exact .fixed i 1 0 (by decide)
  | @element _ index _ ih =>
    have hindex : Piece d i i (toString index) := piece_toString index
    refine .append (.append (.append (ih i) ?_) hindex) ?_ <;> exact .constant (by decide)
  | distinct _ ih => exact .append (.constant (by decide)) (ih i)
  | @cast _ type _ ih =>
    have hname : Piece d (i + 1) (i + 1) type.name := by
      cases type <;> exact .constant (by decide)
    refine .append (.append (.append (.append ?_ (ih (i + 1))) ?_) hname) ?_
    · exact .fixed i 0 1 (by decide)
    · exact .constant (by decide)
    · exact .fixed i 1 0 (by decide)
  | @interval amount unit =>
    have hamount : Piece d i i (toString amount) := piece_toString amount
    have hunit : Piece d i i (intervalUnit unit) := (bare_intervalUnit unit).piece
    refine .append (.append (.append ?_ hamount) ?_) hunit <;> exact .constant (by decide)
  | caseWhen _ _ _ ihcondition ihvalue ih =>
    have hbranches : Piece d i i (renderBranches d _) :=
      piece_renderBranches (fun b hb => ihcondition b hb i) fun b hb => ihvalue b hb i
    refine .append (.append (.append (.append ?_ hbranches) ?_) (ih i)) ?_ <;>
      exact .constant (by decide)
  | sortedAt _ htable _ ih ihfilter =>
    refine piece_sortedAt ih (fun k => ?_) _
    have hname : Piece d k k _ := htable.piece
    have hfilter := piece_subqueryFilter (ih k) (piece_renderAll fun f hf => ihfilter f hf k)
    refine .append (.append (.append ?_ hname) ?_) hfilter <;> exact .constant (by decide)
  | mostFrequent _ htable _ ih ihfilter =>
    have he := ih (i + 1)
    have hname : Piece d (i + 1) (i + 1) _ := htable.piece
    have hfilter := piece_subqueryFilter he (piece_renderAll fun f hf => ihfilter f hf (i + 1))
    refine .append (.append (.append (.append (.append (.append (.append (.append ?_ he) ?_)
      hname) ?_) hfilter) ?_) he) ?_
    · exact .fixed i 0 1 (by decide)
    · exact .constant (by decide)
    · exact .constant (by decide)
    · exact .constant (by decide)
    · exact .fixed i 1 0 (by decide)
  | @edgeRow _ _ last _ htable ih =>
    have hextreme : Piece d (i + 1) (i + 2) (if last then "MAX(" else "MIN(") := by
      cases last <;> exact .fixed (i + 1) 0 1 (by decide)
    have hname : Piece d (i + 1) (i + 1) _ := htable.piece
    refine .append (.append (.append (.append (.append (.append (.append ?_ (ih (i + 1))) ?_)
      hname) ?_) hextreme) htable.piece) ?_
    · exact .fixed i 0 1 (by decide)
    · exact .constant (by decide)
    · exact .constant (by decide)
    · exact .fixed i 2 0 (by decide)

end Expr

end LogQuery.Sql
