import LogQuery.Parser.Expression
import LogQuery.Proofs.Parser.Reading
import Mathlib.Tactic.SplitIfs

namespace LogQuery

/-- Every function that the expression calls has a name with a property. -/
inductive EvalExpr.Calls (P : String → Prop) : EvalExpr → Prop where
  | literal {value : Value} : Calls P (.literal value)
  | field {name : String} : Calls P (.field name)
  | binary {op : BinaryOperator} {left right : EvalExpr} :
      Calls P left → Calls P right → Calls P (.binary op left right)
  | call {function : String} {args : List EvalExpr} :
      P function → (∀ a ∈ args, Calls P a) → Calls P (.call function args)

namespace Parser

variable {good : Token → Prop} {P : String → Prop} {p : Parser EvalExpr}

/-! ### Levels of operators -/

/-- Grouping to the left makes no call of its own. -/
lemma calls_foldl {first : EvalExpr} {more : List (BinaryOperator × EvalExpr)}
    (hfirst : first.Calls P) (hmore : ∀ x ∈ more, x.2.Calls P) :
    (more.foldl (fun left (op, right) => .binary op left right) first).Calls P := by
  induction more generalizing first with
  | nil => exact hfirst
  | cons x more ih =>
    rw [List.foldl_cons]
    exact ih (.binary hfirst (hmore x (by simp))) fun y hy => hmore y (by simp [hy])

lemma leftChain_yields {operator? : TokenKind → Option BinaryOperator}
    (h : Yields good p (EvalExpr.Calls P)) :
    Yields good (leftChain operator? p) (EvalExpr.Calls P) := by
  refine .bind h fun first hfirst => ?_
  refine .bind (P := fun more => ∀ x ∈ more, x.2.Calls P) (.many fun t rest q hturn _ => ?_)
    fun more hmore => .pure (calls_foldl hfirst hmore)
  obtain ⟨op, -, rfl⟩ := Option.map_eq_some_iff.1 hturn
  exact .bind h fun e he => .pure (by simpa using he)

lemma comparisonOfSums_yields (h : Yields good p (EvalExpr.Calls P)) :
    Yields good (comparisonOfSums p) (EvalExpr.Calls P) := by
  have hsum : Yields good (sum p) (EvalExpr.Calls P) := leftChain_yields (leftChain_yields h)
  refine .bind hsum fun left hleft => ?_
  refine .bind (P := fun o => ∀ x ∈ o, x.2.Calls P) (.optional fun t rest q hturn _ => ?_)
    fun right hright => .pure ?_
  · obtain ⟨op, -, rfl⟩ := Option.map_eq_some_iff.1 hturn
    exact .bind hsum fun e he => .pure he
  · cases right with
    | none => exact hleft
    | some x => exact .binary hleft (hright x rfl)

lemma allLevels_yields (h : Yields good p (EvalExpr.Calls P)) :
    Yields good (allLevels p) (EvalExpr.Calls P) :=
  leftChain_yields (leftChain_yields (comparisonOfSums_yields h))

/-! ### Operands -/

lemma arguments_yields (h : Yields good p (EvalExpr.Calls P)) :
    Yields good (arguments p) fun args => ∀ a ∈ args, a.Calls P := by
  refine .bind_of_forall fun closed => ?_
  split_ifs
  · exact .pure (by simp)
  · refine .bind h fun first hfirst => ?_
    refine .bind (P := fun more => ∀ a ∈ more, a.Calls P) (.many fun t rest q hturn _ => ?_)
      fun more hmore => .bind_of_forall fun _ => .pure (by simpa using ⟨hfirst, hmore⟩)
    split_ifs at hturn
    cases hturn
    exact .map h fun a ha b hb => by
      cases hb
      exact ha

variable (hgood : ∀ t, good t → t.kind.isWord = true → P (Text.lowercase t.text))
include hgood

lemma operandWith_yields (h : Yields good p (EvalExpr.Calls P)) :
    Yields good (operandWith p) (EvalExpr.Calls P) := by
  refine .bind .take fun t ht => ?_
  split
  · exact .bind h fun e he => .pure (.binary .literal he)
  · exact .bind (allLevels_yields h) fun e he => .bind_of_forall fun _ => .pure he
  · exact .pure .literal
  · exact .pure .literal
  · exact .pure .literal
  · by_cases hword : t.kind.isWord = true
    · rw [if_pos hword]
      refine .bind_of_forall fun opened => ?_
      split_ifs
      · exact .bind (arguments_yields (allLevels_yields h)) fun args hargs =>
          .pure (.call (hgood t ht hword) hargs)
      · exact .pure .literal
      · exact .pure .field
    · rw [if_neg hword]
      exact .failAt

/-- The induction is on how deep an operand may nest. -/
lemma operand_yields (depth : Nat) : Yields good (operand depth) (EvalExpr.Calls P) := by
  induction depth with
  | zero => exact operandWith_yields hgood .tooDeep
  | succ depth ih => exact operandWith_yields hgood ih

/-- The functions that an expression calls have the names that words have in lower case. -/
theorem expression_yields : Yields good expression (EvalExpr.Calls P) := by
  rintro ⟨stop, maxDepth⟩ ts e rest hts hr
  cases maxDepth with
  | zero => exact (not_reads_tooDeep hr).elim
  | succ depth => exact allLevels_yields (operand_yields hgood depth) hts hr

end Parser

end LogQuery
