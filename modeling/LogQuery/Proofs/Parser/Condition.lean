import LogQuery.Proofs.Parser.Grammar
import Mathlib.Tactic.SplitIfs

namespace LogQuery.Parser

variable {good : Token → Prop} {nested : ConditionAt}

/-- What is read is no condition at all, or a full one. -/
abbrev FullIfAny (o : Option Condition) : Prop := ∀ c ∈ o, c.Full

/-- A term is no condition at all, or a single comparison that is not negated: with the raw text of
the row or, behind a word, with the field that the word names. -/
lemma termAt_yields {Q : Option Condition → Prop} {t : Token} (hnone : Q none)
    (hraw : ∀ value, Q (some (.inRaw value)))
    (hcompare : t.kind.isWord = true → ∀ comparison value,
      Q (some (.compare t.text comparison value false))) : Yields good (termAt t) Q := by
  rw [termAt, termBy]
  split_ifs with _ _ _ hword
  · refine .bind_of_forall fun text => ?_
    split_ifs
    · exact .pure hnone
    · exact .pure (hraw _)
  · exact .pure (hraw _)
  · exact .pure (hraw _)
  · refine .bind_of_forall fun o => ?_
    split
    · exact .bind_of_forall fun text => .pure (hraw _)
    · dsimp only
      split
      · exact .bind_of_forall fun value => .pure (hcompare hword _ _)
      · exact .bind_of_forall fun value => .pure (hcompare hword _ _)
      · exact .bind_of_forall fun t' => .bind_of_forall fun value => .pure (hcompare hword _ _)
  · exact .failAt

/-! ### Members and alternatives -/

section

variable {P Q R : Condition → Prop} (h : ∀ t, Yields good (nested t) fun o => ∀ c ∈ o, P c)
  (hand : ∀ cs : List Condition, (∀ c ∈ cs, P c) → ∀ c ∈ Condition.join? .and cs, Q c)
include h hand

lemma conjunction_yields : Yields good (conjunction nested) fun o => ∀ c ∈ o, Q c := by
  refine .bind (P := fun cs => ∀ c ∈ cs, P c) (.many fun t rest p hturn _ => ?_)
    fun cs hcs => .pure (hand cs hcs)
  split at hturn
  · cases hturn
  · cases hturn
  · cases hturn
  · cases hturn
    exact .bind_of_forall fun _ => .pure (by rintro c ⟨⟩)
  · cases hturn
    exact h t

lemma disjunction_yields
    (hor : ∀ cs : List Condition, (∀ c ∈ cs, Q c) → ∀ c ∈ Condition.join? .or cs, R c) :
    Yields good (disjunction nested) fun o => ∀ c ∈ o, R c := by
  refine .bind (conjunction_yields h hand) fun first hfirst => ?_
  refine .bind (P := fun cs => ∀ c ∈ cs, Q c) (.many fun t rest p hturn _ => ?_)
    fun more hmore => .pure (hor _ fun c hc => ?_)
  · split_ifs at hturn
    cases hturn
    exact .bind_of_forall fun _ => conjunction_yields h hand
  · rcases List.mem_append.1 hc with hc | hc
    · exact hfirst c (Option.mem_toList.1 hc)
    · exact hmore c hc

end

/-- What holds of every term, of what is negated and of what stands in parentheses holds of the
conditions that a token begins. -/
lemma unaryBy_yields {P : Condition → Prop} {operand inner : Parser (Option Condition)}
    (hterm : ∀ field comparison value, P (.compare field comparison value false))
    (hnot : Yields good operand fun o => ∀ c ∈ o, P c.negate)
    (hparens : Yields good inner fun o => ∀ c ∈ o, P c) (t : Token) :
    Yields good (unaryBy operand inner termAt t) fun o => ∀ c ∈ o, P c := by
  rw [unaryBy]
  split
  · refine .bind hnot fun o ho => ?_
    cases o with
    | none => exact .fail
    | some c =>
      refine .pure fun c' hc' => ?_
      cases hc'
      exact ho c rfl
  · exact hparens
  · refine termAt_yields (by rintro c ⟨⟩) (fun value => ?_) fun _ comparison value => ?_
    · rintro c ⟨⟩
      exact hterm _ _ _
    · rintro c ⟨⟩
      exact hterm _ _ _

/-! ### Full groups -/

/-- The induction is on how deep a condition may nest. -/
lemma unary_yields_full (depth : Nat) (t : Token) : Yields good (unary depth t) FullIfAny := by
  induction depth generalizing t with
  | zero => exact unaryBy_yields (fun _ _ _ => .compare) .tooDeep .tooDeep t
  | succ depth ih =>
    refine unaryBy_yields (fun _ _ _ => .compare) ?_ ?_ t
    · exact .bind_of_forall fun t' => (ih t').mono fun o ho c hc => (ho c hc).negate
    · exact .bind (disjunction_yields ih (fun _ => Condition.full_join) fun _ =>
        Condition.full_join) fun o ho => .bind_of_forall fun _ => .pure ho

/-- No condition of a stage has an empty group in it. -/
theorem conditions_yields_full : Yields good conditions fun cs => ∀ c ∈ cs, c.Full := by
  intro s ts cs rest hts hr
  obtain ⟨c, hc, -, rfl⟩ := reads_conditions.1 hr
  have hwhole : Yields good (disjunction (unary s.maxDepth)) FullIfAny :=
    disjunction_yields (unary_yields_full s.maxDepth) (fun _ => Condition.full_join)
      fun _ => Condition.full_join
  exact Condition.full_topLevel (hwhole hts hc)

end LogQuery.Parser
