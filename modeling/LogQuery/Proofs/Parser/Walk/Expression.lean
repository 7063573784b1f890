import LogQuery.Proofs.Parser.Walk.Loops

namespace LogQuery.Passage

open Walk

variable {q : Passage} {d : Nat} {w : Walk EvalExpr} {p : Parser EvalExpr}

/-! ### Chains -/

lemma leftChain_follows {operator? : TokenKind → Option BinaryOperator}
    (hend : operator? .eof = none) (h : Follows q d w p) :
    Follows q d (leftChain operator? w) (Parser.leftChain operator? p) := by
  refine .bind h fun first => .many (fun left => ?_) (fun left t ts hts => ?_) first
  · rw [run_bind run_current_nil, q.stop_kind, hend]
    rfl
  · rw [run_bind (run_current_cons hts)]
    cases operator? t.kind with
    | none => exact .stop
    | some op =>
      refine .turn ?_
      dsimp only
      rw [run_bind (run_advance_cons hts), bind_assoc]
      exact .mono ((h (suffix_of_cons hts)).bind fun right _ _ => .done List.suffix_rfl)
        (List.suffix_cons t ts)

lemma sum_follows (h : Follows q d w p) : Follows q d (sum w) (Parser.sum p) :=
  leftChain_follows rfl (leftChain_follows rfl h)

lemma comparisonOfSums_follows (h : Follows q d w p) :
    Follows q d (comparisonOfSums w) (Parser.comparisonOfSums p) := by
  refine .bind (sum_follows h) fun left ts hts => ?_
  cases ts with
  | nil =>
    rw [run_bind run_current_nil, q.stop_kind]
    exact .done List.suffix_rfl
  | cons t ts =>
    rw [run_bind (run_current_cons hts)]
    cases hop : Parser.comparisonOperator? t.kind with
    | none =>
      rw [Parser.readersOptional_eq, Parser.outcome_optional_bind_stop _ (by rw [hop]; rfl)]
      exact .done List.suffix_rfl
    | some op =>
      dsimp only
      rw [Parser.readersOptional_eq, Parser.outcome_optional_bind_turn _ (by rw [hop]; rfl),
        bind_assoc, run_bind (run_advance_cons hts)]
      exact .mono ((sum_follows h (suffix_of_cons hts)).bind fun right _ _ => .done List.suffix_rfl)
        (List.suffix_cons t ts)

lemma allLevels_follows (h : Follows q d w p) : Follows q d (allLevels w) (Parser.allLevels p) :=
  leftChain_follows rfl (leftChain_follows rfl (comparisonOfSums_follows h))

lemma outcome_leftChain_of_error {operator? : TokenKind → Option BinaryOperator}
    {s : Parser.Setting} {ts : List Token} {e : ParseError} (h : p.outcome s ts = .error e) :
    (Parser.leftChain operator? p).outcome s ts = .error e := by
  rw [Parser.leftChain, Parser.outcome_bind, h]
  rfl

lemma outcome_allLevels_of_error {s : Parser.Setting} {ts : List Token} {e : ParseError}
    (h : p.outcome s ts = .error e) : (Parser.allLevels p).outcome s ts = .error e := by
  refine outcome_leftChain_of_error (outcome_leftChain_of_error ?_)
  rw [Parser.comparisonOfSums, Parser.outcome_bind, Parser.sum,
    outcome_leftChain_of_error (outcome_leftChain_of_error h)]
  rfl

/-- An expression nests what its operands nest. -/
lemma Nests.allLevels (h : Nests q d w p) : Nests q d (allLevels w) (Parser.allLevels p) := by
  cases h with
  | deeper hd h => exact .deeper hd (allLevels_follows h)
  | tooDeep hd h => exact .tooDeep hd fun ts => outcome_allLevels_of_error (h ts)

lemma Nests.expressionOf (h : Nests q d w p) :
    Follows q d (expressionOf w) (Parser.allLevels p) := by
  have hexpression := h.allLevels.enter_leave (f := pure) (g := pure) fun e => .pure e
  rw [bind_pure] at hexpression
  exact hexpression

/-! ### Operands -/

lemma arguments_follows (h : Follows q d w p) :
    Follows q d (arguments w) (Parser.arguments p) := by
  refine .check (by nofun) (.pure []) ?_
  exact .separated_bind h fun args => .bind (.consume (by nofun) _) fun _ => .pure args

lemma operandOf_follows (h : Nests q d w p) :
    Follows q d (operandOf w) (Parser.operandWith p) := by
  refine .take (fun t ts hts => ?_) ?_
  · rw [operandOf, run_bind (run_check_cons hts _)]
    by_cases hminus : t.kind = .symbol .minus
    · rw [hminus, if_pos (beq_self_eq_true _)]
      exact .advance hts (h.enter_leave fun e => .pure _)
    rw [if_neg (mt beq_iff_eq.1 hminus), primary, run_bind (run_current_cons hts)]
    split
    · contradiction
    · next hkind =>
      rw [hkind]
      exact .advance hts (.bind h.expressionOf fun inner => .bind (.consume (by nofun) _)
        fun _ => .pure inner)
    · next hkind =>
      rw [hkind]
      exact .advance hts (.pure _)
    · next hkind =>
      rw [hkind]
      exact .advance hts (.pure _)
    · next hkind =>
      rw [hkind]
      exact .advance hts (.pure _)
    · simp only
      refine .ite (fun _ => .advance hts (.check (by nofun) ?_ ?_)) fun _ => .unexpected hts _
      · exact .bind (arguments_follows h.expressionOf) fun args => .pure _
      · exact .ite (fun _ => .pure _) fun _ => .pure _
  · rw [operandOf, run_bind (run_check_nil (by nofun)), if_neg Bool.false_ne_true, primary,
      run_bind run_current_nil, q.stop_kind]
    exact .unexpected List.nil_suffix _

lemma operand_follows {n : Nat} (hd : d + n = q.limits.maxDepth) :
    Follows q d (operand (n + 1)) (Parser.operand n) := by
  induction n generalizing d with
  | zero => exact operandOf_follows (.tooDeep (Nat.le_of_eq hd.symm) fun _ => rfl)
  | succ n ih =>
    refine operandOf_follows (.deeper ?_ (ih ?_))
    · omega
    · omega

/-- In front of a stage all levels are left. -/
lemma expression_follows : Follows q 0 expression Parser.expression := by
  intro ts hts
  have hsetting : q.setting.maxDepth = q.limits.maxDepth := rfl
  rw [expression, run_bind run_limits, Parser.outcome, Parser.expression, hsetting]
  cases hdepth : q.limits.maxDepth with
  | zero =>
    have hnests : Nests q 0 (operand 0) Parser.tooDeep :=
      .tooDeep (Nat.le_of_eq hdepth) fun _ => rfl
    have htells := hnests.expressionOf hts
    rw [outcome_allLevels_of_error Parser.outcome_tooDeep] at htells
    exact htells
  | succ n =>
    have hnests : Nests q 0 (operand (n + 1)) (Parser.operand n) := by
      refine .deeper (hdepth ▸ Nat.succ_pos n) (operand_follows ?_)
      rw [hdepth, Nat.zero_add, Nat.add_comm]
    exact hnests.expressionOf hts

end LogQuery.Passage
