import LogQuery.Proofs.Parser.Counting
import LogQuery.Proofs.Parser.ExpressionReading
import LogQuery.Proofs.Parser.Grammar
import LogQuery.Proofs.Parser.ReaderAgreement

namespace LogQuery.Parser

namespace Counting

def unary : Nat → Token → Counting (Option Condition)
  | 0, _ => lift tooDeep
  | fuel + 1, t =>
    let nested := fun t' => unary fuel t'
    unaryBy (within (nextCondition nested)) (within (closedDisjunction nested))
      (fun t => lift (termAt t)) t

def operand : Nat → Counting EvalExpr
  | 0 => lift tooDeep
  | fuel + 1 => operandBy (within (operand fuel)) (within (allLevels (operand fuel)))

/-- An expression, which counts as one level. -/
def expression (fuel : Nat) : Counting EvalExpr := within (allLevels (operand fuel))

/-- The readers of the language, with a count. -/
def stageReaders (fuel : Nat) : StageReaders Counting :=
  ⟨conditionsBy (disjunction (unary fuel)), expression fuel, spanValue⟩

abbrev assignment (fuel : Nat) : Counting Assignment := assignmentBy (expression fuel)

abbrev stage [Libraries] (fuel : Nat) : Counting Stage := stageBy (stageReaders fuel)

abbrev stages [Libraries] (fuel : Nat) : Counting (List Stage) := stagesBy (stageReaders fuel)

end Counting

variable {scope : Nat → Nat → Prop} {fuel : Nat} {ts : List Token}

/-! ### Conditions -/

section Conditions

variable {nested : Token → Counting (Option Condition)} {nested' : Nat → ConditionAt}
  (h : ∀ t rest, t :: rest <:+ ts → Tracks scope fuel (nested t) (fun n => nested' n t) rest)
include h

/-- Members are counted one after the other, each from the level of the whole. -/
lemma tracks_conjunction :
    Tracks scope fuel (conjunction nested) (fun n => conjunction (nested' n)) ts := by
  refine .bind (.many fun t rest hsuffix => ?_) fun members rest _ => .pure _
  split
  · exact .none fun n => rfl
  · exact .none fun n => rfl
  · exact .none fun n => rfl
  · exact .some (fun n => rfl) (.bind (.lift (agree_requireCondition _)) fun _ _ _ => .pure _)
  · exact .some (fun n => rfl) (h t rest hsuffix)

lemma tracks_disjunction :
    Tracks scope fuel (disjunction nested) (fun n => disjunction (nested' n)) ts := by
  refine .bind (tracks_conjunction h) fun first mid hmid => ?_
  refine .bind (.many fun t rest hsuffix => ?_) fun more rest _ => .pure _
  by_cases hor : t.kind = .clause .or_
  · rw [if_pos hor]
    refine .some (fun n => if_pos hor) ?_
    refine .bind (.lift (agree_requireCondition _)) fun _ mid' hmid' => ?_
    refine tracks_conjunction fun t' rest' hsuffix' => h t' rest' ?_
    exact (hsuffix'.trans hmid').trans ((rest.suffix_cons t).trans (hsuffix.trans hmid))
  · rw [if_neg hor]
    exact .none fun n => if_neg hor

end Conditions

/-- What nests in a condition is read with one level less. -/
lemma unary_eq (n : Nat) (t : Token) :
    unary n t = unaryBy (shift (fun n => nextCondition (unary n)) n)
      (shift (fun n => closedDisjunction (unary n)) n) termAt t := by
  cases n with
  | zero => rfl
  | succ n => rfl

/-- The one place where conditions open a level: behind `NOT` and behind `(`. -/
lemma tracks_unaryBy {operand inner : Counting (Option Condition)}
    {operand' inner' : Nat → Parser (Option Condition)}
    (hoperand : Tracks scope fuel operand operand' ts) (hinner : Tracks scope fuel inner inner' ts)
    (t : Token) :
    Tracks scope fuel (unaryBy operand inner (fun t => Counting.lift (termAt t)) t)
      (fun n => unaryBy (operand' n) (inner' n) termAt t) ts := by
  unfold unaryBy
  split
  · refine .bind hoperand fun o rest _ => ?_
    cases o with
    | none => exact .lift (.fail nofun)
    | some c => exact .pure _
  · exact hinner
  · exact .lift (agree_termAt rfl)

/-- The induction is on the number of tokens, for any fuel: what nests begins behind a token. -/
lemma tracks_unary (fuel : Nat) (t : Token) (ts : List Token) :
    Tracks AllLevels fuel (Counting.unary fuel t) (fun n => unary n t) ts := by
  induction hn : ts.length using Nat.strongRecOn generalizing fuel t ts with
  | ind k ih =>
    have hsucc : ∀ fuel, Tracks AllLevels (fuel + 1) (Counting.unary (fuel + 1) t)
        (fun n => unary n t) ts := by
      intro fuel
      have hnested : ∀ t' rest, t' :: rest <:+ ts →
          Tracks AllLevels fuel (Counting.unary fuel t') (fun n => unary n t') rest := by
        intro t' rest hsuffix
        have hlen : rest.length < k := hn ▸ hsuffix.length_le
        exact ih rest.length hlen fuel t' rest rfl
      rw [funext fun n => unary_eq n t]
      refine tracks_unaryBy (.within ?_) (.within ?_) t
      · exact .take_bind _ fun t' rest hts => hnested t' rest (hts ▸ List.suffix_rfl)
      · refine .bind (tracks_disjunction hnested) fun inner _ _ => ?_
        exact .bind (.lift (.expect _ _)) fun _ _ _ => .pure _
    cases fuel with
    | zero => exact (hsucc 0).zero
    | succ fuel => exact hsucc fuel

/-- Conditions are counted up to the fuel. The induction is on the fuel. -/
lemma tracks_or (fuel : Nat) (ts : List Token) :
    Tracks AllLevels fuel (disjunction (Counting.unary fuel))
      (fun n => disjunction (unary n)) ts :=
  tracks_disjunction fun t rest _ => tracks_unary fuel t rest

lemma tracks_conditions (fuel : Nat) :
    Tracks NoneOpen fuel (Counting.stageReaders fuel).conditions (fun _ => conditions) ts := by
  have hend : Tracks NoneOpen fuel (Counting.stageReaders fuel).conditions
      (fun n => conditionsBy (disjunction (unary n))) ts := by
    refine .bind (tracks_or fuel ts).of_allLevels fun whole rest _ => ?_
    refine .bind (.lift .nextKind?) fun kind _ _ => ?_
    split
    · exact .pure _
    · exact .pure _
    · exact .lift (.fail nofun)
  refine hend.congr fun limit n stop hn => ?_
  rw [show n = limit from hn]
  rfl

/-! ### Expressions -/

section Expressions

variable {operand : Counting EvalExpr} {operand' : Nat → Parser EvalExpr}
  (h : ∀ rest, rest <:+ ts → Tracks scope fuel operand operand' rest)
include h

lemma tracks_leftChain (operator? : TokenKind → Option BinaryOperator) :
    Tracks scope fuel (leftChain operator? operand)
      (fun n => leftChain operator? (operand' n)) ts := by
  refine .bind (h ts List.suffix_rfl) fun first mid hmid => ?_
  refine .bind (.many fun t rest hsuffix => ?_) fun more _ _ => .pure _
  cases operator? t.kind with
  | none => exact .none fun n => rfl
  | some op =>
    refine .some (fun n => rfl) (.bind (h rest ?_) fun right _ _ => .pure _)
    exact (rest.suffix_cons t).trans (hsuffix.trans hmid)

lemma tracks_sum : Tracks scope fuel (sum operand) (fun n => sum (operand' n)) ts :=
  tracks_leftChain (fun _ hrest => tracks_leftChain (fun _ h' => h _ (h'.trans hrest)) _) _

lemma tracks_comparisonOfSums :
    Tracks scope fuel (comparisonOfSums operand)
      (fun n => comparisonOfSums (operand' n)) ts := by
  refine .bind (tracks_sum h) fun left mid hmid => ?_
  refine .bind (.optional fun t rest hsuffix => ?_) fun right _ _ => .pure _
  cases comparisonOperator? t.kind with
  | none => exact .none fun n => rfl
  | some op =>
    have hrest : rest <:+ ts := (rest.suffix_cons t).trans (hsuffix.trans hmid)
    refine .some (fun n => rfl) (.bind (tracks_sum fun _ h' => h _ (h'.trans hrest)) ?_)
    exact fun right _ _ => .pure _

lemma tracks_allLevels :
    Tracks scope fuel (allLevels operand) (fun n => allLevels (operand' n)) ts := by
  refine tracks_leftChain (fun _ hrest => tracks_leftChain (fun _ hrest' => ?_) _) _
  exact tracks_comparisonOfSums fun _ h' => h _ (h'.trans (hrest'.trans hrest))

lemma tracks_arguments :
    Tracks scope fuel (arguments operand) (fun n => arguments (operand' n)) ts := by
  refine .bind (.lift (.accept _)) fun closed mid hmid => ?_
  split_ifs
  · exact .pure _
  · refine .bind (h mid hmid) fun first mid' hmid' => ?_
    refine .bind (.many fun t rest hsuffix => ?_) fun more _ _ => ?_
    · have hrest : rest <:+ ts :=
        (rest.suffix_cons t).trans (hsuffix.trans (hmid'.trans hmid))
      by_cases hcomma : t.kind = .symbol .comma
      · rw [if_pos hcomma]
        exact .some (fun n => if_pos hcomma) (.map _ (h rest hrest))
      · rw [if_neg hcomma]
        exact .none fun n => if_neg hcomma
    · exact .bind (.lift (.expect _ _)) fun _ _ _ => .pure _

end Expressions

/-- What nests in an operand is read with one level less. -/
lemma operand_eq (n : Nat) :
    operand n = operandBy (shift operand n) (shift (fun n => allLevels (operand n)) n) := by
  cases n with
  | zero => rfl
  | succ n => rfl

lemma tracks_wordOperand {inner : Counting EvalExpr} {inner' : Nat → Parser EvalExpr}
    (h : ∀ rest, rest <:+ ts → Tracks scope fuel inner inner' rest) (t : Token) :
    Tracks scope fuel (wordOperand inner t) (fun n => wordOperand (inner' n) t) ts := by
  refine .bind (.lift (.accept _)) fun called mid hmid => ?_
  cases called with
  | true =>
    refine .bind (tracks_arguments fun rest' h' => h rest' (h'.trans hmid)) ?_
    exact fun args _ _ => .pure _
  | false =>
    by_cases hnull : Text.equalIgnoringCase t.text "null" = true
    · simp only [hnull]
      exact .pure _
    · simp only [hnull]
      exact .pure _

/-- The one place where expressions open a level: behind `-` and behind `(`. -/
lemma tracks_operandBy {negated inner : Counting EvalExpr} {negated' inner' : Nat → Parser EvalExpr}
    (hnegated : ∀ rest, rest.length < ts.length → Tracks scope fuel negated negated' rest)
    (hinner : ∀ rest, rest.length < ts.length → Tracks scope fuel inner inner' rest) :
    Tracks scope fuel (operandBy negated inner) (fun n => operandBy (negated' n) (inner' n))
      ts := by
  refine .take_bind _ fun t rest hts => ?_
  have hlen : rest.length < ts.length := by rw [hts, List.length_cons]; exact Nat.lt_succ_self _
  split
  · exact .bind (hnegated rest hlen) fun inner _ _ => .pure _
  · refine .bind (hinner rest hlen) fun inner _ _ => ?_
    exact .bind (.lift (.expect _ _)) fun _ _ _ => .pure _
  · exact .pure _
  · exact .pure _
  · exact .pure _
  · split_ifs
    · refine tracks_wordOperand (fun rest' hrest' => hinner rest' ?_) t
      exact Nat.lt_of_le_of_lt hrest'.length_le hlen
    · exact .lift (.failAt rfl rfl)

/-- The induction is on the number of tokens, for any fuel: what nests begins behind a token. -/
lemma tracks_operand (fuel : Nat) (ts : List Token) :
    Tracks AllLevels fuel (Counting.operand fuel) operand ts := by
  induction hn : ts.length using Nat.strongRecOn generalizing fuel ts with
  | ind k ih =>
    have hsucc : ∀ fuel, Tracks AllLevels (fuel + 1) (Counting.operand (fuel + 1)) operand ts := by
      intro fuel
      have hnested : ∀ rest, rest.length < ts.length →
          Tracks AllLevels fuel (Counting.operand fuel) operand rest :=
        fun rest hlen => ih rest.length (hn ▸ hlen) fuel rest rfl
      rw [funext operand_eq]
      refine tracks_operandBy (fun rest hlen => (hnested rest hlen).within) fun rest hlen => ?_
      refine .within (tracks_allLevels fun rest' hrest' => hnested rest' ?_)
      exact Nat.lt_of_le_of_lt hrest'.length_le hlen
    cases fuel with
    | zero => exact (hsucc 0).zero
    | succ fuel => exact hsucc fuel

lemma tracks_expression_allLevels (fuel : Nat) :
    Tracks AllLevels (fuel + 1) (Counting.expression fuel)
      (shift fun n => allLevels (operand n)) ts :=
  .within (tracks_allLevels fun rest _ => tracks_operand fuel rest)

/-- A whole expression begins with no level open. -/
lemma tracks_expression (fuel : Nat) :
    Tracks NoneOpen fuel (Counting.expression fuel) (fun _ => expression) ts := by
  have hlevels : Tracks AllLevels (fuel + 1) (Counting.expression fuel) _ ts :=
    tracks_expression_allLevels fuel
  have hinner := hlevels.of_fuel_le (Nat.le_succ fuel)
  refine hinner.of_allLevels.congr fun limit n stop hn => ?_
  rw [show n = limit from hn]
  cases limit <;> rfl

/-! ### Stages -/

lemma tracks_assignment (fuel : Nat) :
    Tracks NoneOpen fuel (Counting.assignment fuel) (fun _ => assignment) ts := by
  refine .bind (.lift .fieldName) fun field _ _ => .bind (.lift (.expect _ _)) fun _ _ _ => ?_
  exact .bind (tracks_expression fuel) fun expr _ _ => .pure _

lemma tracks_eval (fuel : Nat) :
    Tracks NoneOpen fuel (evalBy (Counting.expression fuel)) (fun _ => eval) ts := by
  refine .bind (tracks_assignment fuel) fun first _ _ => ?_
  refine .bind (.many fun t rest _ => ?_) fun more _ _ => .pure _
  split_ifs
  · exact .some (fun n => rfl) (.map _ (tracks_assignment fuel))
  · exact .none fun n => rfl

lemma tracks_stageOf [Libraries] (fuel : Nat) (t : Token) (command : Command) :
    Tracks NoneOpen fuel (stageOfBy (Counting.stageReaders fuel) t command)
      (fun _ => stageOf t command) ts := by
  cases command with
  | search => exact .map _ (tracks_conditions _)
  | filter => exact .map _ (tracks_conditions _)
  | where_ => exact .map _ (tracks_conditions _)
  | eval => exact tracks_eval _
  | stats => exact .lift agree_stats
  | sort => exact .lift agree_sort
  | limit => exact .lift (agree_limit _)
  | head => exact .lift (agree_limit _)
  | tail => exact .lift (agree_limit _)
  | dedup => exact .lift (.map_eq _ agree_fieldList)
  | table => exact .lift (.map_eq _ agree_fieldList)
  | fields => exact .lift agree_fields
  | rename => exact .lift agree_rename
  | top => exact .lift (agree_frequent _)
  | rare => exact .lift (agree_frequent _)
  | bin => exact .lift (agree_bin rfl)
  | timechart => exact .lift agree_timechart
  | rex => exact .lift agree_rex

/-- A stage begins with no level open. -/
lemma tracks_stage [Libraries] (fuel : Nat) :
    Tracks NoneOpen fuel (Counting.stage fuel) (fun _ => stage) ts := by
  refine .bind (.lift (.take _)) fun t rest _ => ?_
  cases t.kind with
  | command command => exact tracks_stageOf _ _ _
  | identifier => exact .lift (.failAt rfl rfl)
  | _ => exact .lift (.failAt rfl rfl)

lemma tracks_firstStage [Libraries] (fuel : Nat) :
    Tracks NoneOpen fuel (firstStageBy (Counting.stageReaders fuel)) (fun _ => firstStage) ts := by
  refine .bind (.lift .nextKind?) fun kind _ _ => ?_
  split_ifs
  · exact .map _ (tracks_conditions _)
  · exact tracks_stage _

/-- The stages of a query are read alike with a count and without. -/
theorem tracks_stages [Libraries] (fuel : Nat) :
    Tracks NoneOpen fuel (Counting.stages fuel) (fun _ => stages) ts := by
  refine .bind (.lift .nextKind?) fun kind _ _ => ?_
  split_ifs
  · exact .pure _
  · refine .bind (tracks_firstStage fuel) fun first _ _ => ?_
    refine .bind (.many fun t rest _ => ?_) fun more _ _ => ?_
    · split_ifs
      · exact .some (fun n => rfl) (.map _ (tracks_stage fuel))
      · exact .none fun n => rfl
    · refine .bind (.lift .nextKind?) fun kind _ _ => ?_
      split_ifs
      · exact .pure _
      · exact .lift (.fail nofun)

end LogQuery.Parser
