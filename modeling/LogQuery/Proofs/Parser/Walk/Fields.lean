import LogQuery.Proofs.Parser.Walk.Loops

namespace LogQuery

open LogQuery.Parser (isGluable startsParameter splitTouching)

namespace Parser

variable {s : Setting} {t : Token} {ts : List Token} {text : String} {finish : Position}

/-- A text together with the tokens that touch it. -/
def glueTo (text : String) (finish : Position) : Parser String := fun _ ts =>
  .ok ⟨text ++ String.join ((splitTouching finish ts).1.map Token.text),
    (splitTouching finish ts).2, ⟨(splitTouching finish ts).1, splitTouching_append finish ts⟩⟩

lemma outcome_glueTo_nil : (glueTo text finish).outcome s [] = .ok (text, []) := by
  change Except.ok (text ++ String.join [], []) = _
  rw [String.join_nil, String.append_empty]

lemma outcome_glueTo_stop (h : ¬ (isGluable t.kind && t.position == finish) = true) :
    (glueTo text finish).outcome s (t :: ts) = .ok (text, t :: ts) := by
  have hsplit : splitTouching finish (t :: ts) = ([], t :: ts) := if_neg h
  change Except.ok (text ++ String.join ((splitTouching finish (t :: ts)).1.map Token.text),
    (splitTouching finish (t :: ts)).2) = _
  rw [hsplit, List.map_nil, String.join_nil, String.append_empty]

lemma outcome_glueTo_turn (h : (isGluable t.kind && t.position == finish) = true) :
    (glueTo text finish).outcome s (t :: ts) = (glueTo (text ++ t.text) t.finish).outcome s ts := by
  have hsplit : splitTouching finish (t :: ts) =
      (t :: (splitTouching t.finish ts).1, (splitTouching t.finish ts).2) := if_pos h
  change Except.ok (text ++ String.join ((splitTouching finish (t :: ts)).1.map Token.text),
    (splitTouching finish (t :: ts)).2) = Except.ok (_, _)
  rw [hsplit, List.map_cons, String.join_cons, String.append_assoc]

end Parser

namespace Passage

open Walk

variable {q : Passage} {t : Token} {ts : List Token} {d : Nat}

/-! ### Words -/

lemma glue_follows : FollowsAt q d glue Parser.glue := by
  intro t ts hts
  rw [glue, run_bind (run_advance_cons hts)]
  refine (Tells.loop (P := fun part => Parser.glueTo part.1 part.2)
    (fun (text, finish) ts hts => ?_) (t.text, t.finish) (suffix_of_cons hts)).mono
    (List.suffix_cons t ts)
  cases ts with
  | nil =>
    have hstop : isGluable q.stop.kind = false := by rw [q.stop_kind]; rfl
    rw [run_bind run_current_nil, hstop, Bool.false_and, if_neg Bool.false_ne_true,
      Parser.outcome_glueTo_nil]
    exact .ended List.suffix_rfl
  | cons u ts =>
    rw [run_bind (run_current_cons hts)]
    by_cases hu : (isGluable u.kind && u.position == finish) = true
    · rw [if_pos hu, run_bind (run_advance_cons hts), run_pure, Parser.outcome_glueTo_turn hu]
      exact .again (text ++ u.text, u.finish) (List.suffix_cons u ts) (Nat.lt_succ_self _)
    · rw [if_neg hu, Parser.outcome_glueTo_stop hu]
      exact .ended List.suffix_rfl

lemma fieldName_followsAt : FollowsAt q d fieldName Parser.fieldNameAt := by
  intro t ts hts
  rw [fieldName, run_bind (run_current_cons hts)]
  exact .ite (fun _ => .advance hts (.pure _)) fun _ => .unexpected hts _

lemma fieldName_follows : Follows q d fieldName Parser.fieldName := by
  refine .take fieldName_followsAt ?_
  rw [fieldName, run_bind run_current_nil, q.stop_kind]
  exact .unexpected List.nil_suffix _

lemma outputName_follows : Follows q d outputName Parser.outputName := by
  refine .take (fun t ts hts => ?_) ?_
  · rw [outputName, run_bind (run_current_cons hts)]
    exact .ite (fun _ => .advance hts (.pure _)) fun _ => .unexpected hts _
  · rw [outputName, run_bind run_current_nil, q.stop_kind]
    exact .unexpected List.nil_suffix _

lemma run_fieldName (hts : t :: ts <:+ q.front) (ht : t.kind.isWord = true) :
    q.run fieldName (t :: ts) d = .done t.text (q.cursor ts d) := by
  rw [fieldName, run_bind (run_current_cons hts), if_pos ht, run_bind (run_advance_cons hts),
    run_pure]

lemma fieldList_follows : Follows q d fieldList Parser.fieldList := by
  rw [fieldList, Parser.fieldList]
  refine .bind fieldName_follows fun first => .collect (fun names => ?_) ?_ [first]
  · have hword : q.stop.kind.isWord = false := by rw [q.stop_kind]; rfl
    rw [run_bind (run_check_nil (by nofun)), if_neg Bool.false_ne_true, run_bind run_current_nil,
      run_bind (run_atParameter_nil _), hword, Bool.false_and, if_neg Bool.false_ne_true, run_pure]
  · intro names t ts hts
    rw [run_bind (run_check_cons hts _)]
    by_cases hcomma : t.kind = .symbol .comma
    · rw [if_pos (beq_iff_eq.2 hcomma), if_pos hcomma, run_bind (run_advance_cons hts)]
      exact .one ((fieldName_follows (suffix_of_cons hts)).mono (List.suffix_cons t ts))
    · rw [if_neg (mt beq_iff_eq.1 hcomma), if_neg hcomma, run_bind (run_current_cons hts),
        run_bind (run_atParameter_cons hts _)]
      by_cases hword : (t.kind.isWord && !startsParameter "limit" t ts) = true
      · rw [if_pos hword, if_pos hword,
          run_bind (run_fieldName hts (Bool.and_eq_true_iff.1 hword).1)]
        exact .turn (.done (List.suffix_cons t ts))
      · rw [if_neg hword, if_neg hword]
        exact .stop

lemma count_follows : Follows q d count Parser.count := by
  rw [count, Parser.count]
  refine .bind (.consume (by nofun) _) fun t => ?_
  cases Numeral.natBelow? (twoTo 64) t.text with
  | none => exact .refuse t _
  | some n => exact .pure n

lemma spanText_followsAt : FollowsAt q d spanText (Parser.spanTextBy Parser.glue) := by
  intro t ts hts
  rw [spanText, run_bind (run_current_cons hts), Parser.spanTextBy]
  cases t.kind with
  | string => exact .advance hts (.pure _)
  | number | identifier => exact glue_follows hts
  | command | clause | aggregate | symbol | regex | eof => exact .unexpected hts _

lemma spanValue_follows : Follows q d spanValue Parser.spanValue := by
  rw [spanValue, Parser.spanValue, Parser.spanBy]
  refine .take (fun t ts hts => ?_) ?_
  · rw [run_bind (run_current_cons hts)]
    refine (spanText_followsAt hts).bind fun text left hleft => ?_
    cases Span.ofText? text with
    | none => exact .refuse t _
    | some span => exact .done List.suffix_rfl
  · have hrefused : q.run spanText [] d = .refused ⟨.expected .span, q.stop⟩ (q.cursor [] d) := by
      rw [spanText, run_bind run_current_nil, q.stop_kind]
      exact run_unexpected List.nil_suffix _
    rw [run_bind run_current_nil, run_bind_refused hrefused]
    exact .refused List.suffix_rfl

/-! ### Aggregations -/

lemma aggregatedField_follows : Follows q d aggregatedField Parser.aggregatedField := by
  have hclose (field : Option String) : Follows q d
      (consume (.symbol .rParen) .closeParen >>= fun _ => pure field)
      (Parser.expect (.symbol .rParen) .closeParen >>= fun _ => pure field) :=
    .bind (.consume (by nofun) _) fun _ => .pure field
  refine .check (by nofun) (fun ts hts => ?_) (.pure none)
  dsimp only
  rw [if_pos rfl]
  cases ts with
  | nil =>
    rw [Parser.outcome_accept_bind_nil, Parser.outcome_nextKind?_bind_nil,
      if_neg Bool.false_ne_true, if_neg nofun]
    refine .bind ?_ fun field left hleft => hclose field (hleft.trans hts)
    rw [insideParens, run_bind (run_check_nil (by nofun)), if_neg Bool.false_ne_true,
      run_bind (run_check_nil (by nofun)), if_neg Bool.false_ne_true]
    exact (fieldName_follows hts).map some
  | cons t ts =>
    rw [Parser.outcome_accept_bind_cons]
    by_cases hstar : t.kind = .symbol .star
    · rw [if_pos hstar, Parser.outcome_nextKind?_bind, if_pos rfl]
      refine .bind ?_ fun field left hleft => hclose field (hleft.trans hts)
      rw [insideParens, run_bind (run_check_cons hts _), if_pos (beq_iff_eq.2 hstar),
        run_bind (run_advance_cons hts)]
      exact .done (List.suffix_cons t ts)
    · rw [if_neg hstar, Parser.outcome_nextKind?_bind_cons, if_neg Bool.false_ne_true]
      have hinside : q.run insideParens (t :: ts) d = q.run (do
          if ← check (.symbol .rParen) then return none else return some (← fieldName))
          (t :: ts) d := by
        rw [insideParens, run_bind (run_check_cons hts _), if_neg (mt beq_iff_eq.1 hstar)]
      by_cases hclosed : t.kind = .symbol .rParen
      · rw [if_pos (congrArg some hclosed)]
        refine .bind ?_ fun field left hleft => hclose field (hleft.trans hts)
        rw [hinside, run_bind (run_check_cons hts _), if_pos (beq_iff_eq.2 hclosed)]
        exact .done List.suffix_rfl
      · rw [if_neg fun h => hclosed (Option.some.inj h)]
        refine .bind ?_ fun field left hleft => hclose field (hleft.trans hts)
        rw [hinside, run_bind (run_check_cons hts _), if_neg (mt beq_iff_eq.1 hclosed)]
        exact (fieldName_follows hts).map some

lemma asOutput_follows : Follows q d asOutput Parser.asOutput :=
  .check (by nofun) (outputName_follows.map some) (.pure none)

lemma aggregation_followsAt : FollowsAt q d aggregation Parser.aggregationAt := by
  intro t ts hts
  rw [aggregation, run_bind (run_current_cons hts), Parser.aggregationAt]
  by_cases hword : t.kind.isWord = true
  · rw [if_pos hword, hword, Bool.not_true, if_neg Bool.false_ne_true]
    cases AggregateFunction.ofName? t.text with
    | none => exact .refuse t _
    | some function =>
      refine .advance hts (.bind aggregatedField_follows fun field => ?_)
      refine .ite (fun _ => .refuse t _) fun _ => ?_
      exact .bind asOutput_follows fun output => .pure _
  · rw [if_neg hword, Bool.eq_false_iff.2 hword, Bool.not_false, if_pos rfl]
    exact .unexpected hts _

lemma aggregations_follows : Follows q d aggregations Parser.aggregations := by
  rw [aggregations, Parser.aggregations]
  refine .bind_image (.collect (fun all => ?_) (fun all t ts hts => ?_) []) fun all => ?_
  · rw [run_bind run_current_nil, q.stop_kind]
    rfl
  · rw [run_bind (run_current_cons hts)]
    have hend := kind_ne_eof hts
    split
    · next hkind =>
      rw [hkind, run_bind (run_advance_cons hts)]
      exact .skip
    · next hkind =>
      rw [hkind]
      exact .stop
    · next hkind =>
      rw [hkind]
      exact .stop
    · next hcomma hby hpipe =>
      simp only
      rw [run_bind (run_atParameter_cons hts _)]
      by_cases hspan : startsParameter "span" t ts = true
      · rw [if_pos hspan, if_pos hspan]
        exact .stop
      · rw [if_neg hspan, if_neg hspan]
        exact .one (aggregation_followsAt hts)
  · rw [List.nil_append]
    exact .ite (fun _ => .unexpected _) fun _ => .pure all

end Passage

end LogQuery
