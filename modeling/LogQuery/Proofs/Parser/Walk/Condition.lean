import LogQuery.Proofs.Parser.Walk.Fields

namespace LogQuery

namespace Parser

variable {s : Setting} {t : Token} {ts : List Token}

/-- Refuses the end of the query. -/
def requireToken (what : Expectation) : Parser Unit := do
  if (← nextKind?).isNone then fail (.expected what) else pure ()

end Parser

namespace Passage

open Walk

variable {q : Passage} {t : Token} {ts : List Token} {d : Nat}

/-! ### Values -/

lemma value_followsAt (what : Expectation) :
    FollowsAt q d (value what) (Parser.valueAt what) := by
  intro t ts hts
  rw [value, run_bind (run_current_cons hts)]
  refine .ite (fun _ => .advance hts (.pure _)) fun _ => ?_
  refine .ite (fun _ => .advance hts (.pure _)) fun _ => ?_
  refine .ite (fun _ => .bind (glue_follows hts) fun text left hleft => ?_) fun _ => ?_
  · cases Binary64.ofText? text with
    | none => exact .done List.suffix_rfl
    | some x => exact .done List.suffix_rfl
  · refine .ite (fun _ => .bind (glue_follows hts) fun text left hleft => ?_) fun _ => ?_
    · exact .done List.suffix_rfl
    · exact .unexpected hts _

lemma value_follows (what : Expectation) :
    Follows q d (value what) (Parser.take what >>= Parser.valueAt what) := by
  refine .take (value_followsAt what) ?_
  rw [value, run_bind run_current_nil, q.stop_kind]
  exact .unexpected List.nil_suffix _

/-- The walk has found a token that the reader is about to take. -/
lemma Tells.bind_take {α β : Type} {what : Expectation} {p : Parser α} {g : α → Token → Parser β}
    {w : Walk α} {f : α → Walk β}
    (h : Tells q d ts ((p >>= fun a => Parser.requireToken what >>= fun _ => pure a).outcome
      q.setting ts) (q.run w ts d)) (hts : ts <:+ q.front) (hf : ∀ a, FollowsAt q d (f a) (g a)) :
    Tells q d ts ((p >>= fun a => Parser.take what >>= g a).outcome q.setting ts)
      (q.run (w >>= f) ts d) := by
  rw [Parser.outcome_bind] at h ⊢
  rw [run_bind_apply]
  generalize q.run w ts d = x at h ⊢
  generalize p.outcome q.setting ts = r at h ⊢
  rcases r with e | ⟨a, left⟩
  · cases h with
    | refused h => exact .refused h
  · cases left with
    | nil =>
      change Tells q d ts (.error ⟨.expected what, q.stop⟩) x at h
      cases h with
      | refused h => exact .refused h
    | cons t left =>
      change Tells q d ts (.ok (a, t :: left)) x at h
      cases h with
      | done h =>
        have hnext := (hf a (h.trans hts)).mono h
        rw [← Parser.outcome_take_bind_cons what] at hnext
        exact hnext

lemma valueList_follows : Follows q d valueList Parser.valueList := by
  refine .bind (.consume (by nofun) _) fun opening ts hts => ?_
  refine .bind_take (Tells.loop (P := fun values => Parser.many _ >>= fun more =>
    Parser.requireToken _ >>= fun _ => pure (values ++ more)) (fun values ts hts => ?_) [] hts) hts
    fun values t ts hts => .advance hts (.ite (fun _ => .refuse t _) fun _ => .pure _)
  cases ts with
  | nil =>
    rw [run_bind (run_check_nil (by nofun)), if_neg Bool.false_ne_true,
      run_bind (run_check_nil (by nofun)), if_neg Bool.false_ne_true, run_bind run_check_eof_nil,
      if_pos rfl, run_unexpected hts, Parser.outcome_many_bind_nil]
    exact .refused List.suffix_rfl
  | cons t ts =>
    rw [run_bind (run_check_cons hts _)]
    by_cases hclose : t.kind = .symbol .rParen
    · rw [if_pos (beq_iff_eq.2 hclose), Parser.outcome_many_bind_stop _ (if_pos hclose),
        List.append_nil]
      exact .ended List.suffix_rfl
    rw [if_neg (mt beq_iff_eq.1 hclose), run_bind (run_check_cons hts _)]
    by_cases hcomma : t.kind = .symbol .comma
    · rw [if_pos (beq_iff_eq.2 hcomma), run_bind (run_advance_cons hts), run_pure,
        Parser.outcome_many_bind_turn _ ((if_neg hclose).trans (if_pos hcomma)), pure_bind]
      exact .again values (List.suffix_cons t ts) (Nat.lt_succ_self _)
    rw [if_neg (mt beq_iff_eq.1 hcomma), run_bind (run_check_cons hts _),
      if_neg (mt beq_iff_eq.1 (kind_ne_eof hts)),
      Parser.outcome_many_bind_turn _ ((if_neg hclose).trans (if_neg hcomma)), bind_map_left]
    refine .bind (value_followsAt _ hts) fun value left _ hlength => ?_
    rw [run_pure]
    simp only [Option.toList_some, ← List.append_assoc]
    exact .again (values ++ [value]) List.suffix_rfl (Nat.lt_succ_of_le hlength)

/-! ### Terms -/

lemma ne_notIn_of_comparisonOf? {kind : TokenKind} {c : Comparison}
    (h : Parser.comparisonOf? kind = some c) : c ≠ .notIn := by
  rintro rfl
  unfold Parser.comparisonOf? at h
  split at h
  all_goals cases h

/-- The token, and the one behind it, are the two words of `NOT IN`. -/
def writesNotIn (sign : Token) (rest : List Token) : Bool :=
  decide (sign.kind = .clause .not_) && rest.head?.any (·.kind == .clause .in_)

lemma exists_of_writesNotIn {sign : Token} {rest : List Token} (h : writesNotIn sign rest = true) :
    ∃ sign' rest', rest = sign' :: rest' := by
  rw [writesNotIn, Bool.and_eq_true] at h
  cases rest with
  | nil => cases h.2
  | cons sign' rest' => exact ⟨sign', rest', rfl⟩

lemma run_peek_two {sign : Token} {rest : List Token} (hts : t :: sign :: rest <:+ q.front) :
    q.run (peek 2) (t :: sign :: rest) d =
      .done (rest.head?.getD q.stop) (q.cursor (t :: sign :: rest) d) := by
  rw [run_peek hts (Nat.le_add_left 2 _), List.head?_eq_getElem?]
  rfl

lemma run_comparisonAhead_nil (hts : [t] <:+ q.front) :
    q.run comparisonAhead [t] d = .done none (q.cursor [t] d) := by
  have hpeek : q.run (peek 1) [t] d = .done q.stop (q.cursor [t] d) :=
    run_peek hts (Nat.le_refl 1)
  rw [comparisonAhead, run_bind hpeek, q.stop_kind]
  rfl

lemma run_comparisonAhead_cons {sign : Token} {rest : List Token}
    (hts : t :: sign :: rest <:+ q.front) :
    q.run comparisonAhead (t :: sign :: rest) d =
      .done ((Parser.comparisonOf? sign.kind).or
        (if writesNotIn sign rest then some .notIn else none))
        (q.cursor (t :: sign :: rest) d) := by
  have hpeek : q.run (peek 1) (t :: sign :: rest) d = .done sign (q.cursor (t :: sign :: rest) d) :=
    run_peek hts (Nat.le_add_left 1 _)
  rw [comparisonAhead, run_bind hpeek]
  cases Parser.comparisonOf? sign.kind with
  | some c => rfl
  | none =>
    dsimp only
    rw [Option.none_or, writesNotIn]
    by_cases hnot : sign.kind = .clause .not_
    · rw [if_pos (beq_iff_eq.2 hnot), run_bind (run_peek_two hts), decide_eq_true hnot,
        Bool.true_and]
      cases rest with
      | nil =>
        rw [List.head?_nil, Option.getD_none, q.stop_kind]
        rfl
      | cons sign' rest =>
        change q.run (if (sign'.kind == .clause .in_) = true then _ else _) _ d = _
        rw [List.head?_cons, Option.any_some]
        split
        · rfl
        · rfl
    · rw [if_neg (mt beq_iff_eq.1 hnot), decide_eq_false hnot]
      rfl

/-- The comparison behind a field: the walk looks at it, where the reader takes it. -/
lemma Tells.comparison {α : Type} {g : Option (Comparison × Token) → Parser α}
    {f : Option Comparison → Walk α} (hts : t :: ts <:+ q.front)
    (hnone : Tells q d (t :: ts) ((g none).outcome q.setting ts) (q.run (f none) (t :: ts) d))
    (hsign : ∀ c sign rest, c ≠ .notIn → t :: sign :: rest <:+ q.front →
      Tells q d (t :: sign :: rest) ((g (some (c, sign))).outcome q.setting rest)
        (q.run (f (some c)) (t :: sign :: rest) d))
    (hnotIn : ∀ sign sign' rest, t :: sign :: sign' :: rest <:+ q.front →
      Tells q d (t :: sign :: sign' :: rest) ((g (some (.notIn, sign'))).outcome q.setting rest)
        (q.run (f (some .notIn)) (t :: sign :: sign' :: rest) d)) :
    Tells q d (t :: ts) ((Parser.comparison >>= g).outcome q.setting ts)
      (q.run (comparisonAhead >>= f) (t :: ts) d) := by
  cases ts with
  | nil =>
    rw [run_bind (run_comparisonAhead_nil hts), Parser.comparison,
      Parser.outcome_optional_bind_nil]
    exact hnone
  | cons sign rest =>
    rw [run_bind (run_comparisonAhead_cons hts), Parser.comparison]
    cases hsigned : Parser.comparisonOf? sign.kind with
    | some c =>
      rw [Parser.outcome_optional_bind_turn _ (by simp only [hsigned]; rfl), pure_bind]
      exact hsign c sign rest (ne_notIn_of_comparisonOf? hsigned) hts
    | none =>
      rw [Option.none_or]
      by_cases hwrites : writesNotIn sign rest = true
      · obtain ⟨sign', rest, rfl⟩ := exists_of_writesNotIn hwrites
        rw [if_pos hwrites, Parser.outcome_optional_bind_turn _
          (by simp only [hsigned]; exact if_pos hwrites), bind_assoc,
          Parser.outcome_take_bind_cons, pure_bind]
        exact hnotIn sign sign' rest hts
      · rw [if_neg hwrites, Parser.outcome_optional_bind_stop _
          (by simp only [hsigned]; exact if_neg hwrites)]
        exact hnone

lemma value_bind_follows {α : Type} {what : Expectation} {f : Value → Walk α}
    {g : Value → Parser α} (hf : ∀ v, Follows q d (f v) (g v)) :
    Follows q d (value what >>= f)
      (Parser.take what >>= fun t => Parser.valueAt what t >>= g) := by
  have hbind := (value_follows what).bind hf
  rw [bind_assoc] at hbind
  exact hbind

lemma term_followsAt : FollowsAt q d term Parser.termAt := by
  intro t ts hts
  rw [term, run_bind (run_current_cons hts)]
  refine .ite (fun _ => .bind (glue_follows hts) fun text left _ => .done List.suffix_rfl)
    fun _ => ?_
  refine .ite (fun _ => .advance hts (.pure _)) fun _ => ?_
  refine .ite (fun _ => .advance hts (.pure _)) fun _ => ?_
  refine .ite (fun _ => ?_) fun _ => .unexpected hts _
  refine .comparison hts ?_ (fun c sign rest hc hts => ?_) fun sign sign' rest hts => ?_
  · exact .bind (glue_follows hts) fun text left _ => .done List.suffix_rfl
  · have hrest := suffix_of_cons (suffix_of_cons hts)
    have hsuffix : rest <:+ t :: sign :: rest := List.suffix_append [t, sign] rest
    dsimp only
    rw [run_bind (run_advance_cons hts), comparisonSign, if_neg hc,
      run_bind (run_advance_cons (suffix_of_cons hts))]
    refine .mono ?_ hsuffix
    cases c with
    | isIn => exact Follows.bind valueList_follows (fun v => .pure _) hrest
    | notIn => exact absurd rfl hc
    | eq | notEq | lt | ltEq | gt | gtEq | contains =>
      exact value_bind_follows (fun v => .pure _) hrest
  · have hsuffix : rest <:+ t :: sign :: sign' :: rest := List.suffix_append [t, sign, sign'] rest
    have hbehind := suffix_of_cons hts
    dsimp only
    rw [run_bind (run_advance_cons hts), comparisonSign, if_pos rfl, bind_assoc,
      run_bind (run_advance_cons hbehind), run_bind (run_advance_cons (suffix_of_cons hbehind))]
    refine .mono ?_ hsuffix
    exact Follows.bind valueList_follows (fun v => .pure _)
      (suffix_of_cons (suffix_of_cons hbehind))

/-! ### Conjunctions and disjunctions -/

/-- The token that is next may not end a condition. -/
lemma requireCondition_follows {α : Type} (what : Expectation) {w : Walk α} {g : Unit → Parser α}
    (h : Follows q d w (g ())) :
    Follows q d (do if ← atConditionEnd then unexpected what else w)
      (Parser.requireCondition what >>= g) := by
  intro ts hts
  rw [atConditionEnd, bind_assoc, Parser.requireCondition, bind_assoc]
  cases ts with
  | nil =>
    rw [run_bind run_current_nil, q.stop_kind]
    exact .unexpected hts what
  | cons t ts =>
    rw [run_bind (run_current_cons hts), Parser.outcome_nextKind?_bind_cons]
    have hend := kind_ne_eof hts
    generalize t.kind = kind at hend ⊢
    split
    · next hkind =>
      cases hkind
      exact .unexpected hts what
    · next hkind =>
      cases hkind
      exact .unexpected hts what
    · next hkind =>
      cases hkind
      exact .unexpected hts what
    · next hkind =>
      cases hkind
      exact .unexpected hts what
    · next hkind => cases hkind
    · next hand hor hparen hpipe _ =>
      rw [Option.some.injEq] at hand hor hparen hpipe
      simp only
      rw [pure_bind, pure_bind]
      exact h hts

lemma conjunction_follows {w : Walk (Option Condition)} {p : Parser.ConditionAt}
    (h : FollowsAt q d w p) : Follows q d (conjunction w) (Parser.conjunction p) := by
  refine .bind_image (.collect (fun members => ?_) (fun members t ts hts => ?_) []) fun members =>
    .pure _
  · rw [run_bind run_current_nil, q.stop_kind]
    rfl
  · rw [run_bind (run_current_cons hts)]
    have hend := kind_ne_eof hts
    split
    · next hkind =>
      rw [hkind]
      exact .stop
    · next hkind =>
      rw [hkind]
      exact .stop
    · next hkind =>
      rw [hkind]
      exact .stop
    · next hkind =>
      rw [hkind]
      refine .turn ?_
      rw [bind_assoc]
      exact .advance hts (requireCondition_follows _ (.pure _))
    · simp only
      exact .atMostOne (h hts)

lemma disjunction_follows {w : Walk (Option Condition)} {p : Parser.ConditionAt}
    (h : FollowsAt q d w p) : Follows q d (disjunction w) (Parser.disjunction p) := by
  refine .bind (conjunction_follows h) fun first => ?_
  refine .bind_image (.collect (fun members => ?_) (fun members t ts hts => ?_) first.toList)
    fun members => .pure _
  · rw [run_bind (run_check_nil (by nofun))]
    rfl
  · rw [run_bind (run_check_cons hts _)]
    by_cases hor : t.kind = .clause .or_
    · rw [if_pos (beq_iff_eq.2 hor), if_pos hor]
      refine .turn ?_
      rw [bind_assoc]
      refine .advance hts (requireCondition_follows _ (.bind (conjunction_follows h) fun one => ?_))
      rw [TurnTells.foldl_toList]
      exact .pure _
    · rw [if_neg (mt beq_iff_eq.1 hor), if_neg hor]
      exact .stop

/-! ### What nests -/

/-- Behind an opening parenthesis the walk and the reader take conditions and the closing one. -/
lemma unaryOf_followsAt {w : Walk (Option Condition)} {operand inside : Parser (Option Condition)}
    (hnot : Nests q d w operand) (hparen : Nests q d (disjunction w) inside) :
    FollowsAt q d (unaryOf w) (Parser.unaryBy operand
      (inside >>= fun inner => Parser.expect (.symbol .rParen) .closeParen >>= fun _ => pure inner)
      Parser.termAt) := by
  intro t ts hts
  rw [unaryOf, run_bind (run_current_cons hts)]
  split
  · next hkind =>
    simp only [Parser.unaryBy, hkind]
    refine .advance hts (hnot.enter_leave fun operand => ?_)
    cases operand with
    | none => exact .unexpected _
    | some c => exact .pure _
  · next hkind =>
    simp only [Parser.unaryBy, hkind]
    refine .advance hts (hparen.enter fun inner ts hts => ?_)
    exact (Follows.consume (by rintro ⟨⟩) _ hts).bind fun _ left _ => .done List.suffix_rfl
  · next hnot hparen =>
    rw [Parser.unaryBy_of_term hnot hparen]
    exact term_followsAt hts

lemma unary_followsAt {n : Nat} (hd : d + n = q.limits.maxDepth) :
    FollowsAt q d (unary (n + 1)) (Parser.unary n) := by
  induction n generalizing d with
  | zero =>
    have hdepth := Nat.le_of_eq hd.symm
    exact unaryOf_followsAt (.tooDeep hdepth fun _ => rfl) (.tooDeep hdepth fun _ => rfl)
  | succ n ih =>
    have hdepth : d < q.limits.maxDepth := by omega
    have hnext : d + 1 + n = q.limits.maxDepth := by omega
    refine unaryOf_followsAt (.deeper hdepth (.take (ih hnext) ?_))
      (.deeper hdepth (disjunction_follows (ih hnext)))
    rw [unary, unaryOf, run_bind run_current_nil, q.stop_kind]
    dsimp only
    rw [term, run_bind run_current_nil, q.stop_kind]
    exact .unexpected List.nil_suffix _

/-- In front of a stage all levels are left. -/
lemma conditions_follows : Follows q 0 conditions Parser.conditions := by
  intro ts hts
  rw [conditions, run_bind run_limits]
  refine Follows.bind (disjunction_follows (unary_followsAt (Nat.zero_add _)))
    (fun whole ts hts => ?_) hts
  cases ts with
  | nil =>
    rw [run_bind run_atStageEnd_nil]
    exact .done List.suffix_rfl
  | cons t ts =>
    rw [run_bind (run_atStageEnd_cons hts), Parser.lift_eq, Parser.outcome_nextKind?_bind_cons]
    by_cases hpipe : t.kind = .symbol .pipe
    · rw [hpipe]
      exact .done List.suffix_rfl
    · rw [if_neg (mt beq_iff_eq.1 hpipe)]
      split
      · next h => cases h
      · next h => exact absurd (Option.some.inj h) hpipe
      · exact .unexpected hts _

end Passage

end LogQuery
