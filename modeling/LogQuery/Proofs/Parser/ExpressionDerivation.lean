import LogQuery.Proofs.Parser.ExpressionReading

namespace LogQuery.Parser

variable {s : Setting} {ts rest : List Token} {e : EvalExpr} {p : Parser EvalExpr}

/-! ### Everything that is read is derived -/

/-- Whatever the reader takes derives what it returns. -/
def Sound (p : Parser EvalExpr) (s : Setting) (level : ExprLevel) (n : Nat) : Prop :=
  ∀ ⦃ts e rest⦄, p.Reads s ts e rest → ∃ front, ts = front ++ rest ∧ DerivesExpr level n front e

variable {level : ExprLevel} {n : Nat}

/-- What stands in front of a chain's loop is its left operand, which grows with every round. -/
lemma derives_groupLeft (hchain : level.chains = true) (hp : Sound p s level.next n)
    {front : List Token} {more : List (BinaryOperator × EvalExpr)}
    (hfront : DerivesExpr level n front e)
    (h : (many (chainTurn (levelOperator? level) p)).Reads s ts more rest) :
    ∃ front', front ++ ts = front' ++ rest ∧ DerivesExpr level n front' (groupLeft e more) := by
  induction more generalizing front e ts with
  | nil =>
    rcases reads_chain.1 h with ⟨-, rfl, -⟩ | ⟨_, _, _, _, _, _, _, _, _, _, hmore⟩
    · exact ⟨front, rfl, hfront⟩
    · cases hmore
  | cons x more ih =>
    rcases reads_chain.1 h with
      ⟨hmore, -, -⟩ | ⟨t, ts', op, right, mid, more', rfl, hop, hright, hrest, hmore⟩
    · cases hmore
    · cases hmore
      obtain ⟨hlevel, hkind⟩ := levelOperator?_eq_some.1 hop
      obtain ⟨back, rfl, hback⟩ := hp hright
      obtain ⟨front', heq, hfront'⟩ := ih (.chain hchain hlevel hkind hfront hback) hrest
      refine ⟨front', ?_, hfront'⟩
      rw [← heq]
      simp

/-- A chain is derived operand by operand, grouped to the left. -/
lemma Sound.chain (hchain : level.chains = true)
    (hp : Sound (levelReader p level.next) s level.next n) :
    Sound (levelReader p level) s level n := by
  intro ts e rest h
  rw [levelReader_of_chains hchain] at h
  obtain ⟨first, mid, more, hfirst, hmore, rfl⟩ := reads_leftChain.1 h
  obtain ⟨front, rfl, hfront⟩ := hp hfirst
  exact derives_groupLeft hchain hp (.single hfront) hmore

/-- Comparisons do not chain: at most one operator stands between two sums. -/
lemma Sound.comparison (hp : Sound (levelReader p .sum) s .sum n) :
    Sound (levelReader p .comparison) s .comparison n := by
  intro ts e rest h
  rcases reads_comparisonOfSums.1 h with ⟨he, -⟩ | ⟨left, t, ts', op, right, hl, hop, hr, rfl⟩
  · obtain ⟨front, rfl, hfront⟩ := hp he
    exact ⟨front, rfl, .single hfront⟩
  · have hop : levelOperator? .comparison t.kind = some op := hop
    obtain ⟨hlevel, hkind⟩ := levelOperator?_eq_some.1 hop
    obtain ⟨front, rfl, hfront⟩ := hp hl
    obtain ⟨back, rfl, hback⟩ := hp hr
    exact ⟨front ++ t :: back, by simp, .compare hlevel hkind hfront hback⟩

/-- The levels of the grammar are those of the reader, from the weakest down. -/
lemma Sound.allLevels (hp : Sound p s .unary n) : Sound (allLevels p) s .disjunction n := by
  have hproduct : Sound (levelReader p .product) s .product n := .chain rfl hp
  have hsum : Sound (levelReader p .sum) s .sum n := .chain rfl hproduct
  have hconjunction : Sound (levelReader p .conjunction) s .conjunction n :=
    .chain rfl hsum.comparison
  have hdisjunction : Sound (levelReader p .disjunction) s .disjunction n := .chain rfl hconjunction
  exact hdisjunction

/-- Each turn reads a comma and one more argument. -/
lemma Sound.moreArguments {q : Parser EvalExpr} (hq : Sound q s .disjunction n) {es : List EvalExpr}
    (h : (many (argumentTurn q)).Reads s ts es rest) :
    ∃ more : List (Token × List Token × EvalExpr),
      ts = (more.flatMap fun x => x.1 :: x.2.1) ++ rest ∧ es = more.map (fun x => x.2.2) ∧
        (∀ x ∈ more, x.1.kind = .symbol .comma) ∧
        ∀ x ∈ more, DerivesExpr .disjunction n x.2.1 x.2.2 := by
  induction es generalizing ts with
  | nil =>
    rcases reads_moreArguments.1 h with ⟨-, rfl, -⟩ | ⟨_, _, _, _, _, _, _, _, _, hes⟩
    · exact ⟨[], by simp⟩
    · cases hes
  | cons e es ih =>
    rcases reads_moreArguments.1 h with
      ⟨hes, -, -⟩ | ⟨t, ts', e', mid, es', rfl, hkind, he, hrest, hes⟩
    · cases hes
    · cases hes
      obtain ⟨front, rfl, hfront⟩ := hq he
      obtain ⟨more, rfl, rfl, hcommas, hmore⟩ := ih hrest
      refine ⟨(t, front, e) :: more, by simp, rfl, ?_, ?_⟩
      · simpa [hkind] using hcommas
      · simpa [hfront] using hmore

/-- A word is a call if a parenthesis follows, and else `null` or a field. -/
lemma Sound.wordOperand (hp : Sound p s .disjunction n) {t : Token} (ht : t.kind.isWord = true)
    (h : (wordOperand p t).Reads s ts e rest) :
    ∃ front, ts = front ++ rest ∧ DerivesExpr .primary (n + 1) (t :: front) e := by
  rcases reads_wordOperand.1 h with ⟨opening, ts', es, rfl, hopen, hes, rfl⟩ | ⟨-, rfl, rfl⟩
  · rcases reads_arguments.1 hes with
      ⟨rfl, closing, rfl, hclose⟩ | ⟨-, e, mid, es', closing, he, hes', hclose, rfl⟩
    · exact ⟨[opening, closing], rfl, .callEmpty ht hopen hclose⟩
    · obtain ⟨front, rfl, hfront⟩ := hp he
      obtain ⟨more, rfl, rfl, hcommas, hmore⟩ := hp.moreArguments hes'
      exact ⟨opening :: (front ++ (more.flatMap fun x => x.1 :: x.2.1) ++ [closing]), by simp,
        .call ht hopen hfront hcommas hmore hclose⟩
  · refine ⟨[], rfl, ?_⟩
    by_cases hnull : Text.equalIgnoringCase t.text "null" = true
    · rw [if_pos hnull]
      exact .null ht hnull
    · rw [if_neg hnull]
      exact .field ht (Bool.eq_false_iff.2 hnull)

/-- An operand opens one level for what is in it. -/
lemma Sound.operandWith (hp : Sound p s .unary n) : Sound (operandWith p) s .unary (n + 1) := by
  intro ts e rest h
  obtain ⟨t, ts', rfl, ⟨hkind, e', he, rfl⟩ | ⟨hkind, closing, he, hclose⟩ | ⟨hkind, rfl, rfl⟩ |
    ⟨hkind, rfl, rfl⟩ | ⟨hkind, rfl, rfl⟩ | ⟨hword, h⟩⟩ := reads_operandWith.1 h
  · obtain ⟨front, rfl, hfront⟩ := hp he
    exact ⟨t :: front, rfl, .minus hkind hfront⟩
  · obtain ⟨front, rfl, hfront⟩ := hp.allLevels he
    exact ⟨t :: (front ++ [closing]), by simp, .single (.parens hkind hfront hclose)⟩
  · exact ⟨[t], rfl, .single (.number hkind)⟩
  · exact ⟨[t], rfl, .single (.string hkind)⟩
  · exact ⟨[t], rfl, .single (.regex hkind)⟩
  · obtain ⟨front, rfl, hfront⟩ := hp.allLevels.wordOperand hword h
    exact ⟨t :: front, rfl, .single hfront⟩

/-- Whatever is read is derived. The induction is on the budget. -/
lemma sound_operandAt (n : Nat) : Sound (operandAt n) s .unary n := by
  induction n with
  | zero =>
    intro ts e rest h
    exact (not_reads_tooDeep h).elim
  | succ n ih =>
    rw [operandAt_succ]
    exact ih.operandWith

/-! ### Everything that is derived is read -/

lemma EndsLevel.operator_eq_none (h : EndsLevel level ts) :
    ∀ t ∈ ts.head?, levelOperator? level t.kind = none := by
  intro t ht
  refine levelOperator?_eq_none.2 fun op hop hlevel => ?_
  have hrank := (h t ht).2 op hop
  rw [hlevel] at hrank
  exact Nat.lt_irrefl _ hrank

/-- The reader takes the tokens wherever the level ends behind them. -/
def Complete (p : Parser EvalExpr) (s : Setting) (level : ExprLevel) (ts : List Token)
    (e : EvalExpr) : Prop :=
  ∀ ⦃rest⦄, EndsLevel level rest → (levelReader p level).Reads s (ts ++ rest) e rest

/-- The reader takes the tokens as the beginning of any longer chain of their level. -/
def Begins (p : Parser EvalExpr) (s : Setting) (level : ExprLevel) (ts : List Token)
    (e : EvalExpr) : Prop :=
  ∀ ⦃mid more rest⦄, EndsLevel level.next mid →
    (many (chainTurn (levelOperator? level) (levelReader p level.next))).Reads s mid more rest →
      (levelReader p level).Reads s (ts ++ mid) (groupLeft e more) rest

/-- A chain that may go on may also end here. -/
lemma Begins.complete (h : Begins p s level ts e) : Complete p s level ts e := by
  intro rest hrest
  exact h hrest.next (reads_chain.2 (.inl ⟨rfl, rfl, hrest.operator_eq_none⟩))

/-- A chain begins with an operand of the next level. -/
lemma Complete.begins (hchain : level.chains = true) (h : Complete p s level.next ts e) :
    Begins p s level ts e := by
  intro mid more rest hmid hmore
  rw [levelReader_of_chains hchain]
  exact reads_leftChain.2 ⟨e, mid, more, h hmid, hmore, rfl⟩

/-- A chain is extended on its right end. -/
lemma Begins.chain {op : BinaryOperator} {t : Token} {ts' : List Token} {left right : EvalExpr}
    (hchain : level.chains = true) (hlevel : op.level = level) (hkind : t.kind = op.kind)
    (hleft : Begins p s level ts left) (hright : Complete p s level.next ts' right) :
    Begins p s level (ts ++ t :: ts') (.binary op left right) := by
  intro mid more rest hmid hmore
  have hround : (many (chainTurn (levelOperator? level) (levelReader p level.next))).Reads s
      (t :: (ts' ++ mid)) ((op, right) :: more) rest :=
    reads_chain.2 (.inr ⟨t, _, op, right, mid, more, rfl,
      levelOperator?_eq_some.2 ⟨hlevel, hkind⟩, hright hmid, hmore, rfl⟩)
  have hends : EndsLevel level.next (t :: (ts' ++ mid)) := by
    refine endsLevel_of_operator hkind ?_
    rw [hlevel]
    cases level <;> first | decide | cases hchain
  rw [List.append_assoc, List.cons_append]
  exact hleft hends hround

lemma Complete.comparison (h : Complete p s .sum ts e) : Complete p s .comparison ts e := by
  intro rest hrest
  exact reads_comparisonOfSums.2 (.inl ⟨h hrest.next, hrest.operator_eq_none⟩)

lemma Complete.compare {op : BinaryOperator} {t : Token} {ts' : List Token} {left right : EvalExpr}
    (hlevel : op.level = .comparison) (hkind : t.kind = op.kind)
    (hleft : Complete p s .sum ts left) (hright : Complete p s .sum ts' right) :
    Complete p s .comparison (ts ++ t :: ts') (.binary op left right) := by
  intro rest hrest
  rw [List.append_assoc, List.cons_append]
  have hends : EndsLevel .sum (t :: (ts' ++ rest)) :=
    endsLevel_of_operator hkind (by rw [hlevel]; decide)
  have hop : levelOperator? .comparison t.kind = some op :=
    levelOperator?_eq_some.2 ⟨hlevel, hkind⟩
  exact reads_comparisonOfSums.2
    (.inr ⟨left, t, ts' ++ rest, op, right, hleft hends, hop, hright hrest.next, rfl⟩)

section Arguments

variable {closing : Token} {more : List (Token × List Token × EvalExpr)}

/-- The arguments are read up to the closing parenthesis. -/
lemma Complete.moreArguments (hclose : closing.kind = .symbol .rParen)
    (hcommas : ∀ x ∈ more, x.1.kind = .symbol .comma)
    (h : ∀ x ∈ more, Complete p s .disjunction x.2.1 x.2.2) :
    (many (argumentTurn (allLevels p))).Reads s
      ((more.flatMap fun x => x.1 :: x.2.1) ++ closing :: rest) (more.map fun x => x.2.2)
      (closing :: rest) := by
  induction more with
  | nil => exact reads_moreArguments.2 (.inl ⟨rfl, rfl, by simp [hclose]⟩)
  | cons x more ih =>
    have hcommas' : ∀ x ∈ more, x.1.kind = .symbol .comma := fun y hy => hcommas y (by simp [hy])
    have hends : EndsLevel .disjunction ((more.flatMap fun x => x.1 :: x.2.1) ++ closing :: rest) :=
      endsLevel_arguments hclose hcommas'
    have hx := h x (by simp) hends
    have hmore := ih hcommas' fun y hy => h y (by simp [hy])
    refine reads_moreArguments.2 (.inr ⟨x.1, _, x.2.2, _, _, ?_, hcommas x (by simp), hx, hmore,
      rfl⟩)
    simp

lemma Complete.call {t opening : Token} (ht : t.kind.isWord = true)
    (hopen : opening.kind = .symbol .lParen)
    (hhead : ∃ t ts', ts = t :: ts' ∧ t.kind ≠ .symbol .rParen)
    (h : Complete p s .disjunction ts e) (hcommas : ∀ x ∈ more, x.1.kind = .symbol .comma)
    (hmore : ∀ x ∈ more, Complete p s .disjunction x.2.1 x.2.2)
    (hclose : closing.kind = .symbol .rParen) :
    Complete (operandWith p) s .primary
      (t :: opening :: (ts ++ (more.flatMap fun x => x.1 :: x.2.1) ++ [closing]))
      (.call (Text.lowercase t.text) (e :: more.map fun x => x.2.2)) := by
  intro rest _
  have hends : EndsLevel .disjunction ((more.flatMap fun x => x.1 :: x.2.1) ++ closing :: rest) :=
    endsLevel_arguments hclose hcommas
  have hfirst := h hends
  have harguments : (arguments (allLevels p)).Reads s
      (ts ++ ((more.flatMap fun x => x.1 :: x.2.1) ++ closing :: rest))
      (e :: more.map fun x => x.2.2) rest := by
    refine reads_arguments.2 (.inr ⟨?_, e, _, _, closing, hfirst,
      Complete.moreArguments hclose hcommas hmore, hclose, rfl⟩)
    obtain ⟨t', ts', rfl, ht'⟩ := hhead
    rintro _ ⟨⟩
    exact ht'
  refine reads_operandWith.2 ⟨t, _, rfl, .inr (.inr (.inr (.inr (.inr ⟨ht, ?_⟩))))⟩
  refine reads_wordOperand.2 (.inl ⟨opening, _, _, rfl, hopen, ?_, rfl⟩)
  simpa using harguments

end Arguments

lemma Complete.word {t : Token} (ht : t.kind.isWord = true) :
    Complete (operandWith p) s .primary [t]
      (if Text.equalIgnoringCase t.text "null" then .literal .null else .field t.text) := by
  intro rest hrest
  refine reads_operandWith.2 ⟨t, rest, rfl, .inr (.inr (.inr (.inr (.inr ⟨ht, ?_⟩))))⟩
  exact reads_wordOperand.2 (.inr ⟨fun t' ht' => (hrest t' ht').1, rfl, rfl⟩)

/-- An operand counts one level more than those that nest in it. -/
lemma complete_operandAt_of_lt (hlevel : level.chains = false)
    (h : ∀ m, n ≤ m → Complete (operandWith (operandAt m)) s level ts e) :
    ∀ m, n + 1 ≤ m → Complete (operandAt m) s level ts e ∧
      (level.chains = true → Begins (operandAt m) s level ts e) := by
  intro m hm
  obtain ⟨m, rfl⟩ := Nat.exists_eq_add_of_le' hm
  rw [← Nat.add_assoc, operandAt_succ]
  refine ⟨h _ (Nat.le_add_left n m), fun hchain => ?_⟩
  rw [hlevel] at hchain
  cases hchain

/-- The induction carries, for a level that chains, that what is derived begins any longer chain. -/
lemma DerivesExpr.reads (h : DerivesExpr level n ts e) :
    ∀ m, n ≤ m → Complete (operandAt m) s level ts e ∧
      (level.chains = true → Begins (operandAt m) s level ts e) := by
  induction h with
  | @single level n ts e _ ih =>
    intro m hm
    have ih := (ih m hm).1
    cases level
    case disjunction | conjunction | sum | product =>
      exact ⟨(ih.begins rfl).complete, ih.begins⟩
    case comparison => exact ⟨ih.comparison, nofun⟩
    case unary | primary => exact ⟨fun _ hrest => ih hrest.next, nofun⟩
  | chain hchain hlevel hkind _ _ ihleft ihright =>
    intro m hm
    have hbegins := ((ihleft m hm).2 hchain).chain hchain hlevel hkind (ihright m hm).1
    exact ⟨hbegins.complete, fun _ => hbegins⟩
  | compare hlevel hkind _ _ ihleft ihright =>
    intro m hm
    exact ⟨.compare hlevel hkind (ihleft m hm).1 (ihright m hm).1, nofun⟩
  | minus hkind _ ih =>
    refine complete_operandAt_of_lt rfl fun m hm rest hrest => ?_
    exact reads_operandWith.2 ⟨_, _, rfl, .inl ⟨hkind, _, (ih m hm).1 hrest, rfl⟩⟩
  | number hkind =>
    refine complete_operandAt_of_lt rfl fun m _ rest _ => ?_
    exact reads_operandWith.2 ⟨_, _, rfl, .inr (.inr (.inl ⟨hkind, rfl, rfl⟩))⟩
  | string hkind =>
    refine complete_operandAt_of_lt rfl fun m _ rest _ => ?_
    exact reads_operandWith.2 ⟨_, _, rfl, .inr (.inr (.inr (.inl ⟨hkind, rfl, rfl⟩)))⟩
  | regex hkind =>
    refine complete_operandAt_of_lt rfl fun m _ rest _ => ?_
    exact reads_operandWith.2 ⟨_, _, rfl, .inr (.inr (.inr (.inr (.inl ⟨hkind, rfl, rfl⟩))))⟩
  | null hword hnull =>
    refine complete_operandAt_of_lt rfl fun m _ => ?_
    simpa [hnull] using Complete.word (p := operandAt m) hword
  | field hword hnull =>
    refine complete_operandAt_of_lt rfl fun m _ => ?_
    simpa [hnull] using Complete.word (p := operandAt m) hword
  | callEmpty hword hopen hclose =>
    refine complete_operandAt_of_lt rfl fun m _ rest _ => ?_
    refine reads_operandWith.2 ⟨_, _, rfl, .inr (.inr (.inr (.inr (.inr ⟨hword, ?_⟩))))⟩
    exact reads_wordOperand.2 (.inl ⟨_, _, [], rfl, hopen,
      reads_arguments.2 (.inl ⟨rfl, _, rfl, hclose⟩), rfl⟩)
  | call hword hopen h hcommas _ hclose ih ihmore =>
    refine complete_operandAt_of_lt rfl fun m hm => ?_
    exact .call hword hopen h.head_ne (ih m hm).1 hcommas (fun x hx => (ihmore x hx m hm).1) hclose
  | @parens _ _ closing _ _ hopen _ hclose ih =>
    refine complete_operandAt_of_lt rfl fun m hm rest _ => ?_
    have hends : EndsLevel .disjunction (closing :: rest) :=
      endsLevel_of_endsExpression fun t ht => by cases ht; exact .inr (.inl hclose)
    refine reads_operandWith.2 ⟨_, _, rfl, .inr (.inl ⟨hopen, closing, ?_, hclose⟩)⟩
    have hread := (ih m hm).1 hends
    rw [List.append_cons] at hread
    exact hread

/-! ### Both directions -/

lemma reads_expression :
    expression.Reads s ts e rest ↔ (allLevels (operandAt s.maxDepth)).Reads s ts e rest := by
  rcases s with ⟨stop, _ | depth⟩
  · refine ⟨fun h => (not_reads_tooDeep h).elim, fun h => ?_⟩
    obtain ⟨front, -, hfront⟩ := (sound_operandAt 0).allLevels h
    exact (Nat.lt_irrefl 0 hfront.pos).elim
  · rfl

/-- Whatever is read as an expression is derived, within the limit on the nesting. -/
lemma derives_of_reads_expression (h : expression.Reads s ts e rest) :
    ∃ front, ts = front ++ rest ∧ DerivesExpr .disjunction s.maxDepth front e :=
  (sound_operandAt s.maxDepth).allLevels (reads_expression.1 h)

/-- The reader of expressions takes every derived expression that nests no deeper than it may,
wherever an expression can end behind it; and whatever it takes is derived. -/
theorem expression_reads_derived :
    (∀ (n : Nat) (ts : List Token) (e : EvalExpr), DerivesExpr .disjunction n ts e →
      ∀ (s : Setting) (rest : List Token), n ≤ s.maxDepth → EndsExpression rest →
        expression.Reads s (ts ++ rest) e rest) ∧
    ∀ (s : Setting) (ts : List Token) (e : EvalExpr) (rest : List Token),
      expression.Reads s ts e rest → ∃ (n : Nat) (front : List Token),
        n ≤ s.maxDepth ∧ ts = front ++ rest ∧ DerivesExpr .disjunction n front e := by
  constructor
  · intro n ts e h s rest hn hrest
    exact reads_expression.2 ((h.reads _ hn).1 (endsLevel_of_endsExpression hrest))
  · intro s ts e rest h
    obtain ⟨front, rfl, hfront⟩ := derives_of_reads_expression h
    exact ⟨s.maxDepth, front, Nat.le_refl _, rfl, hfront⟩

/-- The tokens of `a + b * c - d`. -/
def mixedTokens : List Token :=
  [(.identifier, "a"), (.symbol .plus, "+"), (.identifier, "b"), (.symbol .star, "*"),
    (.identifier, "c"), (.symbol .minus, "-"), (.identifier, "d")].map
      fun x => ⟨x.1, x.2, .start⟩

/-- What `a + b * c - d` stands for. -/
def mixedExpr : EvalExpr :=
  .binary .subtract (.binary .add (.field "a") (.binary .multiply (.field "b") (.field "c")))
    (.field "d")

theorem expression_reads_derived_mixed :
    DerivesExpr .disjunction 1 mixedTokens mixedExpr ∧
      expression.Reads ⟨⟨.eof, "", .start⟩, 1⟩ (mixedTokens ++ [⟨.eof, "", .start⟩]) mixedExpr
        [⟨.eof, "", .start⟩] ∧
      ∃ n front, n ≤ 1 ∧ mixedTokens ++ [⟨.eof, "", .start⟩] = front ++ [⟨.eof, "", .start⟩] ∧
        DerivesExpr .disjunction n front mixedExpr := by
  have hname {level : ExprLevel} (name : String)
      (h : Text.equalIgnoringCase name "null" = false) :
      DerivesExpr level 1 [⟨.identifier, name, .start⟩] (.field name) :=
    .of_primary (.field rfl h)
  have hproduct : DerivesExpr .product 1 _ (.binary .multiply (.field "b") (.field "c")) :=
    .chain (t := ⟨.symbol .star, "*", .start⟩) rfl rfl rfl (hname "b" (by decide))
      (hname "c" (by decide))
  have hplus : DerivesExpr .sum 1 _ (.binary .add (.field "a") _) :=
    .chain (t := ⟨.symbol .plus, "+", .start⟩) rfl rfl rfl (hname "a" (by decide)) hproduct
  have hminus : DerivesExpr .sum 1 _ (.binary .subtract _ (.field "d")) :=
    .chain (t := ⟨.symbol .minus, "-", .start⟩) rfl rfl rfl hplus (hname "d" (by decide))
  have hderives : DerivesExpr .disjunction 1 mixedTokens mixedExpr :=
    .single (.single (.single hminus))
  have hreads := expression_reads_derived.1 1 mixedTokens _ hderives ⟨⟨.eof, "", .start⟩, 1⟩
    [⟨.eof, "", .start⟩] (Nat.le_refl 1) (by rintro t ⟨⟩; decide)
  exact ⟨hderives, hreads, expression_reads_derived.2 _ _ _ _ hreads⟩

end LogQuery.Parser
