import LogQuery.Proofs.Parser.Precedence
import LogQuery.Proofs.Parser.Reading
import Mathlib.Tactic.SplitIfs

namespace LogQuery.Parser

variable {s : Setting} {ts rest : List Token} {e : EvalExpr} {p : Parser EvalExpr}

/-! ### The loops of the reader -/

/-- How the reader goes on behind the first operand of a chain. -/
def chainTurn (operator? : TokenKind → Option BinaryOperator) (operand : Parser EvalExpr) :
    Turn (Option (BinaryOperator × EvalExpr)) :=
  fun t _ => (operator? t.kind).map fun op => (fun right => some (op, right)) <$> operand

/-- The operands of a chain, grouped to the left. -/
def groupLeft (first : EvalExpr) (more : List (BinaryOperator × EvalExpr)) : EvalExpr :=
  more.foldl (fun left (op, right) => .binary op left right) first

variable {operator? : TokenKind → Option BinaryOperator}

/-- A chain is an operand and the turns behind it, grouped to the left. -/
lemma reads_leftChain :
    (leftChain operator? p).Reads s ts e rest ↔
      ∃ first mid more, p.Reads s ts first mid ∧
        (many (chainTurn operator? p)).Reads s mid more rest ∧ e = groupLeft first more := by
  change (p >>= fun first => many (chainTurn operator? p) >>= fun more =>
    pure (groupLeft first more)).Reads s ts e rest ↔ _
  simp only [reads_bind, reads_pure]
  constructor
  · rintro ⟨first, mid, hfirst, more, mid', hmore, rfl, rfl⟩
    exact ⟨first, mid, more, hfirst, hmore, rfl⟩
  · rintro ⟨first, mid, more, hfirst, hmore, rfl⟩
    exact ⟨first, mid, hfirst, more, rest, hmore, rfl, rfl⟩

/-- One operator with its operand after the other. -/
lemma reads_chain {more : List (BinaryOperator × EvalExpr)} :
    (many (chainTurn operator? p)).Reads s ts more rest ↔
      (more = [] ∧ rest = ts ∧ ∀ t ∈ ts.head?, operator? t.kind = none) ∨
        ∃ t ts' op right mid more', ts = t :: ts' ∧ operator? t.kind = some op ∧
          p.Reads s ts' right mid ∧ (many (chainTurn operator? p)).Reads s mid more' rest ∧
          more = (op, right) :: more' := by
  have hstops : Stops (chainTurn operator? p) ts ↔ ∀ t ∈ ts.head?, operator? t.kind = none := by
    refine Iff.trans (stops_iff (f := fun t => (operator? t.kind).map fun op =>
      (fun right => some (op, right)) <$> p)) ?_
    simp only [Option.map_eq_none_iff]
  rw [reads_many, hstops]
  refine or_congr_right ⟨?_, ?_⟩
  · rintro ⟨t, ts', q, one, mid, more', rfl, hturn, hq, hmore, rfl⟩
    obtain ⟨op, hop, rfl⟩ := Option.map_eq_some_iff.1 hturn
    obtain ⟨right, hright, rfl⟩ := reads_map.1 hq
    exact ⟨t, ts', op, right, mid, more', rfl, hop, hright, hmore, rfl⟩
  · rintro ⟨t, ts', op, right, mid, more', rfl, hop, hright, hmore, rfl⟩
    exact ⟨t, ts', _, some (op, right), mid, more', rfl, Option.map_eq_some_iff.2 ⟨op, hop, rfl⟩,
      reads_map.2 ⟨right, hright, rfl⟩, hmore, rfl⟩

/-- One sum, or two with an operator between them. -/
lemma reads_comparisonOfSums :
    (comparisonOfSums p).Reads s ts e rest ↔
      ((sum p).Reads s ts e rest ∧ ∀ t ∈ rest.head?, comparisonOperator? t.kind = none) ∨
        ∃ left t ts' op right, (sum p).Reads s ts left (t :: ts') ∧
          comparisonOperator? t.kind = some op ∧ (sum p).Reads s ts' right rest ∧
          e = .binary op left right := by
  change (sum p >>= fun left => optional (fun t _ => (comparisonOperator? t.kind).map fun op =>
    (fun right => (op, right)) <$> sum p) >>= fun right => pure _).Reads s ts e rest ↔ _
  simp only [reads_bind, reads_pure]
  constructor
  · rintro ⟨left, mid, hleft, o, mid', ho, rfl, rfl⟩
    rcases reads_optional.1 ho with ⟨rfl, rfl, hstop⟩ | ⟨t, ts', q, x, rfl, hturn, hq, rfl⟩
    · exact .inl ⟨hleft, by simpa [stops_iff] using hstop⟩
    · obtain ⟨op, hop, rfl⟩ := Option.map_eq_some_iff.1 hturn
      obtain ⟨right, hright, rfl⟩ := reads_map.1 hq
      exact .inr ⟨left, t, ts', op, right, hleft, hop, hright, rfl⟩
  · rintro (⟨he, hstop⟩ | ⟨left, t, ts', op, right, hleft, hop, hright, rfl⟩)
    · exact ⟨e, rest, he, none, rest,
        reads_optional.2 (.inl ⟨rfl, rfl, by simpa [stops_iff] using hstop⟩), rfl, rfl⟩
    · refine ⟨left, t :: ts', hleft, some (op, right), rest, ?_, rfl, rfl⟩
      exact reads_optional.2 (.inr ⟨t, ts', _, (op, right), rfl,
        Option.map_eq_some_iff.2 ⟨op, hop, rfl⟩, reads_map.2 ⟨right, hright, rfl⟩, rfl⟩)

/-! ### Operands -/

/-- How the reader goes on behind the first argument of a call. -/
def argumentTurn (expression : Parser EvalExpr) : Turn (Option EvalExpr) :=
  fun t _ => if t.kind = .symbol .comma then some (some <$> expression) else none

/-- One argument with a comma in front after the other. -/
lemma reads_moreArguments {es : List EvalExpr} :
    (many (argumentTurn p)).Reads s ts es rest ↔
      (es = [] ∧ rest = ts ∧ ∀ t ∈ ts.head?, t.kind ≠ .symbol .comma) ∨
        ∃ t ts' e mid es', ts = t :: ts' ∧ t.kind = .symbol .comma ∧ p.Reads s ts' e mid ∧
          (many (argumentTurn p)).Reads s mid es' rest ∧ es = e :: es' := by
  have hstops : Stops (argumentTurn p) ts ↔ ∀ t ∈ ts.head?, t.kind ≠ .symbol .comma := by
    refine Iff.trans (stops_iff (f := fun t =>
      if t.kind = .symbol .comma then some (some <$> p) else none)) ?_
    simp
  rw [reads_many, hstops]
  refine or_congr_right ⟨?_, ?_⟩
  · rintro ⟨t, ts', q, one, mid, es', rfl, hturn, hq, hmore, rfl⟩
    rw [argumentTurn] at hturn
    split_ifs at hturn with hkind
    cases hturn
    obtain ⟨e, he, rfl⟩ := reads_map.1 hq
    exact ⟨t, ts', e, mid, es', rfl, hkind, he, hmore, rfl⟩
  · rintro ⟨t, ts', e, mid, es', rfl, hkind, he, hmore, rfl⟩
    exact ⟨t, ts', _, some e, mid, es', rfl, if_pos hkind, reads_map.2 ⟨e, he, rfl⟩, hmore, rfl⟩

/-- The arguments are none, or a first one and more up to the closing parenthesis. -/
lemma reads_arguments {es : List EvalExpr} :
    (arguments p).Reads s ts es rest ↔
      (es = [] ∧ ∃ t, ts = t :: rest ∧ t.kind = .symbol .rParen) ∨
        (∀ t ∈ ts.head?, t.kind ≠ .symbol .rParen) ∧ ∃ e mid es' t, p.Reads s ts e mid ∧
          (many (argumentTurn p)).Reads s mid es' (t :: rest) ∧ t.kind = .symbol .rParen ∧
          es = e :: es' := by
  rw [arguments]
  simp only [lift_eq, readersMany_eq, reads_bind]
  constructor
  · rintro ⟨b, mid, hb, h⟩
    rcases reads_accept.1 hb with ⟨rfl, t, rfl, hkind⟩ | ⟨rfl, rfl, hopen⟩
    · obtain ⟨rfl, rfl⟩ := reads_pure.1 h
      exact .inl ⟨rfl, t, rfl, hkind⟩
    · simp only [Bool.false_eq_true, if_false, reads_bind, reads_expect, reads_pure] at h
      obtain ⟨e, mid, he, es', mid', hes', t, mid'', ⟨rfl, hkind⟩, rfl, rfl⟩ := h
      exact .inr ⟨hopen, e, mid, es', t, he, hes', hkind, rfl⟩
  · rintro (⟨rfl, t, rfl, hkind⟩ | ⟨hopen, e, mid, es', t, he, hes', hkind, rfl⟩)
    · exact ⟨true, rest, reads_accept.2 (.inl ⟨rfl, t, rfl, hkind⟩), reads_pure.2 ⟨rfl, rfl⟩⟩
    · refine ⟨false, ts, reads_accept.2 (.inr ⟨rfl, rfl, hopen⟩), ?_⟩
      simp only [Bool.false_eq_true, if_false, reads_bind, reads_expect, reads_pure]
      exact ⟨e, mid, he, es', t :: rest, hes', t, rest, ⟨rfl, hkind⟩, rfl, rfl⟩

lemma reads_wordOperand {t : Token} :
    (wordOperand p t).Reads s ts e rest ↔
      (∃ opening ts' es, ts = opening :: ts' ∧ opening.kind = .symbol .lParen ∧
        (arguments p).Reads s ts' es rest ∧ e = .call (Text.lowercase t.text) es) ∨
      ((∀ t' ∈ ts.head?, t'.kind ≠ .symbol .lParen) ∧ rest = ts ∧
        e = if Text.equalIgnoringCase t.text "null" then .literal .null else .field t.text) := by
  rw [wordOperand, lift_eq, reads_bind]
  constructor
  · rintro ⟨called, mid, hcalled, h⟩
    rcases reads_accept.1 hcalled with ⟨rfl, opening, rfl, hkind⟩ | ⟨rfl, rfl, hopen⟩
    · simp only [if_true, reads_bind, reads_pure] at h
      obtain ⟨es, mid', hes, rfl, rfl⟩ := h
      exact .inl ⟨opening, mid, es, rfl, hkind, hes, rfl⟩
    · simp only [Bool.false_eq_true, if_false] at h
      by_cases hnull : Text.equalIgnoringCase t.text "null" = true
      · rw [if_pos hnull] at h ⊢
        obtain ⟨rfl, rfl⟩ := reads_pure.1 h
        exact .inr ⟨hopen, rfl, rfl⟩
      · rw [if_neg hnull] at h ⊢
        obtain ⟨rfl, rfl⟩ := reads_pure.1 h
        exact .inr ⟨hopen, rfl, rfl⟩
  · rintro (⟨opening, ts', es, rfl, hkind, hes, rfl⟩ | ⟨hopen, rfl, rfl⟩)
    · refine ⟨true, ts', reads_accept.2 (.inl ⟨rfl, opening, rfl, hkind⟩), ?_⟩
      simp only [if_true, reads_bind, reads_pure]
      exact ⟨es, rest, hes, rfl, rfl⟩
    · refine ⟨false, rest, reads_accept.2 (.inr ⟨rfl, rfl, hopen⟩), ?_⟩
      split_ifs <;> simp_all

/-- The operands that begin with a token, by the kind of the token. -/
lemma reads_operandWith :
    (operandWith p).Reads s ts e rest ↔ ∃ t ts', ts = t :: ts' ∧
      ((t.kind = .symbol .minus ∧ ∃ e', p.Reads s ts' e' rest ∧
          e = .binary .subtract (.literal (.number .zero)) e') ∨
        (t.kind = .symbol .lParen ∧ ∃ closing, (allLevels p).Reads s ts' e (closing :: rest) ∧
          closing.kind = .symbol .rParen) ∨
        (t.kind = .number ∧ rest = ts' ∧ e = .literal (numberLiteral t.text)) ∨
        (t.kind = .string ∧ rest = ts' ∧ e = .literal (.string t.text)) ∨
        (t.kind = .regex ∧ rest = ts' ∧ e = .literal (.regex t.text)) ∨
        (t.kind.isWord = true ∧ (wordOperand (allLevels p) t).Reads s ts' e rest)) := by
  rw [operandWith, operandBy]
  simp only [lift_eq, reads_bind, reads_take]
  refine exists_congr fun t => exists_congr fun ts' => and_congr_right fun _ => ?_
  constructor
  · intro h
    split at h
    · next hkind =>
      simp only [reads_bind, reads_pure] at h
      obtain ⟨e', mid, he, rfl, rfl⟩ := h
      exact .inl ⟨hkind, e', he, rfl⟩
    · next hkind =>
      simp only [reads_bind, reads_pure, reads_expect] at h
      obtain ⟨e', mid, he, closing, mid', ⟨rfl, hclose⟩, rfl, rfl⟩ := h
      exact .inr (.inl ⟨hkind, closing, he, hclose⟩)
    · next hkind =>
      obtain ⟨rfl, rfl⟩ := reads_pure.1 h
      exact .inr (.inr (.inl ⟨hkind, rfl, rfl⟩))
    · next hkind =>
      obtain ⟨rfl, rfl⟩ := reads_pure.1 h
      exact .inr (.inr (.inr (.inl ⟨hkind, rfl, rfl⟩)))
    · next hkind =>
      obtain ⟨rfl, rfl⟩ := reads_pure.1 h
      exact .inr (.inr (.inr (.inr (.inl ⟨hkind, rfl, rfl⟩))))
    · by_cases hword : t.kind.isWord = true
      · rw [if_pos hword] at h
        exact .inr (.inr (.inr (.inr (.inr ⟨hword, h⟩))))
      · rw [if_neg hword] at h
        exact (not_reads_failAt h).elim
  · rintro (⟨hkind, e', he, rfl⟩ | ⟨hkind, closing, he, hclose⟩ | ⟨hkind, rfl, rfl⟩ |
      ⟨hkind, rfl, rfl⟩ | ⟨hkind, rfl, rfl⟩ | ⟨hword, h⟩)
    · simp only [hkind, reads_bind, reads_pure]
      exact ⟨e', rest, he, rfl, rfl⟩
    · simp only [hkind, reads_bind, reads_pure, reads_expect]
      exact ⟨e, closing :: rest, he, closing, rest, ⟨rfl, hclose⟩, rfl, rfl⟩
    · simp only [hkind, reads_pure, and_self]
    · simp only [hkind, reads_pure, and_self]
    · simp only [hkind, reads_pure, and_self]
    · split
      case h_6 =>
        rw [if_pos hword]
        exact h
      all_goals
        next hkind =>
        rw [hkind] at hword
        cases hword

/-! ### The readers of the levels -/

/-- The operators that join operands on a level. -/
def levelOperator? : ExprLevel → TokenKind → Option BinaryOperator
  | .disjunction => orOperator?
  | .conjunction => andOperator?
  | .comparison => comparisonOperator?
  | .sum => sumOperator?
  | .product => productOperator?
  | .unary | .primary => fun _ => none

lemma levelOperator?_eq_some {level : ExprLevel} {k : TokenKind} {op : BinaryOperator} :
    levelOperator? level k = some op ↔ op.level = level ∧ k = op.kind := by
  constructor
  · intro h
    cases level
    case disjunction | conjunction | comparison | sum | product =>
      simp only [levelOperator?] at h
      first
        | unfold orOperator? at h
        | unfold andOperator? at h
        | unfold comparisonOperator? at h
        | unfold sumOperator? at h
        | unfold productOperator? at h
      split at h <;> cases h <;> exact ⟨rfl, rfl⟩
    case unary | primary => cases h
  · rintro ⟨rfl, rfl⟩
    cases op <;> rfl

lemma levelOperator?_eq_none {level : ExprLevel} {k : TokenKind} :
    levelOperator? level k = none ↔ ∀ op : BinaryOperator, k = op.kind → op.level ≠ level := by
  rw [Option.eq_none_iff_forall_ne_some]
  constructor
  · intro h op hk hlevel
    exact h op (levelOperator?_eq_some.2 ⟨hlevel, hk⟩)
  · intro h op hop
    obtain ⟨hlevel, hk⟩ := levelOperator?_eq_some.1 hop
    exact h op hk hlevel

/-- The reader of the expressions of a level, given that of operands. -/
def levelReader (operand : Parser EvalExpr) : ExprLevel → Parser EvalExpr
  | .disjunction => allLevels operand
  | .conjunction => leftChain andOperator? (comparisonOfSums operand)
  | .comparison => comparisonOfSums operand
  | .sum => sum operand
  | .product => leftChain productOperator? operand
  | .unary | .primary => operand

lemma levelReader_of_chains {level : ExprLevel} (h : level.chains = true) :
    levelReader p level = leftChain (levelOperator? level) (levelReader p level.next) := by
  cases level <;> first | rfl | cases h

/-- The reader of the operands that stand in an expression of so many levels. -/
def operandAt : Nat → Parser EvalExpr
  | 0 => tooDeep
  | depth + 1 => operand depth

lemma operandAt_succ (depth : Nat) : operandAt (depth + 1) = operandWith (operandAt depth) := by
  cases depth <;> rfl

end LogQuery.Parser
