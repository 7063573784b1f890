import LogQuery.Parser.Expression
import Mathlib.Tactic.Lemma

/-!
# The grammar of expressions

```
disjunction := conjunction ( OR conjunction )*
conjunction := comparison ( AND comparison )*
comparison  := sum ( ( = | != | < | <= | > | >= ) sum )?
sum         := product ( ( + | - ) product )*
product     := unary ( ( * | / ) unary )*
unary       := - unary | primary
primary     := number | string | regex | null | field | name ( args ) | ( disjunction )
args        := ( disjunction ( , disjunction )* )?
```

The operators of a level group to the left, and a comparison is no operand of another one unless it
stands in parentheses. A name is any word, and so is a field, apart from `null`. The reader of
expressions takes exactly what this grammar derives, up to a token that can follow an expression,
and returns the tree of the derivation (`expression_reads_derived`).
-/

namespace LogQuery

/-- The levels of expressions, from the loosest to the tightest. -/
inductive ExprLevel where
  | disjunction | conjunction | comparison | sum | product | unary | primary
  deriving DecidableEq, Repr

namespace ExprLevel

/-- How tight a level is. -/
def rank : ExprLevel → Nat
  | .disjunction => 0
  | .conjunction => 1
  | .comparison => 2
  | .sum => 3
  | .product => 4
  | .unary => 5
  | .primary => 6

/-- The next tighter level, of which the operands of a level are. -/
def next : ExprLevel → ExprLevel
  | .disjunction => .conjunction
  | .conjunction => .comparison
  | .comparison => .sum
  | .sum => .product
  | .product => .unary
  | .unary | .primary => .primary

/-- Any number of operands can be joined on the level. -/
def chains : ExprLevel → Bool
  | .disjunction | .conjunction | .sum | .product => true
  | .comparison | .unary | .primary => false

end ExprLevel

namespace BinaryOperator

/-- The level on which an operator joins operands. -/
def level : BinaryOperator → ExprLevel
  | .or => .disjunction
  | .and => .conjunction
  | .eq | .notEq | .lt | .ltEq | .gt | .gtEq => .comparison
  | .add | .subtract => .sum
  | .multiply | .divide => .product

/-- The kind of the token that writes an operator. -/
def kind : BinaryOperator → TokenKind
  | .or => .clause .or_
  | .and => .clause .and_
  | .eq => .symbol .eq
  | .notEq => .symbol .notEq
  | .lt => .symbol .lt
  | .ltEq => .symbol .ltEq
  | .gt => .symbol .gt
  | .gtEq => .symbol .gtEq
  | .add => .symbol .plus
  | .subtract => .symbol .minus
  | .multiply => .symbol .star
  | .divide => .symbol .slash

/-- No two operators have one sign. -/
lemma kind_injective {op op' : BinaryOperator} (h : op.kind = op'.kind) : op = op' := by
  cases op <;> cases op' <;> first | rfl | cases h

end BinaryOperator

namespace Parser

/-- The tokens derive an expression of a level, which nests at most so deep: the expression counts
as one, and the operand of a minus, an argument and what stands in parentheses nest one deeper. -/
inductive DerivesExpr : ExprLevel → Nat → List Token → EvalExpr → Prop where
  | single {level : ExprLevel} {n : Nat} {ts : List Token} {e : EvalExpr} :
      DerivesExpr level.next n ts e → DerivesExpr level n ts e
  | chain {level : ExprLevel} {op : BinaryOperator} {n : Nat} {t : Token} {ts ts' : List Token}
      {left right : EvalExpr} : level.chains = true → op.level = level → t.kind = op.kind →
        DerivesExpr level n ts left → DerivesExpr level.next n ts' right →
          DerivesExpr level n (ts ++ t :: ts') (.binary op left right)
  | compare {op : BinaryOperator} {n : Nat} {t : Token} {ts ts' : List Token}
      {left right : EvalExpr} : op.level = .comparison → t.kind = op.kind →
        DerivesExpr .sum n ts left → DerivesExpr .sum n ts' right →
          DerivesExpr .comparison n (ts ++ t :: ts') (.binary op left right)
  | minus {n : Nat} {t : Token} {ts : List Token} {e : EvalExpr} :
      t.kind = .symbol .minus → DerivesExpr .unary n ts e →
        DerivesExpr .unary (n + 1) (t :: ts) (.binary .subtract (.literal (.number .zero)) e)
  | number {n : Nat} {t : Token} : t.kind = .number →
      DerivesExpr .primary (n + 1) [t] (.literal (numberLiteral t.text))
  | string {n : Nat} {t : Token} : t.kind = .string →
      DerivesExpr .primary (n + 1) [t] (.literal (.string t.text))
  | regex {n : Nat} {t : Token} : t.kind = .regex →
      DerivesExpr .primary (n + 1) [t] (.literal (.regex t.text))
  | null {n : Nat} {t : Token} : t.kind.isWord = true →
      Text.equalIgnoringCase t.text "null" = true →
        DerivesExpr .primary (n + 1) [t] (.literal .null)
  | field {n : Nat} {t : Token} : t.kind.isWord = true →
      Text.equalIgnoringCase t.text "null" = false →
        DerivesExpr .primary (n + 1) [t] (.field t.text)
  | callEmpty {n : Nat} {t opening closing : Token} : t.kind.isWord = true →
      opening.kind = .symbol .lParen → closing.kind = .symbol .rParen →
        DerivesExpr .primary (n + 1) [t, opening, closing] (.call (Text.lowercase t.text) [])
  /-- Arguments behind the first one come with the comma in front of them. -/
  | call {n : Nat} {t opening closing : Token} {ts : List Token} {e : EvalExpr}
      {more : List (Token × List Token × EvalExpr)} : t.kind.isWord = true →
        opening.kind = .symbol .lParen → DerivesExpr .disjunction n ts e →
        (∀ x ∈ more, x.1.kind = .symbol .comma) →
        (∀ x ∈ more, DerivesExpr .disjunction n x.2.1 x.2.2) → closing.kind = .symbol .rParen →
          DerivesExpr .primary (n + 1)
            (t :: opening :: (ts ++ (more.flatMap fun x => x.1 :: x.2.1) ++ [closing]))
            (.call (Text.lowercase t.text) (e :: more.map fun x => x.2.2))
  | parens {n : Nat} {opening closing : Token} {ts : List Token} {e : EvalExpr} :
      opening.kind = .symbol .lParen → DerivesExpr .disjunction n ts e →
        closing.kind = .symbol .rParen →
          DerivesExpr .primary (n + 1) (opening :: (ts ++ [closing])) e

/-- An expression can end here: at a comma, a closing parenthesis, a pipe or the end. -/
def EndsExpression (ts : List Token) : Prop :=
  ∀ t ∈ ts.head?, t.kind = .symbol .comma ∨ t.kind = .symbol .rParen ∨ t.kind = .symbol .pipe ∨
    t.kind = .eof

/-- No operator goes on with an expression of a level here, and no parenthesis with a call. -/
def EndsLevel (level : ExprLevel) (ts : List Token) : Prop :=
  ∀ t ∈ ts.head?, t.kind ≠ .symbol .lParen ∧
    ∀ op : BinaryOperator, t.kind = op.kind → op.level.rank < level.rank

variable {level : ExprLevel} {n : Nat} {ts rest : List Token} {e : EvalExpr}

/-! ### Where a level ends -/

/-- A token that ends a level ends all that bind tighter. -/
lemma EndsLevel.mono {level' : ExprLevel} (hle : level.rank ≤ level'.rank)
    (h : EndsLevel level ts) : EndsLevel level' ts := by
  intro t ht
  refine ⟨(h t ht).1, fun op hop => ?_⟩
  exact Nat.lt_of_lt_of_le ((h t ht).2 op hop) hle

lemma EndsLevel.next (h : EndsLevel level ts) : EndsLevel level.next ts :=
  h.mono (by cases level <;> decide)

/-- An operator ends the tighter levels. -/
lemma endsLevel_of_operator {op : BinaryOperator} {t : Token} (hkind : t.kind = op.kind)
    (hlevel : op.level.rank < level.rank) : EndsLevel level (t :: ts) := by
  intro t' ht'
  cases ht'
  rw [hkind]
  refine ⟨by cases op <;> decide, fun op' hop => ?_⟩
  rwa [← BinaryOperator.kind_injective hop]

/-- What is no operator and opens no call ends every level. -/
lemma endsLevel_cons {t : Token} (hcall : t.kind ≠ .symbol .lParen)
    (hkind : ∀ op : BinaryOperator, t.kind ≠ op.kind) : EndsLevel level (t :: ts) := by
  intro t' ht'
  cases ht'
  exact ⟨hcall, fun op hop => (hkind op hop).elim⟩

/-- Where an expression ends, all of its levels do. -/
lemma endsLevel_of_endsExpression (h : EndsExpression ts) : EndsLevel level ts := by
  cases ts with
  | nil => exact fun t ht => nomatch ht
  | cons t ts =>
    rcases h t rfl with hkind | hkind | hkind | hkind <;>
      refine endsLevel_cons (by simp [hkind]) fun op hop => ?_ <;>
        rw [hkind] at hop <;> cases op <;> cases hop

/-- Behind an argument there stands a comma or the closing parenthesis. -/
lemma endsLevel_arguments {closing : Token} {more : List (Token × List Token × EvalExpr)}
    (hclose : closing.kind = .symbol .rParen)
    (hcommas : ∀ x ∈ more, x.1.kind = .symbol .comma) :
    EndsLevel level ((more.flatMap fun x => x.1 :: x.2.1) ++ closing :: rest) := by
  refine endsLevel_of_endsExpression fun t ht => ?_
  cases more with
  | nil =>
    cases ht
    exact .inr (.inl hclose)
  | cons x more =>
    cases ht
    exact .inl (hcommas x (by simp))

/-! ### Derivations -/

/-- An expression counts as a level itself. -/
lemma DerivesExpr.pos (h : DerivesExpr level n ts e) : 0 < n := by
  induction h with
  | single _ ih | chain _ _ _ _ _ ih _ | compare _ _ _ _ ih _ => exact ih
  | minus | number | string | regex | null | field | callEmpty | call | parens =>
    exact Nat.succ_pos _

/-- No expression begins with a closing parenthesis. -/
lemma DerivesExpr.head_ne (h : DerivesExpr level n ts e) :
    ∃ t ts', ts = t :: ts' ∧ t.kind ≠ .symbol .rParen := by
  induction h with
  | single _ ih => exact ih
  | chain _ _ _ _ _ ih _ | compare _ _ _ _ ih _ =>
    obtain ⟨t, ts', rfl, ht⟩ := ih
    exact ⟨t, _, rfl, ht⟩
  | minus hkind | number hkind | string hkind | regex hkind | parens hkind =>
    exact ⟨_, _, rfl, by simp [hkind]⟩
  | null hword | field hword | callEmpty hword | call hword =>
    refine ⟨_, _, rfl, fun hkind => ?_⟩
    rw [hkind] at hword
    cases hword

/-- A primary is an expression of every level. -/
lemma DerivesExpr.of_primary (h : DerivesExpr .primary n ts e) : DerivesExpr level n ts e := by
  have hproduct : DerivesExpr .product n ts e := .single (.single h)
  have hcomparison : DerivesExpr .comparison n ts e := .single (.single hproduct)
  cases level with
  | disjunction => exact .single (.single hcomparison)
  | conjunction => exact .single hcomparison
  | comparison => exact hcomparison
  | sum => exact .single hproduct
  | product => exact hproduct
  | unary => exact .single h
  | primary => exact h

end Parser

end LogQuery
