import LogQuery.Number.Reading
import LogQuery.Parser.Basic
import LogQuery.Syntax.Condition

/-!
# Reading conditions

```
or    := and ( OR and )*
and   := unary ( AND? unary )*
unary := NOT unary | ( or ) | term
term  := field operator value | field IN ( values ) | word
```

Conditions side by side are joined as if by `AND`. A word alone is looked for in the raw text of
the row, and a star alone says nothing about it: like a pair of empty parentheses, it reads as no
condition at all.

Every `NOT` and every parenthesis nests one level deeper, and readers of what is nested get one
level less.
-/

namespace LogQuery

/-- The field with the raw text of a row. -/
def rawField : String := "_raw"

namespace Condition

/-- Conditions joined by a connective: none and one of them need no group. -/
def join? (logic : Connective) : List Condition → Option Condition
  | [] => none
  | [c] => some c
  | members => some (.group logic members false)

/-- The raw text of the row contains a value. -/
def inRaw (value : Value) : Condition := .compare rawField .contains value false

/-- The conditions that a stage with this condition lists: the members of a group whose members
must all hold, or the condition itself. -/
def topLevel : Option Condition → List Condition
  | none => []
  | some (.group .and members false) => members
  | some c => [c]

end Condition

namespace Parser

/-! ### Values -/

section Words

-- how the text of a word is read that begins with a token
variable (word : Token → Parser String)

/-- The value that begins with a token; the expectation says what it stands behind. -/
def valueBy (what : Expectation) (t : Token) : Parser Value :=
  if t.kind == .string then pure (.string t.text)
  else if t.kind == .regex then pure (.regex t.text)
  else if t.kind == .number then do
    let text ← word t
    match Binary64.ofText? text with
    | some x => return if text = t.text && x.isFinite then .number x else .string text
    | none => return .string text
  else if t.kind.isWord || t.kind == .symbol .star || t.kind == .symbol .minus then do
    let text ← word t
    return if Text.equalIgnoringCase text "null" then .null else .string text
  else failAt t (.expected what)

/-- A list of values in parentheses. Commas between them may be left out or repeated. -/
def valueListBy : Parser Value := do
  let opening ← expect (.symbol .lParen) .listAfterIn
  let values ← many fun t _ =>
    if t.kind = .symbol .rParen then none
    else if t.kind = .symbol .comma then some (pure none)
    else some (some <$> valueBy word (.valueAfter opening.text) t)
  let closing ← take .closeParen
  if values.isEmpty then failAt closing .emptyValueList else return .list values

end Words

/-- The value that begins with a token and goes on with what touches it. -/
abbrev valueAt (what : Expectation) (t : Token) : Parser Value := valueBy glue what t

abbrev valueList : Parser Value := valueListBy glue

/-! ### Terms -/

/-- The comparison that the kind of a token after a field writes, other than `NOT IN`. -/
def comparisonOf? : TokenKind → Option Comparison
  | .symbol .eq => some .eq
  | .symbol .notEq => some .notEq
  | .symbol .lt => some .lt
  | .symbol .ltEq => some .ltEq
  | .symbol .gt => some .gt
  | .symbol .gtEq => some .gtEq
  | .symbol .tilde => some .contains
  | .clause .in_ => some .isIn
  | _ => none

/-- The comparison behind a field, if there is one, with the tokens that write it taken. -/
def comparison : Parser (Option (Comparison × Token)) :=
  optional fun t rest =>
    match comparisonOf? t.kind with
    | some comparison => some (pure (comparison, t))
    | none =>
      if t.kind = .clause .not_ && rest.head?.any (·.kind == .clause .in_) then
        some do return (.notIn, ← take .listAfterIn)
      else none

/-- The term that begins with a token; a star alone is no condition. -/
def termBy (word : Token → Parser String) (t : Token) : Parser (Option Condition) :=
  if t.kind == .symbol .star || t.kind == .number then do
    let text ← word t
    return if text.toList.all (· = '*') then none else some (.inRaw (.string text))
  else if t.kind == .string then pure (some (.inRaw (.string t.text)))
  else if t.kind == .regex then pure (some (.inRaw (.regex t.text)))
  else if t.kind.isWord then do
    match ← comparison with
    | none => return some (.inRaw (.string (← word t)))
    | some (comparison, sign) =>
      let value ←
        match comparison with
        | .isIn | .notIn => valueListBy word
        | _ => do valueBy word (.valueAfter sign.text) (← take (.valueAfter sign.text))
      return some (.compare t.text comparison value false)
  else failAt t (.expected .condition)

abbrev termAt (t : Token) : Parser (Option Condition) := termBy glue t

/-! ### Conjunctions, disjunctions and what nests -/

/-- Reads the condition that begins with a token. -/
abbrev ConditionAt := Token → Parser (Option Condition)

/-- Refuses a token that ends a condition where one has to follow. -/
def requireCondition (what : Expectation) : Parser Unit := do
  match ← nextKind? with
  | some (.clause .and_) | some (.clause .or_) | some (.symbol .rParen) | some (.symbol .pipe)
  | none => fail (.expected what)
  | _ => pure ()

section Nesting

variable {M : Type → Type} [Monad M] [Readers M]

/-- Conditions that must all hold, up to a token that cannot belong to them. -/
def conjunction (unary : Token → M (Option Condition)) : M (Option Condition) := do
  let members ← Readers.many fun t _ =>
    match t.kind with
    | .symbol .pipe | .symbol .rParen | .clause .or_ => none
    | .clause .and_ => some do
      Readers.lift (requireCondition .conditionAfterAnd)
      return none
    | _ => some (unary t)
  return Condition.join? .and members

/-- Conditions of which one must hold. -/
def disjunction (unary : Token → M (Option Condition)) : M (Option Condition) := do
  let first ← conjunction unary
  let more ← Readers.many fun t _ =>
    if t.kind = .clause .or_ then
      some do
        Readers.lift (requireCondition .conditionAfterOr)
        conjunction unary
    else none
  return Condition.join? .or (first.toList ++ more)

/-- The condition behind a `NOT`, which begins with the next token. -/
def nextCondition (unary : Token → M (Option Condition)) : M (Option Condition) := do
  unary (← Readers.lift (take .condition))

/-- Conditions and the parenthesis that closes them. -/
def closedDisjunction (unary : Token → M (Option Condition)) : M (Option Condition) := do
  let inner ← disjunction unary
  let _ ← Readers.lift (expect (.symbol .rParen) .closeParen)
  return inner

/-- The condition that begins with a token, given how to read what nests in it: the operand of a
`NOT`, and conditions up to a closing parenthesis. -/
def unaryBy (operand inner : M (Option Condition)) (term : Token → M (Option Condition))
    (t : Token) : M (Option Condition) :=
  match t.kind with
  | .clause .not_ => do
    match ← operand with
    | some c => return some c.negate
    | none => Readers.lift (fail (.expected .conditionAfterNot))
  | .symbol .lParen => inner
  | _ => term t

/-- What begins neither a negation nor a pair of parentheses is a term. -/
theorem unaryBy_of_term {operand inner : M (Option Condition)} {term : Token → M (Option Condition)}
    {t : Token} (hnot : t.kind ≠ .clause .not_) (hopen : t.kind ≠ .symbol .lParen) :
    unaryBy operand inner term t = term t := by
  rw [unaryBy]
  split
  · contradiction
  · contradiction
  · rfl

/-- The conditions of a stage, which take all of it. -/
def conditionsBy (whole : M (Option Condition)) : M (List Condition) := do
  let whole ← whole
  match ← Readers.lift nextKind? with
  | none | some (.symbol .pipe) => return Condition.topLevel whole
  | _ => Readers.lift (fail (.expected .conditionOrEnd))

end Nesting

/-- The condition that begins with a token, given how to read the terms, which nests no deeper than
a number of levels. -/
def unaryUpTo (term : ConditionAt) : Nat → ConditionAt
  | 0, t => unaryBy tooDeep tooDeep term t
  | depth + 1, t =>
    let nested := fun t' => unaryUpTo term depth t'
    unaryBy (nextCondition nested) (closedDisjunction nested) term t

abbrev unary : Nat → ConditionAt := unaryUpTo termAt

/-- The conditions of a stage, given how to read the terms. -/
def conditionsOf (term : ConditionAt) : Parser (List Condition) := fun setting =>
  conditionsBy (disjunction (unaryUpTo term setting.maxDepth)) setting

abbrev conditions : Parser (List Condition) := conditionsOf termAt

end Parser

end LogQuery
