import LogQuery.Number.Reading
import LogQuery.Parser.Basic
import LogQuery.Syntax.EvalExpr

/-!
# Reading expressions

```
expression := conjunct ( OR conjunct )*
conjunct   := comparison ( AND comparison )*
comparison := sum ( ( = | != | < | <= | > | >= ) sum )?
sum        := product ( ( + | - ) product )*
product    := operand ( ( * | / ) operand )*
operand    := - operand | literal | field | name ( expressions ) | ( expression )
```

Operators of one level group to the left. Every expression nests one level deeper than the one
that it stands in, and so does the operand of a minus.
-/

namespace LogQuery.Parser

/-! ### Operators by level -/

def orOperator? : TokenKind → Option BinaryOperator
  | .clause .or_ => some .or
  | _ => none

def andOperator? : TokenKind → Option BinaryOperator
  | .clause .and_ => some .and
  | _ => none

def comparisonOperator? : TokenKind → Option BinaryOperator
  | .symbol .eq => some .eq
  | .symbol .notEq => some .notEq
  | .symbol .lt => some .lt
  | .symbol .ltEq => some .ltEq
  | .symbol .gt => some .gt
  | .symbol .gtEq => some .gtEq
  | _ => none

def sumOperator? : TokenKind → Option BinaryOperator
  | .symbol .plus => some .add
  | .symbol .minus => some .subtract
  | _ => none

def productOperator? : TokenKind → Option BinaryOperator
  | .symbol .star => some .multiply
  | .symbol .slash => some .divide
  | _ => none

section Nesting

variable {M : Type → Type} [Monad M] [Readers M]

/-- Operands joined by operators of one level, grouped to the left. -/
def leftChain (operator? : TokenKind → Option BinaryOperator) (operand : M EvalExpr) :
    M EvalExpr := do
  let first ← operand
  let more ← Readers.many fun t _ =>
    (operator? t.kind).map fun op => do return some (op, ← operand)
  return more.foldl (fun left (op, right) => .binary op left right) first

def sum (operand : M EvalExpr) : M EvalExpr :=
  leftChain sumOperator? (leftChain productOperator? operand)

/-- One sum, or two that are compared. -/
def comparisonOfSums (operand : M EvalExpr) : M EvalExpr := do
  let left ← sum operand
  let right ← Readers.optional fun t _ =>
    (comparisonOperator? t.kind).map fun op => do return (op, ← sum operand)
  return match right with
    | none => left
    | some (op, right) => .binary op left right

/-- An expression of all levels, given how its operands are read. -/
def allLevels (operand : M EvalExpr) : M EvalExpr :=
  leftChain orOperator? (leftChain andOperator? (comparisonOfSums operand))

/-! ### Operands -/

/-- The arguments of a call behind its opening parenthesis, and the closing one. -/
def arguments (expression : M EvalExpr) : M (List EvalExpr) := do
  if ← Readers.lift (accept (.symbol .rParen)) then return []
  else
    let first ← expression
    let more ← Readers.many fun t _ =>
      if t.kind = .symbol .comma then some (some <$> expression) else none
    let _ ← Readers.lift (expect (.symbol .rParen) .commaOrCloseParen)
    return first :: more

/-- What a number token stands for: the number, or its text if that is no finite number. -/
def numberLiteral (text : String) : Value :=
  match Binary64.ofText? text with
  | some x => if x.isFinite then .number x else .string text
  | none => .string text

/-- The call, the field or the `null` that begins with a word. -/
def wordOperand (expression : M EvalExpr) (t : Token) : M EvalExpr := do
  if ← Readers.lift (accept (.symbol .lParen)) then
    return .call (Text.lowercase t.text) (← arguments expression)
  else if Text.equalIgnoringCase t.text "null" then return .literal .null
  else return .field t.text

/-- An operand, given how to read what nests in it: the operand of a minus, which is subtracted from
zero, and expressions. -/
def operandBy (negated expression : M EvalExpr) : M EvalExpr := do
  let t ← Readers.lift (take .expression)
  match t.kind with
  | .symbol .minus => return .binary .subtract (.literal (.number .zero)) (← negated)
  | .symbol .lParen =>
    let inner ← expression
    let _ ← Readers.lift (expect (.symbol .rParen) .closeParen)
    return inner
  | .number => return .literal (numberLiteral t.text)
  | .string => return .literal (.string t.text)
  | .regex => return .literal (.regex t.text)
  | kind =>
    if kind.isWord then wordOperand expression t
    else Readers.lift (failAt t (.expected .expression))

end Nesting

/-- An operand, given how to read the operands one level deeper. -/
def operandWith (nested : Parser EvalExpr) : Parser EvalExpr := operandBy nested (allLevels nested)

/-- An operand that nests no deeper than a number of levels. -/
def operand : Nat → Parser EvalExpr
  | 0, setting, ts => operandWith tooDeep setting ts
  | depth + 1, setting, ts =>
    operandWith (fun setting' ts' => operand depth setting' ts') setting ts

/-- An expression, which counts as one level. -/
def expression : Parser EvalExpr := fun setting =>
  match setting.maxDepth with
  | 0 => tooDeep setting
  | depth + 1 => allLevels (operand depth) setting

end LogQuery.Parser
