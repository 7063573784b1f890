import LogQuery.Proofs.Parser.Walk.Basic

namespace LogQuery.Walk

open LogQuery.Parser (isGluable startsSearch numberLiteral comparisonOf? orOperator? andOperator?
  comparisonOperator? sumOperator? productOperator? defaultCount BinParts)

/-! ### Words, fields and counts -/

/-- The text of the next token together with those that touch it. -/
def glue : Walk String := do
  let first ← advance
  loop (fun (text, finish) => do
    let next ← current
    if isGluable next.kind && next.position == finish then
      let t ← advance
      return .again (text ++ t.text, t.finish)
    else return .ended text) (first.text, first.finish)

def fieldName : Walk String := do
  if (← current).kind.isWord then return (← advance).text else unexpected .fieldName

def outputName : Walk String := do
  let t ← current
  if t.kind.isWord || t.kind == .string then return (← advance).text else unexpected .outputName

def fieldList : Walk (List String) := do
  let first ← fieldName
  loop (fun names => do
    if ← check (.symbol .comma) then
      let _ ← advance
      return .again (names ++ [← fieldName])
    else if (← current).kind.isWord && !(← atParameter "limit") then
      return .again (names ++ [← fieldName])
    else return .ended names) [first]

def count : Walk Nat := do
  let t ← consume .number .number
  match Numeral.natBelow? (twoTo 64) t.text with
  | some n => return n
  | none => refuse t .notACount

def parameter {α : Type} (name : String) (value : Walk α) : Walk (Option α) := do
  if ← atParameter name then
    let _ ← advance
    let _ ← advance
    return some (← value)
  else return none

def spanText : Walk String := do
  let t ← current
  match t.kind with
  | .string => return (← advance).text
  | .number | .identifier => glue
  | _ => unexpected .span

def spanValue : Walk Span := do
  let t ← current
  let text ← spanText
  match Span.ofText? text with
  | some span => return span
  | none => refuse t (.invalidSpan text)

def separated {α : Type} (item : Walk α) : Walk (List α) :=
  loop (fun all => do
    let one ← item
    if ← check (.symbol .comma) then
      let _ ← advance
      return .again (all ++ [one])
    else return .ended (all ++ [one])) []

/-! ### Aggregations -/

def insideParens : Walk (Option String) := do
  if ← check (.symbol .star) then
    let _ ← advance
    return none
  else if ← check (.symbol .rParen) then return none
  else return some (← fieldName)

def aggregatedField : Walk (Option String) := do
  if ← check (.symbol .lParen) then
    let _ ← advance
    let field ← insideParens
    let _ ← consume (.symbol .rParen) .closeParen
    return field
  else return none

def asOutput : Walk (Option String) := do
  if ← check (.clause .as_) then
    let _ ← advance
    return some (← outputName)
  else return none

def aggregation : Walk Aggregation := do
  let t ← current
  if t.kind.isWord then
    match AggregateFunction.ofName? t.text with
    | none => refuse t .unknownAggregation
    | some function => do
      let _ ← advance
      let field ← aggregatedField
      if function ≠ .count ∧ field.isNone then refuse t (.aggregationNeedsField function)
      else return ⟨function, field, ← asOutput⟩
  else unexpected .aggregation

def aggregations : Walk (List Aggregation) := do
  let all ← loop (fun all => do
    let t ← current
    match t.kind with
    | .symbol .comma => do
      let _ ← advance
      return .again all
    | .clause .by_ | .symbol .pipe | .eof => return .ended all
    | _ =>
      if ← atParameter "span" then return .ended all
      else return .again (all ++ [← aggregation])) []
  if all.isEmpty then unexpected .aggregation else return all

/-! ### Expressions -/

def leftChain (operator? : TokenKind → Option BinaryOperator) (operand : Walk EvalExpr) :
    Walk EvalExpr := do
  let first ← operand
  loop (fun left => do
    match operator? (← current).kind with
    | none => return .ended left
    | some op => do
      let _ ← advance
      return .again (.binary op left (← operand))) first

def sum (operand : Walk EvalExpr) : Walk EvalExpr :=
  leftChain sumOperator? (leftChain productOperator? operand)

def comparisonOfSums (operand : Walk EvalExpr) : Walk EvalExpr := do
  let left ← sum operand
  match comparisonOperator? (← current).kind with
  | none => return left
  | some op => do
    let _ ← advance
    return .binary op left (← sum operand)

def allLevels (operand : Walk EvalExpr) : Walk EvalExpr :=
  leftChain orOperator? (leftChain andOperator? (comparisonOfSums operand))

def expressionOf (operand : Walk EvalExpr) : Walk EvalExpr := do
  enter
  let e ← allLevels operand
  leave
  return e

def arguments (expression : Walk EvalExpr) : Walk (List EvalExpr) := do
  if ← check (.symbol .rParen) then
    let _ ← advance
    return []
  else
    let args ← separated expression
    let _ ← consume (.symbol .rParen) .commaOrCloseParen
    return args

def primary (nested : Walk EvalExpr) : Walk EvalExpr := do
  let t ← current
  match t.kind with
  | .number => do
    let _ ← advance
    return .literal (numberLiteral t.text)
  | .string => do
    let _ ← advance
    return .literal (.string t.text)
  | .regex => do
    let _ ← advance
    return .literal (.regex t.text)
  | .symbol .lParen => do
    let _ ← advance
    let inner ← expressionOf nested
    let _ ← consume (.symbol .rParen) .closeParen
    return inner
  | kind =>
    if kind.isWord then
      let _ ← advance
      if ← check (.symbol .lParen) then
        let _ ← advance
        return .call (Text.lowercase t.text) (← arguments (expressionOf nested))
      else if Text.equalIgnoringCase t.text "null" then return .literal .null
      else return .field t.text
    else unexpected .expression

def operandOf (nested : Walk EvalExpr) : Walk EvalExpr := do
  if ← check (.symbol .minus) then
    let _ ← advance
    enter
    let e ← nested
    leave
    return .binary .subtract (.literal (.number .zero)) e
  else primary nested

def operand : Nat → Walk EvalExpr
  | 0 => exhausted
  | n + 1 => operandOf (operand n)

def expression : Walk EvalExpr := do
  let l ← limits
  expressionOf (operand l.maxDepth)

/-! ### Conditions -/

def value (what : Expectation) : Walk Value := do
  let t ← current
  if t.kind == .string then
    let _ ← advance
    return .string t.text
  else if t.kind == .regex then
    let _ ← advance
    return .regex t.text
  else if t.kind == .number then
    let text ← glue
    match Binary64.ofText? text with
    | some x => return if text = t.text && x.isFinite then .number x else .string text
    | none => return .string text
  else if t.kind.isWord || t.kind == .symbol .star || t.kind == .symbol .minus then
    let text ← glue
    return if Text.equalIgnoringCase text "null" then .null else .string text
  else unexpected what

def valueList : Walk Value := do
  let opening ← consume (.symbol .lParen) .listAfterIn
  let values ← loop (fun values => do
    if ← check (.symbol .rParen) then return .ended values
    else if ← check (.symbol .comma) then
      let _ ← advance
      return .again values
    else if ← check .eof then unexpected .closeParen
    else return .again (values ++ [← value (.valueAfter opening.text)])) []
  let closing ← advance
  if values.isEmpty then refuse closing .emptyValueList else return .list values

def comparisonAhead : Walk (Option Comparison) := do
  let sign ← peek 1
  match comparisonOf? sign.kind with
  | some comparison => return some comparison
  | none =>
    if sign.kind == .clause .not_ then
      if (← peek 2).kind == .clause .in_ then return some .notIn else return none
    else return none

def comparisonSign (comparison : Comparison) : Walk Token := do
  if comparison = .notIn then
    let _ ← advance
    advance
  else advance

def term : Walk (Option Condition) := do
  let t ← current
  if t.kind == .symbol .star || t.kind == .number then
    let text ← glue
    return if text.toList.all (· = '*') then none else some (.inRaw (.string text))
  else if t.kind == .string then
    let _ ← advance
    return some (.inRaw (.string t.text))
  else if t.kind == .regex then
    let _ ← advance
    return some (.inRaw (.regex t.text))
  else if t.kind.isWord then
    match ← comparisonAhead with
    | none => return some (.inRaw (.string (← glue)))
    | some comparison => do
      let field ← advance
      let sign ← comparisonSign comparison
      let v ←
        match comparison with
        | .isIn | .notIn => valueList
        | _ => value (.valueAfter sign.text)
      return some (.compare field.text comparison v false)
  else unexpected .condition

def atConditionEnd : Walk Bool := do
  match (← current).kind with
  | .symbol .pipe | .eof | .symbol .rParen | .clause .or_ | .clause .and_ => return true
  | _ => return false

def conjunction (unary : Walk (Option Condition)) : Walk (Option Condition) := do
  let members ← loop (fun members => do
    match (← current).kind with
    | .symbol .pipe | .eof | .symbol .rParen | .clause .or_ => return .ended members
    | .clause .and_ => do
      let _ ← advance
      if ← atConditionEnd then unexpected .conditionAfterAnd else return .again members
    | _ => return .again (members ++ (← unary).toList)) []
  return Condition.join? .and members

def disjunction (unary : Walk (Option Condition)) : Walk (Option Condition) := do
  let first ← conjunction unary
  let members ← loop (fun members => do
    if ← check (.clause .or_) then
      let _ ← advance
      if ← atConditionEnd then unexpected .conditionAfterOr
      else return .again (members ++ (← conjunction unary).toList)
    else return .ended members) first.toList
  return Condition.join? .or members

def unaryOf (nested : Walk (Option Condition)) : Walk (Option Condition) := do
  match (← current).kind with
  | .clause .not_ => do
    let _ ← advance
    enter
    let operand ← nested
    leave
    match operand with
    | none => unexpected .conditionAfterNot
    | some c => return some c.negate
  | .symbol .lParen => do
    let _ ← advance
    enter
    let inner ← disjunction nested
    let _ ← consume (.symbol .rParen) .closeParen
    leave
    return inner
  | _ => term

def unary : Nat → Walk (Option Condition)
  | 0 => exhausted
  | n + 1 => unaryOf (unary n)

def conditions : Walk (List Condition) := do
  let l ← limits
  let whole ← disjunction (unary (l.maxDepth + 1))
  if ← atStageEnd then return Condition.topLevel whole else unexpected .conditionOrEnd

/-! ### Stages -/

def filter (command : FilterCommand) : Walk Stage := do
  let _ ← advance
  return .filter command (← conditions)

/-- The fields to group by, if there are any. -/
def groupFields : Walk (List String) := do
  if ← check (.clause .by_) then
    let _ ← advance
    fieldList
  else return []

def stats : Walk Stage := do
  let _ ← advance
  let all ← aggregations
  return .stats all (← groupFields)

def sortSign : Walk SortOrder := do
  if ← check (.symbol .minus) then
    let _ ← advance
    return .descending
  else if ← check (.symbol .plus) then
    let _ ← advance
    return .ascending
  else return .ascending

def sortOrder (signed : SortOrder) : Walk SortOrder := do
  if ← check (.clause .asc) then
    let _ ← advance
    return .ascending
  else if ← check (.clause .desc) then
    let _ ← advance
    return .descending
  else return signed

def sortKey : Walk SortKey := do
  let signed ← sortSign
  let field ← fieldName
  return ⟨field, ← sortOrder signed⟩

def sort : Walk Stage := do
  let _ ← advance
  let keys ← loop (fun keys => do
    if ← atStageEnd then return .ended keys
    else if ← check (.symbol .comma) then
      let _ ← advance
      return .again keys
    else return .again (keys ++ [← sortKey])) []
  if keys.isEmpty then unexpected .sortField else return .sort keys

def limit (command : LimitCommand) : Walk Stage := do
  let _ ← advance
  if (← check .number) || command == .limit then return .limit command (← count)
  else return .limit command defaultCount

def fieldStage (stage : List String → Stage) : Walk Stage := do
  let _ ← advance
  return stage (← fieldList)

def fields : Walk Stage := do
  let _ ← advance
  if ← check (.symbol .minus) then
    let _ ← advance
    return .fields (← fieldList) false
  else if ← check (.symbol .plus) then
    let _ ← advance
    return .fields (← fieldList) true
  else return .fields (← fieldList) true

def renamingPair : Walk Renaming := do
  let source ← fieldName
  let _ ← consume (.clause .as_) .asWord
  return ⟨source, ← outputName⟩

def renamings : Walk (List Renaming) :=
  loop (fun all => do
    let one ← renamingPair
    if ← check (.symbol .comma) then
      let _ ← advance
      return .again (all ++ [one])
    else if ← atStageEnd then return .ended (all ++ [one])
    else return .again (all ++ [one])) []

def rename : Walk Stage := do
  let _ ← advance
  return .rename (← renamings)

def assignment : Walk Assignment := do
  let field ← fieldName
  let _ ← consume (.symbol .eq) .equalsSign
  return ⟨field, ← expression⟩

def eval : Walk Stage := do
  let _ ← advance
  return .eval (← separated assignment)

/-- The number of rows in front of the fields of `top` and `rare`. -/
def countBefore : Walk (Option Nat) := do
  if ← check .number then return some (← count) else parameter "limit" count

def frequent (which : Frequency) : Walk Stage := do
  let _ ← advance
  let before ← countBefore
  let names ← fieldList
  let behind ← parameter "limit" count
  return .frequent which names ((behind <|> before).getD defaultCount)

/-- One part of a stage that puts values into bins, or the end of the parts. -/
def binRound (parts : BinParts) : Walk (Round BinParts BinParts) := do
  if ← atStageEnd then return .ended parts
  else if ← atParameter "span" then
    let _ ← advance
    let _ ← advance
    return .again { parts with span := some (← spanValue) }
  else if ← check (.clause .as_) then
    let _ ← advance
    return .again { parts with output := some (← outputName) }
  else if parts.field.isNone then return .again { parts with field := some (← fieldName) }
  else unexpected .spanOrAs

def bin : Walk Stage := do
  let command ← advance
  let parts ← loop binRound ⟨none, none, none⟩
  match parts.field, parts.span with
  | none, _ => refuse (← current) .binNeedsField
  | some _, none => refuse command .binNeedsSpan
  | some field, some span => return .bin field span parts.output

def splitField : Walk (Option String) := do
  if ← check (.clause .by_) then
    let _ ← advance
    return some (← fieldName)
  else return none

def timechart : Walk Stage := do
  let _ ← advance
  let first ← parameter "span" spanValue
  let all ← aggregations
  let second ← parameter "span" spanValue
  let splitBy ← splitField
  let third ← parameter "span" spanValue
  return .timechart ((third <|> second <|> first).getD (.time 1 .hour)) all splitBy

def rex [Libraries] : Walk Stage := do
  let _ ← advance
  let field ← parameter "field" fieldName
  let next ← current
  if next.kind == .string || next.kind == .regex then
    let t ← advance
    if Libraries.isPattern t.text then return .rex (field.getD rawField) t.text
    else refuse t .invalidRegex
  else unexpected .quotedRegex

def stageOf [Libraries] : Command → Walk Stage
  | .search => filter .search
  | .filter => filter .filter
  | .where_ => filter .where_
  | .stats => stats
  | .sort => sort
  | .limit => limit .limit
  | .head => limit .head
  | .tail => limit .tail
  | .dedup => fieldStage .dedup
  | .table => fieldStage .table
  | .fields => fields
  | .rename => rename
  | .eval => eval
  | .top => frequent .top
  | .rare => frequent .rare
  | .bin => bin
  | .timechart => timechart
  | .rex => rex

def stage [Libraries] : Walk Stage := do
  let t ← current
  match t.kind with
  | .command command => stageOf command
  | .identifier => refuse t .unknownCommand
  | _ => unexpected .command

def firstStage [Libraries] : Walk Stage := do
  if startsSearch (← current).kind then return .filter .search (← conditions) else stage

def stages [Libraries] : Walk (List Stage) := do
  if ← check .eof then return []
  else
    let first ← firstStage
    let all ← loop (fun all => do
      if ← check (.symbol .pipe) then
        let _ ← advance
        return .again (all ++ [← stage])
      else return .ended all) [first]
    if ← check .eof then return all else unexpected .pipeOrEnd

def pipeline [Libraries] : Walk Pipeline := do
  let l ← limits
  if l.maxTokens < (← size) - 1 then
    refuse (← tokenAt l.maxTokens) (.tooManyTokens l.maxTokens)
  else return ⟨← stages⟩

end Walk

def closeTokens (ts : List Token) : List Token :=
  if ts.getLast?.any (·.kind == .eof) then ts else ts ++ [Parser.stopToken ts]

def walkTokens [Libraries] (limits : ParserLimits) (ts : List Token) : WalkEnd Pipeline :=
  Walk.pipeline ⟨closeTokens ts, limits⟩ ⟨0, 0, []⟩

end LogQuery
