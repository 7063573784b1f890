import LogQuery.Libraries
import LogQuery.Number.Integer
import LogQuery.Parser.Condition
import LogQuery.Parser.Expression
import LogQuery.Syntax.Pipeline

namespace LogQuery.Parser

/-! ### Fields, counts and spans -/

/-- At least one field, with commas or nothing between them. A word that begins the parameter
`limit` is none. -/
def fieldList : Parser (List String) := do
  let first ← fieldName
  let more ← many fun t rest =>
    if t.kind = .symbol .comma then some (some <$> fieldName)
    else if t.kind.isWord && !startsParameter "limit" t rest then some (pure (some t.text))
    else none
  return first :: more

def count : Parser Nat := do
  let t ← expect .number .number
  match Numeral.natBelow? (twoTo 64) t.text with
  | some n => return n
  | none => failAt t .notACount

/-- The text of the span that begins with a token: a string, or a number or other word, given how to
read it. -/
def spanTextBy (word : Token → Parser String) (t : Token) : Parser String :=
  match t.kind with
  | .string => pure t.text
  | .number | .identifier => word t
  | _ => failAt t (.expected .span)

def spanBy (word : Token → Parser String) : Parser Span := do
  let t ← take .span
  let text ← spanTextBy word t
  match Span.ofText? text with
  | some span => return span
  | none => failAt t (.invalidSpan text)

abbrev spanValue : Parser Span := spanBy glue

/-! ### Aggregations -/

/-- The field in the parentheses of an aggregation, if there are any; a star, or nothing, between
them stands for no field. -/
def aggregatedField : Parser (Option String) := do
  if ← accept (.symbol .lParen) then
    let field ←
      if ← accept (.symbol .star) then pure none
      else if (← nextKind?) = some (.symbol .rParen) then pure none
      else some <$> fieldName
    let _ ← expect (.symbol .rParen) .closeParen
    return field
  else return none

def asOutput : Parser (Option String) := do
  if ← accept (.clause .as_) then some <$> outputName else return none

def aggregationAt (t : Token) : Parser Aggregation := do
  if !t.kind.isWord then failAt t (.expected .aggregation)
  else
    match AggregateFunction.ofName? t.text with
    | none => failAt t .unknownAggregation
    | some function =>
      let field ← aggregatedField
      if function ≠ .count ∧ field.isNone then failAt t (.aggregationNeedsField function)
      else return ⟨function, field, ← asOutput⟩

/-- At least one aggregation, up to `BY`, the parameter `span` or the end of the stage. -/
def aggregations : Parser (List Aggregation) := do
  let all ← many fun t rest =>
    match t.kind with
    | .symbol .comma => some (pure none)
    | .clause .by_ | .symbol .pipe => none
    | _ => if startsParameter "span" t rest then none else some (some <$> aggregationAt t)
  if all.isEmpty then fail (.expected .aggregation) else return all

/-! ### Stages behind their commands -/

def stats : Parser Stage := do
  let all ← aggregations
  let groupBy ← if ← accept (.clause .by_) then fieldList else pure []
  return .stats all groupBy

/-- The field to sort by that begins with a token: a sign in front of it sets the order, and a
word behind it overrides the sign. -/
def sortKeyAt (t : Token) : Parser SortKey := do
  let (field, signed) ←
    match t.kind with
    | .symbol .minus => do pure (← fieldName, SortOrder.descending)
    | .symbol .plus => do pure (← fieldName, SortOrder.ascending)
    | _ => do pure (← fieldNameAt t, SortOrder.ascending)
  if ← accept (.clause .asc) then return ⟨field, .ascending⟩
  else if ← accept (.clause .desc) then return ⟨field, .descending⟩
  else return ⟨field, signed⟩

def sort : Parser Stage := do
  let keys ← many fun t _ =>
    match t.kind with
    | .symbol .pipe => none
    | .symbol .comma => some (pure none)
    | _ => some (some <$> sortKeyAt t)
  if keys.isEmpty then fail (.expected .sortField) else return .sort keys

def defaultCount : Nat := 10

/-- The rest of `limit`, `head` and `tail`; only the first needs its number. -/
def limit (command : LimitCommand) : Parser Stage := do
  if command = .limit || (← nextKind?) = some .number then return .limit command (← count)
  else return .limit command defaultCount

/-- The rest of `fields`: a minus leaves the fields out instead of keeping them. -/
def fields : Parser Stage := do
  if ← accept (.symbol .minus) then return .fields (← fieldList) false
  else
    let _ ← accept (.symbol .plus)
    return .fields (← fieldList) true

def renamingAt (t : Token) : Parser Renaming := do
  let source ← fieldNameAt t
  let _ ← expect (.clause .as_) .asWord
  return ⟨source, ← outputName⟩

/-- The rest of `rename`. One comma may stand between two renamings, and one has to follow it. -/
def rename : Parser Stage := do
  let first ← renamingAt (← take .fieldName)
  let more ← many fun t _ =>
    match t.kind with
    | .symbol .pipe => none
    | .symbol .comma => some do return some (← renamingAt (← take .fieldName))
    | _ => some (some <$> renamingAt t)
  return .rename (first :: more)

section Nesting

variable {M : Type → Type} [Monad M] [Readers M]

/-- One assignment of `eval`, given how to read expressions. -/
def assignmentBy (expression : M EvalExpr) : M Assignment := do
  let field ← Readers.lift fieldName
  let _ ← Readers.lift (expect (.symbol .eq) .equalsSign)
  return ⟨field, ← expression⟩

def evalBy (expression : M EvalExpr) : M Stage := do
  let first ← assignmentBy expression
  let more ← Readers.many fun t _ =>
    if t.kind = .symbol .comma then some (some <$> assignmentBy expression) else none
  return .eval (first :: more)

end Nesting

abbrev assignment : Parser Assignment := assignmentBy expression

abbrev eval : Parser Stage := evalBy expression

/-- The rest of `top` and `rare`: the number may stand in front, and `limit=` sets it in front or
behind. -/
def frequent (which : Frequency) : Parser Stage := do
  let before ←
    if (← nextKind?) = some .number then some <$> count else parameter "limit" count
  let names ← fieldList
  let behind ← parameter "limit" count
  return .frequent which names ((behind <|> before).getD defaultCount)

/-- The parts of a `bin` stage that were read so far. -/
structure BinParts where
  field : Option String
  span : Option Span
  output : Option String

/-- The rest of `bin`, given how to read a span. Its parts stand in any order; of two spans or two
names for the result the later counts. -/
def binBy (spanValue : Parser Span) (command : Token) : Parser Stage := do
  let parts ← iterate (fun parts t rest =>
    if t.kind = .symbol .pipe then none
    else if startsParameter "span" t rest then
      some do
        let _ ← expect (.symbol .eq) .equalsSign
        return { parts with span := some (← spanValue) }
    else if t.kind = .clause .as_ then
      some do return { parts with output := some (← outputName) }
    else if parts.field.isNone then
      some do return { parts with field := some (← fieldNameAt t) }
    else some (failAt t (.expected .spanOrAs))) (⟨none, none, none⟩ : BinParts)
  match parts.field, parts.span with
  | none, _ => fail .binNeedsField
  | some _, none => failAt command .binNeedsSpan
  | some field, some span => return .bin field span parts.output

/-- The rest of `timechart`: a span may stand in three places, of which the last counts. -/
def timechartBy (spanValue : Parser Span) : Parser Stage := do
  let first ← parameter "span" spanValue
  let all ← aggregations
  let second ← parameter "span" spanValue
  let splitBy ← if ← accept (.clause .by_) then some <$> fieldName else pure none
  let third ← parameter "span" spanValue
  return .timechart ((third <|> second <|> first).getD (.time 1 .hour)) all splitBy

/-- The rest of `rex`, which reads the raw text of rows if it names no field. -/
def rex [Libraries] : Parser Stage := do
  let field ← parameter "field" fieldName
  let t ← take .quotedRegex
  if t.kind == .string || t.kind == .regex then
    if Libraries.isPattern t.text then return .rex (field.getD rawField) t.text
    else failAt t .invalidRegex
  else failAt t (.expected .quotedRegex)

/-- The readers that those of stages are built on. -/
structure StageReaders (M : Type → Type) where
  conditions : M (List Condition)
  expression : M EvalExpr
  span : Parser Span

section Nesting

variable {M : Type → Type} [Monad M] [Readers M] [Libraries] (readers : StageReaders M)

/-- The stage of a command, whose token was taken. -/
def stageOfBy (token : Token) : Command → M Stage
  | .search => .filter .search <$> readers.conditions
  | .filter => .filter .filter <$> readers.conditions
  | .where_ => .filter .where_ <$> readers.conditions
  | .stats => Readers.lift stats
  | .sort => Readers.lift sort
  | .limit => Readers.lift (limit .limit)
  | .head => Readers.lift (limit .head)
  | .tail => Readers.lift (limit .tail)
  | .dedup => Readers.lift (.dedup <$> fieldList)
  | .table => Readers.lift (.table <$> fieldList)
  | .fields => Readers.lift fields
  | .rename => Readers.lift rename
  | .eval => evalBy readers.expression
  | .top => Readers.lift (frequent .top)
  | .rare => Readers.lift (frequent .rare)
  | .bin => Readers.lift (binBy readers.span token)
  | .timechart => Readers.lift (timechartBy readers.span)
  | .rex => Readers.lift rex

/-- A stage with its command in front. -/
def stageBy : M Stage := do
  let t ← Readers.lift (take .command)
  match t.kind with
  | .command command => stageOfBy readers t command
  | .identifier => Readers.lift (failAt t .unknownCommand)
  | _ => Readers.lift (failAt t (.expected .command))

end Nesting

abbrev bin (command : Token) : Parser Stage := binBy spanValue command

abbrev timechart : Parser Stage := timechartBy spanValue

/-- The readers of the language, given how the text of a word is read. -/
def stageReadersOf (word : Token → Parser String) : StageReaders Parser :=
  ⟨conditionsOf (termBy word), expression, spanBy word⟩

abbrev stageReaders : StageReaders Parser := stageReadersOf glue

abbrev stageOf [Libraries] (token : Token) (command : Command) : Parser Stage :=
  stageOfBy stageReaders token command

abbrev stage [Libraries] : Parser Stage := stageBy stageReaders

end LogQuery.Parser
