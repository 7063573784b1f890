import LogQuery.Parser.Stage
import LogQuery.Token.Lexer

namespace LogQuery

/-- How long and how deep a query may be. -/
structure ParserLimits where
  maxTokens : Nat
  maxDepth : Nat
  deriving DecidableEq, Repr

namespace Parser

/-- A token that begins a search without the command. -/
def startsSearch : TokenKind → Bool
  | .identifier | .string | .number | .regex | .symbol .star | .symbol .lParen
  | .clause .not_ => true
  | _ => false

section Nesting

variable {M : Type → Type} [Monad M] [Readers M] [Libraries] (readers : StageReaders M)

/-- The first stage. -/
def firstStageBy : M Stage := do
  if (← Readers.lift nextKind?).any startsSearch then .filter .search <$> readers.conditions
  else stageBy readers

/-- All stages of a query, up to its end. -/
def stagesBy : M (List Stage) := do
  if (← Readers.lift nextKind?).isNone then return []
  else
    let first ← firstStageBy readers
    let more ← Readers.many fun t _ =>
      if t.kind = .symbol .pipe then some (some <$> stageBy readers) else none
    if (← Readers.lift nextKind?).isNone then return first :: more
    else Readers.lift (fail (.expected .pipeOrEnd))

end Nesting

abbrev firstStage [Libraries] : Parser Stage := firstStageBy stageReaders

abbrev stages [Libraries] : Parser (List Stage) := stagesBy stageReaders

/-- The token that ends a query: the last of its tokens if that is the end of the query, and
otherwise a new one behind it. -/
def stopToken (ts : List Token) : Token :=
  match ts.getLast? with
  | none => ⟨.eof, "", .start⟩
  | some t => if t.kind = .eof then t else ⟨.eof, "", t.finish⟩

/-- The tokens of a query without the one that ends it. -/
def withoutStop (ts : List Token) : List Token :=
  if ts.getLast?.any (·.kind == .eof) then ts.dropLast else ts

/-- What a reader makes of the tokens of a query. What follows the first end of the query among the
tokens counts towards their number, and no further. -/
def readQuery {α : Type} (whole : Parser α) (limits : ParserLimits) (ts : List Token) :
    Except ParseError α :=
  let inner := withoutStop ts
  let stop := stopToken ts
  if limits.maxTokens < inner.length then
    .error ⟨.tooManyTokens limits.maxTokens, inner[limits.maxTokens]?.getD stop⟩
  else
    let body := inner.takeWhile (·.kind != .eof)
    let firstStop := (inner.find? (·.kind == .eof)).getD stop
    (whole ⟨firstStop, limits.maxDepth⟩ body).map Parsed.value

end Parser

def parseTokens [Libraries] (limits : ParserLimits) (ts : List Token) :
    Except ParseError Pipeline :=
  (Parser.readQuery Parser.stages limits ts).map Pipeline.mk

inductive QueryError where
  | lex (error : LexError)
  | parse (error : ParseError)
  deriving DecidableEq, Repr

def QueryError.message : QueryError → String
  | .lex e => e.message
  | .parse e => e.message

def parseQuery [Libraries] (limits : ParserLimits) (query : String) : Except QueryError Pipeline :=
  match tokenize query with
  | .error e => .error (.lex e)
  | .ok tokens =>
    match parseTokens limits tokens with
    | .error e => .error (.parse e)
    | .ok pipeline => .ok pipeline

end LogQuery
