import LogQuery.Syntax.Aggregation
import LogQuery.Token.Basic

namespace LogQuery

/-- What may stand at a place of a query. -/
inductive Expectation where
  | command | pipeOrEnd
  | fieldName | outputName | asWord | equalsSign | number | closeParen
  | aggregation | sortField | span | spanOrAs | quotedRegex
  | condition | conditionOrEnd | conditionAfterOr | conditionAfterAnd | conditionAfterNot
  | listAfterIn
  /-- A value behind a token of this text. -/
  | valueAfter (text : String)
  | expression | commaOrCloseParen
  deriving DecidableEq, Repr

def Expectation.display : Expectation → String
  | .command => "a command"
  | .pipeOrEnd => "'|' or end of query"
  | .fieldName => "a field name"
  | .outputName => "an alias"
  | .asWord => "AS"
  | .equalsSign => "'='"
  | .number => "a number"
  | .closeParen => "')'"
  | .aggregation => "an aggregation function"
  | .sortField => "a field to sort by"
  | .span => "a span such as 5m or 100"
  | .spanOrAs => "span=<value> or AS"
  | .quotedRegex => "a quoted regular expression"
  | .condition => "a condition"
  | .conditionOrEnd => "a condition, '|' or end of query"
  | .conditionAfterOr => "a condition after OR"
  | .conditionAfterAnd => "a condition after AND"
  | .conditionAfterNot => "a condition after NOT"
  | .listAfterIn => "'(' after IN"
  | .valueAfter text => "a value after '" ++ text ++ "'"
  | .expression => "an expression"
  | .commaOrCloseParen => "',' or ')'"

inductive ParseFault where
  /-- Something else may stand in its place. -/
  | expected (what : Expectation)
  | unknownCommand
  | unknownAggregation
  /-- The function summarises a field, and none is given. -/
  | aggregationNeedsField (function : AggregateFunction)
  /-- The number is no natural number of 64 bits. -/
  | notACount
  | invalidSpan (text : String)
  | binNeedsField
  | binNeedsSpan
  | invalidRegex
  | emptyValueList
  | tooManyTokens (limit : Nat)
  | tooDeep (limit : Nat)
  deriving DecidableEq, Repr

def ParseFault.message (token : Token) : ParseFault → String
  | .expected what => "Expected " ++ what.display ++ ", found " ++ token.describe
  | .unknownCommand => "Unknown command '" ++ token.text ++ "'"
  | .unknownAggregation => "Unknown aggregation function '" ++ token.text ++ "'"
  | .aggregationNeedsField function => "Aggregation '" ++ function.name ++ "' requires a field"
  | .notACount => "Expected a non-negative integer, found '" ++ token.text ++ "'"
  | .invalidSpan text => "Invalid span '" ++ text ++ "'"
  | .binNeedsField => "bin requires a field"
  | .binNeedsSpan => "bin requires span=<value>"
  | .invalidRegex => "Invalid regular expression '" ++ token.text ++ "'"
  | .emptyValueList => "IN requires at least one value"
  | .tooManyTokens limit => "Query exceeds the maximum of " ++ toString limit ++ " tokens"
  | .tooDeep limit => "Query nesting exceeds the maximum depth of " ++ toString limit

/-- Why tokens form no query: the first token that does not fit, and what is wrong with it. -/
structure ParseError where
  fault : ParseFault
  token : Token
  deriving DecidableEq, Repr

namespace ParseError

def position (e : ParseError) : Position := e.token.position

def message (e : ParseError) : String :=
  e.fault.message e.token ++ " at " ++ e.position.describe

end ParseError

end LogQuery
