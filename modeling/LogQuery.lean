import LogQuery.Address.Basic
import LogQuery.Address.Class
import LogQuery.Columns
import LogQuery.CommandLine.Arguments
import LogQuery.CommandLine.Run
import LogQuery.Compile.Condition
import LogQuery.Compile.Draft
import LogQuery.Compile.Expression
import LogQuery.Compile.Function
import LogQuery.Compile.Pipeline
import LogQuery.Compile.Stage
import LogQuery.Config
import LogQuery.Json.Basic
import LogQuery.Json.Printer
import LogQuery.Json.Reader
import LogQuery.Main
import LogQuery.Number.Binary64
import LogQuery.Number.Integer
import LogQuery.Number.Power
import LogQuery.Number.Reading
import LogQuery.Number.Shortest
import LogQuery.Number.Text
import LogQuery.Parser.Basic
import LogQuery.Parser.Condition
import LogQuery.Parser.Error
import LogQuery.Parser.Expression
import LogQuery.Parser.Pipeline
import LogQuery.Parser.Stage
import LogQuery.Pattern.Acceptance
import LogQuery.Pattern.Groups
import LogQuery.Pattern.Property
import LogQuery.Pattern.Reader
import LogQuery.Pattern.Syntax
import LogQuery.Sql.AddressTest
import LogQuery.Sql.Aggregate
import LogQuery.Sql.Bucket
import LogQuery.Sql.Clock
import LogQuery.Sql.Dialect
import LogQuery.Sql.Expr
import LogQuery.Sql.Matching
import LogQuery.Sql.Printer
import LogQuery.Sql.Quoting
import LogQuery.Sql.Statement
import LogQuery.Sql.Value
import LogQuery.Sql.Wildcard
import LogQuery.Syntax.Aggregation
import LogQuery.Syntax.Condition
import LogQuery.Syntax.EvalExpr
import LogQuery.Syntax.Json
import LogQuery.Syntax.Pipeline
import LogQuery.Syntax.Span
import LogQuery.Text.Alphabetic
import LogQuery.Text.Blank
import LogQuery.Text.Lowercase
import LogQuery.Text.Ranges
import LogQuery.Text.Split
import LogQuery.Time.Bound
import LogQuery.Time.Timestamp
import LogQuery.Token.Basic
import LogQuery.Token.Json
import LogQuery.Token.Kind
import LogQuery.Token.Lexer
import LogQuery.Proofs.Address.Class
import LogQuery.Proofs.Address.Dotted
import LogQuery.Proofs.Compile.AddressQuestion
import LogQuery.Proofs.Compile.Clauses
import LogQuery.Proofs.Compile.ConditionWidth
import LogQuery.Proofs.Compile.Confinement
import LogQuery.Proofs.Compile.DraftWidth
import LogQuery.Proofs.Compile.ExpressionWidth
import LogQuery.Proofs.Compile.Filter
import LogQuery.Proofs.Compile.Layout
import LogQuery.Proofs.Compile.Lockstep
import LogQuery.Proofs.Compile.Operand
import LogQuery.Proofs.Compile.Outputs
import LogQuery.Proofs.Compile.Projection
import LogQuery.Proofs.Compile.StageWidth
import LogQuery.Proofs.Compile.Statement
import LogQuery.Proofs.Compile.StatementWidth
import LogQuery.Proofs.Compile.Tame
import LogQuery.Proofs.Number.Numeral
import LogQuery.Proofs.Number.Width
import LogQuery.Proofs.Parser.Agreement
import LogQuery.Proofs.Parser.Condition
import LogQuery.Proofs.Parser.ConditionDisplay
import LogQuery.Proofs.Parser.ConditionRederivation
import LogQuery.Proofs.Parser.ConditionSpelling
import LogQuery.Proofs.Parser.Counting
import LogQuery.Proofs.Parser.CountingReaders
import LogQuery.Proofs.Parser.Covering
import LogQuery.Proofs.Parser.Derivation
import LogQuery.Proofs.Parser.Expression
import LogQuery.Proofs.Parser.ExpressionDerivation
import LogQuery.Proofs.Parser.ExpressionDisplay
import LogQuery.Proofs.Parser.ExpressionReading
import LogQuery.Proofs.Parser.Grammar
import LogQuery.Proofs.Parser.Limits
import LogQuery.Proofs.Parser.Mass
import LogQuery.Proofs.Parser.NegatedConnectives
import LogQuery.Proofs.Parser.Precedence
import LogQuery.Proofs.Parser.ReaderAgreement
import LogQuery.Proofs.Parser.Reading
import LogQuery.Proofs.Parser.SingleStage
import LogQuery.Proofs.Parser.Stages
import LogQuery.Proofs.Parser.WellFormed
import LogQuery.Proofs.Parser.Wildcard
import LogQuery.Proofs.Pattern.Groups
import LogQuery.Proofs.Sql.AddressTest
import LogQuery.Proofs.Sql.AddressWidth
import LogQuery.Proofs.Sql.AggregateWidth
import LogQuery.Proofs.Sql.Builders
import LogQuery.Proofs.Sql.Delimited
import LogQuery.Proofs.Sql.Evaluation
import LogQuery.Proofs.Sql.Filter
import LogQuery.Proofs.Sql.Literal
import LogQuery.Proofs.Sql.Name
import LogQuery.Proofs.Sql.Printer
import LogQuery.Proofs.Sql.Scan
import LogQuery.Proofs.Sql.Unquoting
import LogQuery.Proofs.Sql.Width
import LogQuery.Proofs.Sql.Word
import LogQuery.Proofs.Syntax.Exchange
import LogQuery.Proofs.Syntax.Mass
import LogQuery.Proofs.Syntax.Meaning
import LogQuery.Proofs.Syntax.Omission
import LogQuery.Proofs.Syntax.Part
import LogQuery.Proofs.Syntax.Phrase
import LogQuery.Proofs.Syntax.WellFormed
import LogQuery.Proofs.Text.Lowercase
import LogQuery.Proofs.Token.Character
import LogQuery.Proofs.Token.Genuine
import LogQuery.Proofs.Token.Layout
import LogQuery.Proofs.Token.Lexeme
import LogQuery.Proofs.Token.Lexing
import LogQuery.Proofs.Token.Literal
import LogQuery.Proofs.Token.Spelling
import LogQuery.Proofs.Token.Tiling
import LogQuery.Proofs.Token.Value
import LogQuery.Proofs.Token.Word
import LogQuery.Proofs.Compile.SortedOutput
import LogQuery.Proofs.Pattern.Isolation
import LogQuery.Proofs.Sql.Wildcard
import LogQuery.Proofs.Pattern.Written
import LogQuery.Proofs.Pattern.Agreement
import LogQuery.Proofs.Address.Block
import LogQuery.Proofs.Compile.Subquery
import LogQuery.Proofs.Pattern.Splicing
import LogQuery.Proofs.Sql.AddressNumber
import LogQuery.Proofs.Sql.Arithmetic
import LogQuery.Proofs.Sql.Subquery
import LogQuery.Proofs.Compile.TimeRange
import LogQuery.Proofs.Compile.Exclusion
import LogQuery.Proofs.Number.Rounding
import LogQuery.Proofs.Number.Shortest
import LogQuery.Proofs.Number.Reading
import LogQuery.Proofs.Compile.NaturalValue
import LogQuery.Proofs.Sql.Bucket
import LogQuery.Proofs.Compile.Synonym
import LogQuery.Proofs.Token.Fault
import LogQuery.Proofs.Parser.OperatorBehindWord
import LogQuery.Proofs.Number.Fraction
import LogQuery.Proofs.Number.RoundTrip
import LogQuery.Proofs.Syntax.Span
import LogQuery.Proofs.Compile.Divisor
import LogQuery.Proofs.Parser.ImplicitSearch
import LogQuery.Proofs.Syntax.Height
import LogQuery.Proofs.Parser.Height
import LogQuery.Proofs.Compile.Argument
import LogQuery.Proofs.Parser.Outcome
import LogQuery.Proofs.Parser.Walk.Basic
import LogQuery.Proofs.Parser.Walk.Grammar
import LogQuery.Proofs.Parser.Walk.Following
import LogQuery.Proofs.Parser.Walk.Loops
import LogQuery.Proofs.Parser.Walk.Fields
import LogQuery.Proofs.Parser.Walk.Expression
import LogQuery.Proofs.Parser.Walk.Condition
import LogQuery.Proofs.Parser.Walk.Stage
import LogQuery.Proofs.Parser.Walk.Query
import LogQuery.Proofs.Parser.Gluing.Calls
import LogQuery.Proofs.Parser.Gluing.Slice
