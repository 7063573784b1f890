import LogQuery.CommandLine.Arguments
import LogQuery.CommandLine.Libraries
import LogQuery.Compile.Pipeline
import LogQuery.Json.Printer
import LogQuery.Syntax.Json

namespace LogQuery.CommandLine

inductive Outcome where
  /-- It prints an answer, which is a success or not. -/
  | answered (text : String) (success : Bool)
  | failed (message : String)
  /-- It did not understand its arguments. -/
  | usage
  deriving DecidableEq, Repr

def versionText : String := "splc 0.1.0"

def helpText : String :=
  "Compile pipeline queries to ClickHouse or SQLite SQL\n\n" ++
  "Usage: splc [--json-logs] compile [-d <DIALECT>] [--earliest <TIME>] [--latest <TIME>] " ++
  "[--json] <QUERY>\n" ++
  "       splc [--json-logs] ast <QUERY>\n" ++
  "       splc [--json-logs] validate [-d <DIALECT>] <QUERY>\n" ++
  "       splc [--json-logs] tokens <QUERY>"

/-- The dialect that arguments ask for, or else the variable for it; none if it is unknown. -/
def dialect? (env : String → Option String) (a : Arguments) : Option Dialect :=
  match (a.values.lookup .dialect).or (env "SPLC_DIALECT") with
  | some name => Dialect.ofName? name
  | none => some .clickHouse

/-- A compiled query in JSON. All values stand in its text, so it has no parameters. -/
def compiledToJson (sql : String) : Json := .object [("sql", .string sql), ("params", .array [])]

def validationToJson : Except String Unit → Json
  | .ok _ => .object [("valid", .bool true)]
  | .error message => .object [("valid", .bool false), ("error", .string message)]

def tokenLine (t : Token) : String :=
  toString t.position.line ++ ":" ++ toString t.position.column ++ "\t" ++ t.kind.label ++ "\t"
    ++ t.text

def runCommand [Libraries] (config : Config) (d : Dialect) (a : Arguments) (query : String) :
    Command → Outcome
  | .compile =>
    match config.compile query d (a.values.lookup .earliest) (a.values.lookup .latest) with
    | .error e => .failed e.message
    | .ok sql =>
      .answered (if a.flags.contains .json then (compiledToJson sql).pretty else sql) true
  | .ast =>
    match parseQuery config.parserLimits query with
    | .error e => .failed e.message
    | .ok p => .answered p.toJson.pretty true
  | .validate =>
    let result := config.checkQuery query d
    .answered (validationToJson result).pretty result.toBool
  | .tokens =>
    match tokenize query with
    | .error e => .failed e.message
    | .ok tokens => .answered (String.intercalate "\n" (tokens.map tokenLine)) true

/-- What a run prints, and how it ends. Arguments are read before variables, and a query is looked
at last. -/
def run [Libraries] (env : String → Option String) (args : List String) : Outcome :=
  match readCommand false args with
  | .error .usage => .usage
  | .error .help => .answered helpText true
  | .error .version => .answered versionText true
  | .ok (command, a) =>
    let d := if command.takesDialect then dialect? env a else some .clickHouse
    match d, a.query with
    | some d, some query =>
      match Config.ofLookup env with
      | .error e => .failed e.message
      | .ok config => runCommand config d a query command
    | _, _ => .usage

/-- The variables that a run looks at. -/
def environmentNames : List String :=
  ["SPLC_DIALECT", "SPLC_CLICKHOUSE_TABLE", "SPLC_SQLITE_TABLE", "SPLC_DEFAULT_LIMIT",
    "SPLC_MAX_TOKENS", "SPLC_MAX_DEPTH"]

end LogQuery.CommandLine
