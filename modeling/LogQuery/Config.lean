import LogQuery.Json.Basic
import LogQuery.Number.Integer
import LogQuery.Parser.Pipeline
import LogQuery.Sql.Dialect

namespace LogQuery

/-- The tables that are queried, and the limits of queries. -/
structure Config where
  clickHouseTable : String := Dialect.defaultTable .clickHouse
  sqliteTable : String := Dialect.defaultTable .sqlite
  /-- The number of rows of a query that neither aggregates nor sets a number. -/
  defaultLimit : Nat := 1000
  maxTokens : Nat := 10000
  maxDepth : Nat := 64
  deriving DecidableEq, Repr, Inhabited

/-- A rule that a configuration breaks, with the entry that breaks it. -/
inductive Violation where
  /-- A table without a name. -/
  | unnamedTable (entry : String) (message : String)
  | outOfRange (entry : String) (least : Nat) (most : Option Nat) (value : Nat)
  deriving DecidableEq, Repr

namespace Violation

def entry : Violation → String
  | .unnamedTable entry _ | .outOfRange entry _ _ _ => entry

def toJson : Violation → Json
  | .unnamedTable _ message =>
    .object [("code", .string "length"), ("message", .string message),
      ("params", .object [("min", .nat 1), ("value", .string "")])]
  | .outOfRange _ least most value =>
    .object [("code", .string "range"), ("message", .null),
      ("params", .object ([("min", .nat least)] ++ (most.map fun m => ("max", Json.nat m)).toList
        ++ [("value", .nat value)]))]

end Violation

/-- Why variables or JSON make no configuration. -/
inductive ConfigError where
  | notANumber (name value : String)
  | invalid (violations : List Violation)
  deriving DecidableEq, Repr

def ConfigError.message : ConfigError → String
  | .notANumber name value =>
    name ++ " must be a non-negative integer, got '" ++ value ++ "'"
  | .invalid _ => "Validation failed"

namespace Config

def table (c : Config) : Dialect → String
  | .clickHouse => c.clickHouseTable
  | .sqlite => c.sqliteTable

/-- The limits on the text of queries. -/
def parserLimits (c : Config) : ParserLimits := ⟨c.maxTokens, c.maxDepth⟩

/-! ### Checking -/

def checkTable (entry message table : String) : List Violation :=
  if table.isEmpty then [.unnamedTable entry message] else []

def checkRange (entry : String) (least : Nat) (most : Option Nat) (value : Nat) :
    List Violation :=
  if value < least || most.any (· < value) then [.outOfRange entry least most value] else []

/-- The rules that a configuration breaks, at most one for each entry. -/
def violations (c : Config) : List Violation :=
  checkTable "clickhouse_table" "ClickHouse table cannot be empty" c.clickHouseTable
    ++ checkTable "sqlite_table" "SQLite table cannot be empty" c.sqliteTable
    ++ checkRange "default_limit" 1 (some 1000000) c.defaultLimit
    ++ checkRange "max_tokens" 1 none c.maxTokens
    ++ checkRange "max_depth" 1 (some 1024) c.maxDepth

/-- The configuration itself, if it breaks no rule. -/
def validate (c : Config) : Except ConfigError Config :=
  if c.violations.isEmpty then .ok c else .error (.invalid c.violations)

/-! ### Reading and writing -/

/-- The number that a variable holds, with blanks around it allowed, or its default. -/
def numberOf (lookup : String → Option String) (name : String) (fallback : Nat) :
    Except ConfigError Nat :=
  match lookup name with
  | none => .ok fallback
  | some value =>
    match Numeral.natBelow? (twoTo 64) (Text.trim value) with
    | some n => .ok n
    | none => .error (.notANumber name value)

/-- The configuration that variables set. A variable that is no number is found before the
configuration is checked. -/
def ofLookup (lookup : String → Option String) : Except ConfigError Config := do
  let defaults : Config := {}
  let defaultLimit ← numberOf lookup "SPLC_DEFAULT_LIMIT" defaults.defaultLimit
  let maxTokens ← numberOf lookup "SPLC_MAX_TOKENS" defaults.maxTokens
  let maxDepth ← numberOf lookup "SPLC_MAX_DEPTH" defaults.maxDepth
  validate
    { clickHouseTable := (lookup "SPLC_CLICKHOUSE_TABLE").getD defaults.clickHouseTable
      sqliteTable := (lookup "SPLC_SQLITE_TABLE").getD defaults.sqliteTable
      defaultLimit, maxTokens, maxDepth }

def entries : List String :=
  ["clickhouse_table", "sqlite_table", "default_limit", "max_tokens", "max_depth"]

/-- The entry of a name: the field of an object, or the item of an array at the place of the
entry. -/
def entry? (key : String) : Json → Option Json
  | .array items => items[entries.idxOf key]?
  | j => j.field? key

/-- The value of an entry, or its default if there is none. -/
def entryOr {α : Type} (read : Json → Option α) (key : String) (fallback : α) (j : Json) :
    Option α :=
  match entry? key j with
  | none => some fallback
  | some value => read value

/-- The configuration that an object gives, or an array of its entries in order, unchecked. -/
def ofJson? (j : Json) : Option Config := do
  let defaults : Config := {}
  let isGroup :=
    match j with
    | .object _ => true
    | .array items => decide (items.length ≤ entries.length)
    | _ => false
  if !isGroup then none
  return {
    clickHouseTable := ← entryOr Json.string? "clickhouse_table" defaults.clickHouseTable j
    sqliteTable := ← entryOr Json.string? "sqlite_table" defaults.sqliteTable j
    defaultLimit := ← entryOr Json.nat? "default_limit" defaults.defaultLimit j
    maxTokens := ← entryOr Json.nat? "max_tokens" defaults.maxTokens j
    maxDepth := ← entryOr Json.nat? "max_depth" defaults.maxDepth j }

def toJson (c : Config) : Json :=
  .object [("clickhouse_table", .string c.clickHouseTable),
    ("sqlite_table", .string c.sqliteTable), ("default_limit", .nat c.defaultLimit),
    ("max_tokens", .nat c.maxTokens), ("max_depth", .nat c.maxDepth)]

end Config

end LogQuery
