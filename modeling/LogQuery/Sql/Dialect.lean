import LogQuery.Text.Blank
import LogQuery.Text.Lowercase

namespace LogQuery

/-- A dialect of SQL: ClickHouse is the analytical store, SQLite the embedded one. -/
inductive Dialect where
  | clickHouse | sqlite
  deriving DecidableEq, Repr

namespace Dialect

def all : List Dialect := [.clickHouse, .sqlite]

def name : Dialect → String
  | .clickHouse => "clickhouse"
  | .sqlite => "sqlite"

def names : Dialect → List String
  | .clickHouse => ["clickhouse", "ch"]
  | .sqlite => ["sqlite", "sqlite3"]

/-- The dialect of a name, in any case of letters and with blanks around it. -/
def ofName? (text : String) : Option Dialect :=
  all.find? (·.names.contains (Text.lowercase (Text.trim text)))

def unknownMessage (text : String) : String :=
  "Unknown SQL dialect '" ++ text ++ "' (expected clickhouse or sqlite)"

/-- The table of logs where no other is configured. -/
def defaultTable : Dialect → String
  | .clickHouse => "heimsight.logs"
  | .sqlite => "logs"

end Dialect

end LogQuery
