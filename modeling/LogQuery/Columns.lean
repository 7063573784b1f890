import LogQuery.Number.Integer
import LogQuery.Text.Blank
import LogQuery.Text.Lowercase

namespace LogQuery.Column

/-- The column with the time of a row. -/
def timestamp : String := "timestamp"

/-- The column with the severity of a row. -/
def severity : String := "severity"

/-- The columns that a query returns unless it says otherwise. -/
def defaults : List String := [timestamp, "hostname", "app_name", severity, "message"]

/-- The names of fields that stand for a column. -/
def aliases : List (String × String) :=
  [("host", "hostname"), ("hostname", "hostname"), ("app", "app_name"), ("app_name", "app_name"),
    ("program", "app_name"), ("sourcetype", "app_name"), ("level", severity),
    ("priority", severity), ("severity", severity), ("msg", "message"), ("message", "message"),
    ("_raw", "raw"), ("_time", timestamp), ("time", timestamp), ("timestamp", timestamp),
    ("index", "index_name")]

/-- The column of a field. A name that stands for no column is the name of one itself. -/
def ofField (field : String) : String :=
  ((aliases.find? fun (name, _) => Text.equalIgnoringCase name field).map (·.2)).getD field

/-! ### Severity -/

/-- The names of the levels of severity; the most severe is zero. -/
def severityNames : List (String × Int) :=
  [("emergency", 0), ("emerg", 0), ("panic", 0), ("alert", 1), ("critical", 2), ("crit", 2),
    ("error", 3), ("err", 3), ("warning", 4), ("warn", 4), ("notice", 5), ("info", 6),
    ("informational", 6), ("debug", 7)]

/-- The level of a text that is neither a name nor a number. -/
def defaultSeverity : Int := 6

/-- The level of a name in any case of letters, or of a number, with blanks around it allowed. -/
def severityLevel (text : String) : Int :=
  let lower := Text.lowercase (Text.trim text)
  ((severityNames.lookup lower).or (Numeral.int64? lower)).getD defaultSeverity

end LogQuery.Column
