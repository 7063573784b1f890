import LogQuery.Libraries
import LogQuery.Sql.Clock

namespace LogQuery

/-- One end of a range of time. -/
inductive TimeBound where
  | now
  | ago (amount : Nat) (unit : TimeUnit)
  | timestamp (text : String)
  deriving DecidableEq, Repr

inductive TimeBoundError where
  | empty
  | invalid (text : String)
  | noAmount (text : String)
  deriving DecidableEq, Repr

def TimeBoundError.message : TimeBoundError → String
  | .empty => "Empty time expression"
  | .invalid text =>
    "Invalid time expression '" ++ text ++ "' (expected now, -<N><unit> or an ISO date)"
  | .noAmount text => "Relative time '" ++ text ++ "' must be greater than zero"

/-- The formats of a date with a time of the day. -/
def dateTimeFormats : List String :=
  ["%Y-%m-%dT%H:%M:%S", "%Y-%m-%dT%H:%M:%S%.f", "%Y-%m-%d %H:%M:%S", "%Y-%m-%d %H:%M:%S%.f",
    "%Y-%m-%dT%H:%M"]

/-- The text is a date or a point in time. -/
def isTimestamp [Libraries] (text : String) : Bool :=
  Libraries.isInstant text || Libraries.isDate "%Y-%m-%d" text ||
    dateTimeFormats.any fun format => Libraries.isDateTime format text

namespace TimeBound

/-- The amount of time behind a minus sign. -/
def amountAgo? : List Char → Option (Nat × TimeUnit)
  | '-' :: rest => timeAmount? rest
  | _ => none

/-- The bound that a text writes, with blanks around it allowed. -/
def ofText [Libraries] (text : String) : Except TimeBoundError TimeBound :=
  let text := Text.trim text
  if text.isEmpty then .error .empty
  else if Text.equalIgnoringCase text "now" then .ok .now
  else
    match amountAgo? (Text.lowercase text).toList with
    | some (amount, unit) => if amount = 0 then .error (.noAmount text) else .ok (.ago amount unit)
    | none => if isTimestamp text then .ok (.timestamp text) else .error (.invalid text)

def toSql (d : Dialect) : TimeBound → Sql.Expr
  | .now => d.now
  | .ago amount unit => d.timeAgo amount unit
  | .timestamp text => .text text

end TimeBound

end LogQuery
