import LogQuery.Number.Reading
import LogQuery.Text.Blank

/-!
# Timestamps

The notations for dates and points in time. The strict notation has fields of fixed width, an
hour's offset from universal time at its end, and `T`, `t` or a blank between date and time. The
loose notations have no offset. In them blanks may stand in front of every number, and a number
may have fewer digits than its field; seconds, with a fraction, may be left out.

A text is a timestamp if one of the notations takes all of it and its fields name a day of the
calendar and a time of the day. The last minute of a day may have a leap second.
-/

namespace LogQuery

namespace Timestamp

/-! ### The calendar -/

/-- A year with a day more than others. -/
def isLeapYear (year : Int) : Bool := year % 4 = 0 && (year % 100 ≠ 0 || year % 400 = 0)

def daysInMonth (year : Int) (month : Nat) : Nat :=
  if month = 2 then if isLeapYear year then 29 else 28
  else if month = 4 ∨ month = 6 ∨ month = 9 ∨ month = 11 then 30
  else 31

/-- A day of the calendar, in a year whose distance from the origin has at most 18 bits. -/
def isDay (year : Int) (month day : Nat) : Bool :=
  -262143 ≤ year && year ≤ 262142 && 1 ≤ month && month ≤ 12 && 1 ≤ day &&
    day ≤ daysInMonth year month

/-- A time of the day; any minute may have a leap second. -/
def isTime (hour minute second : Nat) : Bool := hour ≤ 23 && minute ≤ 59 && second ≤ 60

/-! ### Fields -/

/-- Reads a part from the front of a text, and leaves the rest. -/
abbrev Scan := StateT (List Char) Option

/-- A number of at least and at most so many digits. -/
def number (least most : Nat) : Scan Nat := fun cs =>
  let digits := (cs.take most).takeWhile Char.isDigit
  if digits.length < least then none
  else some (Numeral.digitsValue digits, cs.drop digits.length)

def anyNumber : Scan Nat := fun cs => number 1 cs.length cs

def oneOf (expected : List Char) : Scan Unit := fun cs =>
  match cs with
  | c :: rest => if expected.contains c then some ((), rest) else none
  | [] => none

def blanks : Scan Unit := fun cs => some ((), Text.trimStart cs)

/-- A number of at most so many digits, with blanks in front. -/
def looseNumber (most : Nat) : Scan Nat := do
  blanks
  number 1 most

/-- A year of at most four digits, or of any number of digits behind a sign, with blanks in
front. -/
def looseYear : Scan Int := do
  blanks
  match (← get).head? with
  | some '-' => do oneOf ['-']; return -(← anyNumber : Nat)
  | some '+' => do oneOf ['+']; return (← anyNumber : Nat)
  | _ => return (← number 1 4 : Nat)

def fraction : Scan Unit := do
  if (← get).head? = some '.' then
    oneOf ['.']
    let _ ← anyNumber

/-- A condition that the fields have to satisfy. -/
def require (holds : Bool) : Scan Unit := if holds then pure () else failure

/-! ### Notations -/

/-- The offset from universal time: `Z`, or a sign, hours and minutes. -/
def offset : Scan Unit := do
  if (← get).head?.any fun c => c = 'Z' || c = 'z' then oneOf ['Z', 'z']
  else
    oneOf ['+', '-', '−']
    let hours ← number 2 2
    oneOf [':']
    let minutes ← number 2 2
    require (hours ≤ 23 && minutes ≤ 59)

def strict : Scan Unit := do
  let year ← number 4 4
  oneOf ['-']
  let month ← number 2 2
  oneOf ['-']
  let day ← number 2 2
  oneOf ['T', 't', ' ']
  let hour ← number 2 2
  oneOf [':']
  let minute ← number 2 2
  oneOf [':']
  let second ← number 2 2
  fraction
  offset
  require (isDay year month day && isTime hour minute second)

def looseDate : Scan Unit := do
  let year ← looseYear
  oneOf ['-']
  let month ← looseNumber 2
  oneOf ['-']
  let day ← looseNumber 2
  require (isDay year month day)

/-- The loose notation of a time without seconds. -/
def looseMinutes : Scan Unit := do
  let hour ← looseNumber 2
  oneOf [':']
  let minute ← looseNumber 2
  require (isTime hour minute 0)

/-- The loose notation of a time with seconds. -/
def looseSeconds : Scan Unit := do
  looseMinutes
  oneOf [':']
  let second ← looseNumber 2
  require (isTime 0 0 second)

/-- What a format of a date with a time of the day asks for. -/
def dateTime? : String → Option (Scan Unit)
  | "%Y-%m-%dT%H:%M" => some do looseDate; oneOf ['T']; looseMinutes
  | "%Y-%m-%dT%H:%M:%S" => some do looseDate; oneOf ['T']; looseSeconds
  | "%Y-%m-%dT%H:%M:%S%.f" => some do looseDate; oneOf ['T']; looseSeconds; fraction
  | "%Y-%m-%d %H:%M:%S" => some do looseDate; blanks; looseSeconds
  | "%Y-%m-%d %H:%M:%S%.f" => some do looseDate; blanks; looseSeconds; fraction
  | _ => none

def takesAll (scan : Scan Unit) (text : String) : Bool := (scan text.toList).any (·.2.isEmpty)

/-- The text is a point in time in the strict notation. -/
def isInstant (text : String) : Bool := takesAll strict text

def isDate (format text : String) : Bool := format = "%Y-%m-%d" && takesAll looseDate text

/-- The text is a date with a time of the day in a format. -/
def isDateTime (format text : String) : Bool := (dateTime? format).any (takesAll · text)

end Timestamp

end LogQuery
