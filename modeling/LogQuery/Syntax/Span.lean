import LogQuery.Number.Reading
import LogQuery.Number.Text
import LogQuery.Text.Blank
import LogQuery.Text.Lowercase

namespace LogQuery

inductive TimeUnit where
  | second | minute | hour | day | week
  deriving DecidableEq, Repr

namespace TimeUnit

def all : List TimeUnit := [.second, .minute, .hour, .day, .week]

def seconds : TimeUnit → Nat
  | .second => 1
  | .minute => 60
  | .hour => 3600
  | .day => 86400
  | .week => 604800

def name : TimeUnit → String
  | .second => "second"
  | .minute => "minute"
  | .hour => "hour"
  | .day => "day"
  | .week => "week"

def ofName? (name : String) : Option TimeUnit := all.find? (·.name == name)

/-- The letter that stands for the unit in the text of a span. -/
def letter : TimeUnit → String
  | .second => "s"
  | .minute => "m"
  | .hour => "h"
  | .day => "d"
  | .week => "w"

/-- The ways to write the unit behind an amount, in lower case. -/
def spellings : TimeUnit → List String
  | .second => ["seconds", "second", "secs", "sec", "s"]
  | .minute => ["minutes", "minute", "mins", "min", "m"]
  | .hour => ["hours", "hour", "hrs", "hr", "h"]
  | .day => ["days", "day", "d"]
  | .week => ["weeks", "week", "w"]

/-- The unit that a word in lower case spells. -/
def ofSpelling? (word : String) : Option TimeUnit := all.find? (·.spellings.contains word)

end TimeUnit

/-- An amount of time: digits below `2 ^ 64` followed by the spelling of a unit, with nothing
between or after them. -/
def timeAmount? (text : List Char) : Option (Nat × TimeUnit) := do
  let digits := text.takeWhile Char.isDigit
  let amount := Numeral.digitsValue digits
  if digits.isEmpty || twoTo 64 ≤ amount then none
  else
    let unit ← TimeUnit.ofSpelling? (String.ofList (text.dropWhile Char.isDigit))
    return (amount, unit)

/-- The width of a bucket: an interval of time such as `5m`, or a number such as `100`. -/
inductive Span where
  | time (amount : Nat) (unit : TimeUnit)
  | numeric (width : Binary64)
  deriving DecidableEq, Repr

namespace Span

/-- The largest number of 64 bits. -/
def maxSeconds : Nat := twoTo 64 - 1

/-- The length of a time span, cut off at the largest number of 64 bits. -/
def seconds? : Span → Option Nat
  | .time amount unit => some (min maxSeconds (amount * unit.seconds))
  | .numeric _ => none

/-- The width of a bucket of time: a plain number counts seconds, rounded, at least one. -/
def bucketSeconds : Span → Nat
  | .time amount unit => min maxSeconds (amount * unit.seconds)
  | .numeric width => if width.isPositive then min maxSeconds (max 1 width.roundHalfUp) else 1

def display : Span → String
  | .time amount unit => toString amount ++ unit.letter
  | .numeric width => width.plain

/-- The span that a text writes, in any case of letters. It is never empty and never infinitely
wide. -/
def ofText? (text : String) : Option Span :=
  let chars := (Text.lowercase (Text.trim text)).toList
  match timeAmount? chars with
  | some (amount, unit) => if amount = 0 then none else some (.time amount unit)
  | none => do
    let width := (← Numeral.ofText? chars).nearest
    if width.isPositive && width.isFinite then some (.numeric width) else none

end Span

end LogQuery
