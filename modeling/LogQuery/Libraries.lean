namespace LogQuery

/-- What a program asks of the libraries that it is built on. What they answer is not decided here.
-/
class Libraries where
  /-- The text is a regular expression. -/
  isPattern (text : String) : Bool
  /-- The text is a point in time, with its offset from universal time. -/
  isInstant (text : String) : Bool
  /-- The text is a date in a format. -/
  isDate (format text : String) : Bool
  /-- The text is a date with a time of the day in a format. -/
  isDateTime (format text : String) : Bool

end LogQuery
