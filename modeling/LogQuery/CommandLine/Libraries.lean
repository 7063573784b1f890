import LogQuery.Libraries
import LogQuery.Pattern.Acceptance
import LogQuery.Time.Timestamp

namespace LogQuery.CommandLine

/-- The libraries of the program: its own readers of patterns and of times stand in for them. -/
instance libraries : Libraries where
  isPattern := Pattern.isAcceptable
  isInstant := Timestamp.isInstant
  isDate := Timestamp.isDate
  isDateTime := Timestamp.isDateTime

end LogQuery.CommandLine
