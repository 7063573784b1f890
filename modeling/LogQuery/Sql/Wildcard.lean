namespace LogQuery.Sql

/-- A text has a wildcard in it. -/
def hasWildcard (s : String) : Bool := s.toList.contains '*'

/-- What a character of a text with wildcards is in a pattern. -/
def likeChar (c : Char) : List Char :=
  if c = '*' then ['%'] else if c = '%' ∨ c = '_' ∨ c = '\\' then ['\\', c] else [c]

def likePattern (s : String) : String := String.ofList (s.toList.flatMap likeChar)

end LogQuery.Sql
