import LogQuery.Sql.Dialect

namespace LogQuery.Sql

/-- What a character of a text is written as between single quotes. -/
def escapeInText (d : Dialect) (c : Char) : List Char :=
  if c = '\'' then ['\'', '\'']
  else if c = '\\' ∧ d = .clickHouse then ['\\', '\\']
  else [c]

def quoteText (d : Dialect) (s : String) : String :=
  String.ofList ('\'' :: s.toList.flatMap (escapeInText d) ++ ['\''])

/-- The character around a quoted name. -/
def nameQuote : Dialect → Char
  | .clickHouse => '`'
  | .sqlite => '"'

/-- What a character of a name is written as between the quotes around it. -/
def escapeInName : Dialect → Char → List Char
  | .clickHouse, c => if c = '`' ∨ c = '\\' then ['\\', c] else [c]
  | .sqlite, c => if c = '"' then [c, c] else [c]

def quoteName (d : Dialect) (name : String) : String :=
  String.ofList (nameQuote d :: name.toList.flatMap (escapeInName d) ++ [nameQuote d])

def isPlainChar (c : Char) : Bool := c.isAlphanum || c = '_' || c = '.'

/-- ASCII letters, digits, underscores and points, and neither a digit nor a point in front. -/
def isPlainName (name : String) : Bool :=
  match name.toList with
  | [] => false
  | c :: rest => (c.isAlpha || c = '_') && rest.all isPlainChar

/-- A name, in quotes if it needs them. -/
def identifier (d : Dialect) (name : String) : String :=
  if isPlainName name then name else quoteName d name

end LogQuery.Sql
