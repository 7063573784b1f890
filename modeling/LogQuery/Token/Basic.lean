import LogQuery.Token.Kind

namespace LogQuery

/-- A place in a query: a line and a column, both counted from one. -/
structure Position where
  line : Nat
  column : Nat
  deriving DecidableEq, Repr, Inhabited

namespace Position

def start : Position := ⟨1, 1⟩

/-- The place behind one character that stands here. -/
def next (p : Position) (c : Char) : Position :=
  if c = '\n' then ⟨p.line + 1, 1⟩ else ⟨p.line, p.column + 1⟩

/-- The place behind a row of characters that begins here. -/
def after (p : Position) (cs : List Char) : Position := cs.foldl next p

def describe (p : Position) : String := s!"line {p.line}, column {p.column}"

end Position

/-- A token: its kind, its text and the place of its first character. The text is what stands in
the query, except for strings and regular expressions, which hold their content. -/
structure Token where
  kind : TokenKind
  text : String
  position : Position
  deriving DecidableEq, Repr, Inhabited

namespace Token

/-- The place behind a token whose text is what stands in the query. -/
def finish (t : Token) : Position := ⟨t.position.line, t.position.column + t.text.length⟩

def describe (t : Token) : String :=
  match t.kind with
  | .eof => "end of query"
  | .string => "\"" ++ t.text ++ "\""
  | .regex => "/" ++ t.text ++ "/"
  | _ => "'" ++ t.text ++ "'"

end Token

end LogQuery
