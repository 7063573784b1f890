import LogQuery.Json.Basic
import LogQuery.Token.Basic

namespace LogQuery

namespace Token

def toJson (t : Token) : Json :=
  .object [("kind", .string t.kind.code), ("text", .string t.text),
    ("line", .nat t.position.line), ("column", .nat t.position.column)]

def ofJson? (j : Json) : Option Token := do
  let kind ← (← j.field? "kind").string?
  let text ← (← j.field? "text").string?
  let line ← (← j.field? "line").nat?
  let column ← (← j.field? "column").nat?
  return ⟨← TokenKind.ofCode? kind, text, ⟨line, column⟩⟩

end Token

end LogQuery
