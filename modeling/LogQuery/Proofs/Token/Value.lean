import LogQuery.Proofs.Token.Genuine

namespace LogQuery

open Lexer

def Value.spelling : Value → List (TokenKind × String)
  | .string s => [(.string, s)]
  | .number x => [(.number, x.plain)]
  | .regex p => [(.regex, p)]
  | .null => [(.identifier, "null")]
  | .list items =>
    (.symbol .lParen, "(") :: [(.symbol .comma, ",")].intercalate (items.map Value.spelling) ++
      [(.symbol .rParen, ")")]

/-- A value that one token can stand for. -/
inductive Value.Written : Value → Prop where
  | string {s : String} (h : s.toList.getLast? ≠ some '\\') : Written (.string s)
  | number {x : Binary64} (h : x.isFinite = true) : Written (.number x)
  | regex {p : String} (h : IsPattern p.toList) : Written (.regex p)
  | null : Written .null

variable {previous : Option TokenKind} {rest : List Char} {v : Value}

lemma isWord_null : IsWord "null".toList := isWord_of_all rfl rfl

lemma wordKind_null : wordKind "null".toList = .identifier := by decide

/-- A value is one token behind everything that ends no operand. -/
lemma Value.Written.spells (h : v.Written) (hprevious : previous.any TokenKind.endsOperand = false)
    (hrest : EndsText rest) : Spells previous v.display.toList v.spelling rest := by
  cases h with
  | string h =>
    rw [display, spelling]
    exact spells_quote h
  | number h =>
    rw [display, spelling]
    exact spells_plain h hprevious hrest
  | regex h =>
    rw [display, spelling]
    exact spells_regex h hprevious
  | null =>
    rw [display, spelling, ← wordKind_null]
    exact spells_word isWord_null hrest

/-- The text of a token that may be glued can stand between quotes. -/
lemma Token.IsGenuine.written_string {t : Token} (h : t.IsGenuine)
    (ht : Parser.isGluable t.kind = true) : (Value.string t.text).Written :=
  .string fun hlast => h.gluable ht (List.mem_of_getLast? hlast)

end LogQuery
