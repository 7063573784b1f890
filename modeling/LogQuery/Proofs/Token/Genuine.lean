import LogQuery.Proofs.Token.Spelling

namespace LogQuery

open Lexer

/-- The text of the token is one that the reader of tokens takes for its kind. -/
structure Token.IsGenuine (t : Token) : Prop where
  word : t.kind.isWord = true → IsWord t.text.toList ∧ t.kind = wordKind t.text.toList
  string : t.kind = .string → t.text.toList.getLast? ≠ some '\\'
  regex : t.kind = .regex → IsPattern t.text.toList
  /-- What may be glued to other words has no backslash. -/
  gluable : Parser.isGluable t.kind = true → '\\' ∉ t.text.toList

namespace Lexer

/-- A backslash at the end of a string would have taken the quote with it. -/
lemma Unescapes.getLast?_ne {quote : Char} {body text : List Char}
    (h : Unescapes quote body text) (hquote : quote ≠ '\\') : text.getLast? ≠ some '\\' := by
  induction h with
  | nil => simp
  | @escaped body text h ih =>
    rw [List.getLast?_cons]
    cases hlast : text.getLast? with
    | none => simpa using hquote
    | some c => simpa [hlast] using ih
  | @plain c body text hc hescape h ih =>
    rw [List.getLast?_cons]
    cases hlast : text.getLast? with
    | none =>
      have htext : text = [] := by simpa using hlast
      subst htext
      cases h
      rw [Option.getD_none]
      rintro ⟨⟩
      exact hescape rfl rfl
    | some d => simpa [hlast] using ih

/-- Only strings and regular expressions have backslashes in them. -/
lemma Lexes.backslash_not_mem {afterOperand : Bool} {cs : List Char} {l : Lexeme}
    (h : Lexes afterOperand cs l) (hstring : l.kind ≠ .string) (hregex : l.kind ≠ .regex) :
    '\\' ∉ l.source := by
  have hmarks : '\\' ∉ marks := by decide
  have hdigits : ∀ rest : List Char, '\\' ∉ (splitNumber rest).1 := by
    intro rest hmem
    rcases mem_splitNumber hmem with hdigit | hpoint
    · exact absurd hdigit (by decide)
    · exact absurd hpoint (by decide)
  have hsingle : ∀ c : Char, c ∈ marks → '\\' ∉ [c] := by
    intro c hc hmem
    rw [← List.mem_singleton.1 hmem] at hc
    exact hmarks hc
  cases h with
  | @symbol c s rest h => exact hsingle c (mem_marks_of_symbol? h)
  | @comparison c _ _ rest h => exact hsingle c (mem_marks_of_comparison? h)
  | @comparisonEquals c _ _ rest h =>
    intro hmem
    rcases List.mem_cons.1 hmem with hc | hmem
    · exact hmarks (hc ▸ mem_marks_of_comparison? h)
    · exact absurd hmem (by decide)
  | notEqual | minus | slash =>
    simp only [source_verbatim]
    decide
  | negative => exact List.not_mem_cons_of_ne_of_not_mem (by decide) (hdigits _)
  | @number c rest h =>
    refine List.not_mem_cons_of_ne_of_not_mem ?_ (hdigits _)
    rintro rfl
    exact absurd h (by decide)
  | regex => exact absurd rfl hregex
  | string => exact absurd rfl hstring
  | @word c more rest hstart hmore hrest =>
    intro hmem
    have hword : isWordChar '\\' = true := by
      rcases List.mem_cons.1 hmem with hc | hmem
      · rw [hc]
        exact isWordChar_of_isWordStart hstart
      · exact hmore _ hmem
    exact absurd hword (by decide)

/-- The kind of a lexeme says what its text can be. -/
lemma Lexes.isGenuine {afterOperand : Bool} {cs : List Char} {l : Lexeme}
    (h : Lexes afterOperand cs l) (position : Position) :
    Token.IsGenuine ⟨l.kind, String.ofList l.text, position⟩ := by
  refine ⟨fun hword => ?_, fun hstring => ?_, fun hregex => ?_, fun hglue => ?_⟩
  all_goals dsimp only at *
  all_goals rw [String.toList_ofList]
  · cases h with
    | @word c more rest hstart hmore hrest =>
      refine ⟨⟨by simpa using hstart, fun x hx => ?_⟩, rfl⟩
      rcases List.mem_cons.1 hx with rfl | hx
      · exact isWordChar_of_isWordStart hstart
      · exact hmore x hx
    | _ => cases hword
  · cases h with
    | string hquote h => exact h.getLast?_ne (by rcases hquote with rfl | rfl <;> decide)
    | @word c more =>
      have hword := isWord_wordKind (c :: more)
      rw [kind_verbatim] at hstring
      rw [hstring] at hword
      cases hword
    | _ => cases hstring
  · cases h with
    | regex hafter h => exact h
    | @word c more =>
      have hword := isWord_wordKind (c :: more)
      rw [kind_verbatim] at hregex
      rw [hregex] at hword
      cases hword
    | _ => cases hregex
  · obtain ⟨hstring, hregex⟩ := not_mem_of_isGluable hglue
    rw [h.writes.source_eq hstring hregex]
    exact h.backslash_not_mem hstring hregex

/-- All tokens of a text are genuine. -/
lemma Lexing.isGenuine {previous : Option TokenKind} {position : Position} {cs : List Char}
    {ts : List Token} (h : Lexing previous position cs ts) : ∀ t ∈ ts, t.IsGenuine := by
  induction h with
  | stop hgap =>
    rintro t ht
    rw [List.mem_singleton.1 ht]
    exact ⟨nofun, nofun, nofun, nofun⟩
  | lexeme hgap hl h ih =>
    intro t ht
    rcases List.mem_cons.1 ht with rfl | ht
    · exact hl.isGenuine _
    · exact ih t ht

end Lexer

lemma genuine_of_mem_tokenize {query : String} {ts : List Token} (h : tokenize query = .ok ts) :
    ∀ t ∈ ts, t.IsGenuine :=
  (Lexer.tokensFrom_eq_ok.1 h).isGenuine

end LogQuery
