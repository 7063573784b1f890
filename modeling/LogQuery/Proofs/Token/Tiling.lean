import LogQuery.Proofs.Token.Word

namespace LogQuery

/-! ### Positions -/

namespace Position

/-- The place behind a text that begins a query: its line counts the ends of lines in front of it,
and its column the characters behind the last of these. -/
def behind (front : List Char) : Position :=
  ⟨1 + front.count '\n', 1 + (front.reverse.takeWhile (· != '\n')).length⟩

lemma next_behind (front : List Char) (c : Char) :
    (behind front).next c = behind (front ++ [c]) := by
  by_cases hc : c = '\n'
  · subst hc
    simp [next, behind, Nat.add_assoc]
  · simp [next, behind, hc, Nat.add_assoc]

lemma after_behind (front cs : List Char) : (behind front).after cs = behind (front ++ cs) := by
  induction cs generalizing front with
  | nil => simp [after]
  | cons c cs ih =>
    have hnext := ih (front ++ [c])
    rw [← next_behind, List.append_assoc] at hnext
    exact hnext

end Position

/-! ### Tiles -/

open Lexer

/-- How the text of a token stands in a query. -/
inductive Writes : TokenKind → List Char → List Char → Prop where
  | string {quote : Char} {body text : List Char} (hquote : quote = '"' ∨ quote = '\'')
      (h : Unescapes quote body text) : Writes .string (quote :: (body ++ [quote])) text
  | regex {pattern : List Char} (h : IsPattern pattern) :
      Writes .regex ('/' :: (pattern ++ ['/'])) pattern
  | verbatim {kind : TokenKind} {text : List Char} (hstring : kind ≠ .string)
      (hregex : kind ≠ .regex) : Writes kind text text

lemma Writes.source_eq {kind : TokenKind} {source text : List Char} (h : Writes kind source text)
    (hstring : kind ≠ .string) (hregex : kind ≠ .regex) : text = source := by
  cases h with
  | string => exact absurd rfl hstring
  | regex => exact absurd rfl hregex
  | verbatim => rfl

/-- A token stands in a text from one offset up to another. -/
structure Token.StandsAt (t : Token) (cs : List Char) (start stop : Nat) : Prop where
  position : t.position = .behind (cs.take start)
  writes : Writes t.kind (cs.extract start stop) t.text.toList
  notEof : t.kind ≠ .eof
  isWord : t.kind.isWord = true ↔ IsWord (cs.extract start stop)
  /-- No longer part of the text is a word. -/
  maximal : t.kind.isWord = true → ∀ start' stop', start' ≤ start → stop ≤ stop' →
    stop' ≤ cs.length → IsWord (cs.extract start' stop') → start' = start ∧ stop' = stop
  keyword : t.kind.isWord = true → ∀ kind, kind.isKeyword = true →
    (t.kind = kind ↔ (Text.lowercase t.text, kind) ∈ TokenKind.keywords)

/-- Behind an offset, a text consists of tokens that stand at the given offsets, in order, of gaps
between them, and of the end of the query behind all of it. -/
inductive Tiles (cs : List Char) : Nat → List (Nat × Nat) → List Token → Prop where
  | stop {done : Nat} (h : IsLastGap (cs.drop done)) : Tiles cs done [] [⟨.eof, "", .behind cs⟩]
  | token {done start stop : Nat} {extents : List (Nat × Nat)} {t : Token} {ts : List Token}
      (hstart : done ≤ start) (hgap : IsGap (cs.extract done start)) (hstop : start < stop)
      (hend : stop ≤ cs.length) (ht : t.StandsAt cs start stop) (h : Tiles cs stop extents ts) :
      Tiles cs done ((start, stop) :: extents) (t :: ts)

/-- A part of a text with more around it. -/
lemma extract_around {front : List Char} {start : Nat} (h : start ≤ front.length)
    (cs rest : List Char) (after : Nat) :
    (front ++ (cs ++ rest)).extract start (front.length + cs.length + after) =
      front.drop start ++ (cs ++ rest.take after) := by
  rw [List.extract_eq_take_drop, List.drop_append_of_le_length h]
  have hlength : front.length + cs.length + after - start =
      (front.drop start).length + (cs.length + after) := by
    rw [List.length_drop]
    omega
  rw [hlength, List.take_length_add_append, List.take_length_add_append]

lemma extract_part (front cs rest : List Char) :
    (front ++ (cs ++ rest)).extract front.length (front.length + cs.length) = cs := by
  simp

namespace Lexer

variable {afterOperand : Bool} {front cs : List Char} {l : Lexeme}

lemma Lexes.writes (h : Lexes afterOperand cs l) : Writes l.kind l.source l.text := by
  cases h with
  | regex hafter h => exact .regex h
  | string hquote h => exact .string hquote h
  | @word c more rest hstart hmore hrest =>
    have hword : ∀ kind : TokenKind, kind.isWord = false → wordKind (c :: more) ≠ kind := by
      rintro kind hkind rfl
      rw [isWord_wordKind] at hkind
      cases hkind
    rw [kind_verbatim, source_verbatim, text_verbatim]
    refine .verbatim (hword .string ?_) (hword .regex ?_) <;> rfl
  | @negative rest | @number _ rest =>
    change Writes .number _ _
    exact .verbatim (by decide) (by decide)
  | _ => exact .verbatim nofun nofun

lemma Lexes.kind_ne_eof (h : Lexes afterOperand cs l) : l.kind ≠ .eof := by
  cases h with
  | @word c more =>
    intro heof
    have hword := isWord_wordKind (c :: more)
    rw [kind_verbatim] at heof
    rw [heof] at hword
    cases hword
  | @negative rest | @number _ rest =>
    change TokenKind.number ≠ .eof
    decide
  | _ => exact nofun

/-- The token of a lexeme stands where the lexeme was read. -/
lemma Lexes.standsAt (h : Lexes afterOperand cs l) (hsettled : Settled front cs) :
    Token.StandsAt ⟨l.kind, String.ofList l.text, .behind front⟩ (front ++ cs) front.length
      (front.length + l.source.length) := by
  have hpart : (front ++ cs).extract front.length (front.length + l.source.length) = l.source := by
    rw [← h.source_append, extract_part]
  constructor
  case position => rw [List.take_left]
  case writes =>
    rw [hpart, String.toList_ofList]
    exact h.writes
  case notEof => exact h.kind_ne_eof
  case isWord =>
    rw [hpart]
    exact h.isWord_iff
  case maximal =>
    intro hword start' stop' hstart hstop hend hisWord
    obtain ⟨after, rfl⟩ := Nat.exists_eq_add_of_le hstop
    rw [← h.source_append, extract_around hstart] at hisWord
    obtain ⟨hbefore, hafter⟩ :=
      hsettled.maximal h hword (List.drop_suffix start' front) hisWord
    rw [List.drop_eq_nil_iff] at hbefore
    have hlength := congrArg List.length hafter
    rw [List.length_append, ← h.source_append, List.length_append] at hend
    rw [List.length_take, List.length_nil] at hlength
    omega
  case keyword =>
    intro hword kind hkind
    rw [← wordKind_eq_iff hkind, (h.word_cases hword).1]

/-- What is left of a query behind its beginning is tiled by the tokens that are read there. -/
lemma Lexing.exists_tiles {previous : Option TokenKind} {position : Position} {ts : List Token}
    (h : Lexing previous position cs ts) (hposition : position = .behind front)
    (hsettled : Settled front cs) : ∃ extents, Tiles (front ++ cs) front.length extents ts := by
  induction h generalizing front with
  | @stop previous position gap h =>
    refine ⟨[], ?_⟩
    rw [hposition, Position.after_behind]
    refine .stop ?_
    rwa [List.drop_left]
  | @lexeme previous position gap cs l ts hgap hl h ih =>
    have hsettled' := hsettled.gap hgap
    have hbehind : position.after gap = .behind (front ++ gap) := by
      rw [hposition, Position.after_behind]
    have hmore : (position.after gap).after l.source = .behind (front ++ gap ++ l.source) := by
      rw [hbehind, Position.after_behind]
    obtain ⟨extents, htiles⟩ := ih hmore (hsettled'.lexeme hl)
    have ht := hl.standsAt hsettled'
    obtain ⟨c, more, hsource, -⟩ := hl.head
    rw [List.append_assoc (front ++ gap), hl.source_append, List.append_assoc front] at htiles
    rw [List.append_assoc front, ← hbehind] at ht
    rw [List.length_append] at htiles
    refine ⟨((front ++ gap).length, (front ++ gap).length + l.source.length) :: extents, ?_⟩
    refine .token ?_ ?_ ?_ ?_ ht htiles
    · simp
    · rw [List.length_append, extract_part]
      exact hgap
    · simp [hsource]
    · simp only [← hl.source_append, List.length_append]
      omega

end Lexer

/-- The tokens of a query tile it: there are offsets at which they stand, in order, with nothing
but blanks and comments around them. -/
theorem tokenize_tiles {query : String} {tokens : List Token}
    (h : tokenize query = .ok tokens) : ∃ extents, Tiles query.toList 0 extents tokens :=
  (tokensFrom_eq_ok.1 h).exists_tiles rfl (.nil _)

/-- Of a comment nothing is left but the line that it ends, and of an escaped quote its backslash is
counted. -/
theorem tokenize_tiles_comment_and_escape :
    let query := "where # now\n msg=\"a\\\"b\" "
    let tokens : List Token :=
      [⟨.command .where_, "where", ⟨1, 1⟩⟩, ⟨.identifier, "msg", ⟨2, 2⟩⟩,
        ⟨.symbol .eq, "=", ⟨2, 5⟩⟩, ⟨.string, "a\"b", ⟨2, 6⟩⟩, ⟨.eof, "", ⟨2, 13⟩⟩]
    tokenize query = .ok tokens ∧ ∃ extents, Tiles query.toList 0 extents tokens := by
  intro query tokens
  have h : tokenize query = .ok tokens := by decide +kernel
  exact ⟨h, tokenize_tiles h⟩

end LogQuery
