import LogQuery.Proofs.Number.Numeral
import LogQuery.Proofs.Token.Layout
import LogQuery.Syntax.Condition

/-!
# Texts and how they are spelled

What a token is apart from its place, its kind and its text, is its `spelling`. A text is spelled
by a row of these, behind a token of some kind and in front of another text, if it is lexed into
tokens with these spellings wherever it stands so (`Spells`). Texts are spelled piece by piece
(`Spells.append`), and each piece that is one token has a rule of its own: words, numerals, strings
with their quotes escaped, regular expressions between slashes, and symbols.

No two of the tokens that could be glued to each other touch (`Parted`), so in what is spelled a
value takes no more than its own token.
-/

namespace LogQuery

/-- What a token is apart from its place. -/
def Token.spelling (t : Token) : TokenKind × String := (t.kind, t.text)

@[simp] lemma Token.spelling_fst (t : Token) : t.spelling.1 = t.kind := rfl

@[simp] lemma Token.spelling_snd (t : Token) : t.spelling.2 = t.text := rfl

lemma Token.spelling_eq {t : Token} {kind : TokenKind} {text : String} :
    t.spelling = (kind, text) ↔ t.kind = kind ∧ t.text = text := Prod.ext_iff

lemma exists_of_spelling_enclosed {ts : List Token} {first last : TokenKind × String}
    {words : List (TokenKind × String)} (h : ts.map Token.spelling = first :: words ++ [last]) :
    ∃ opening inner closing, ts = opening :: (inner ++ [closing]) ∧ opening.spelling = first ∧
      inner.map Token.spelling = words ∧ closing.spelling = last := by
  rw [List.cons_append, List.map_eq_cons_iff] at h
  obtain ⟨opening, ts, rfl, hopening, h⟩ := h
  obtain ⟨inner, back, rfl, hinner, hback⟩ := List.map_eq_append_iff.1 h
  obtain ⟨closing, rfl, hclosing⟩ := List.map_eq_singleton_iff.1 hback
  exact ⟨opening, inner, closing, rfl, hopening, hinner, hclosing⟩

namespace Lexer

variable {previous : Option TokenKind} {position : Position} {cs cs' rest : List Char}
  {ts : List Token} {words words' : List (TokenKind × String)}

/-! ### What ends a text -/

/-- The characters that end any word and any number in front of them. -/
def stoppers : List Char := " ,()=!<>~".toList

/-- What ends any word and any number in front of it. -/
def EndsText (rest : List Char) : Prop := ∀ c ∈ rest.head?, c ∈ stoppers

lemma endsText_nil : EndsText [] := nofun

lemma endsText_cons {c : Char} (h : c ∈ stoppers) : EndsText (c :: rest) := by
  rintro c ⟨⟩
  exact h

lemma endsText_space : EndsText (' ' :: rest) := endsText_cons (by decide)

lemma EndsText.any_head? (h : EndsText rest) {p : Char → Bool} (hp : stoppers.any p = false) :
    rest.head?.any p = false := by
  cases rest with
  | nil => rfl
  | cons c rest => simpa using List.any_eq_false.1 hp c (h c rfl)

/-- No comparison could be glued. -/
lemma not_isGluable_of_comparison? {c : Char} {alone withEquals : Symbol}
    (h : comparison? c = some (alone, withEquals)) :
    Parser.isGluable (.symbol alone) = false ∧ Parser.isGluable (.symbol withEquals) = false := by
  unfold comparison? at h
  split at h <;> cases h <;> exact ⟨rfl, rfl⟩

/-- No lexeme that could be glued begins with a character that ends a text. -/
lemma Lexes.not_isGluable {afterOperand : Bool} {l : Lexeme} (h : Lexes afterOperand cs l)
    (hcs : EndsText cs) : Parser.isGluable l.kind = false := by
  have hsymbol : stoppers.all (fun c => (symbol? c).all fun s => !Parser.isGluable (.symbol s)) =
      true := by decide
  cases h with
  | @symbol c s _ h =>
    have hc := List.all_eq_true.1 hsymbol c (hcs c rfl)
    simpa [h] using hc
  | comparison h => exact (not_isGluable_of_comparison? h).1
  | comparisonEquals h => exact (not_isGluable_of_comparison? h).2
  | notEqual | slash | regex | string => rfl
  | minus | negative => exact absurd (hcs '-' rfl) (by decide)
  | @number c _ h =>
    have hc := hcs.any_head? (p := Char.isDigit) (by decide)
    rw [List.head?_cons, Option.any_some, h] at hc
    cases hc
  | @word c _ _ hstart =>
    have hc := hcs.any_head? (p := isWordStart) (by decide)
    rw [List.head?_cons, Option.any_some, hstart] at hc
    cases hc

/-! ### Gaps and tokens in front -/

lemma IsGap.append {gap gap' : List Char} (h : IsGap gap) (h' : IsGap gap') :
    IsGap (gap ++ gap') := by
  induction h with
  | nil => exact h'
  | blank hc _ ih => exact .blank hc ih
  | @comment text gap htext _ ih =>
    rw [List.cons_append, List.append_assoc, List.cons_append]
    exact .comment htext ih

lemma Lexing.gap {gap : List Char} (h : Lexing previous (position.after gap) cs ts)
    (hgap : IsGap gap) : Lexing previous position (gap ++ cs) ts := by
  have hafter : ∀ gap', (position.after gap).after gap' = position.after (gap ++ gap') :=
    fun gap' => (List.foldl_append).symm
  cases h with
  | stop hlast =>
    rw [hafter]
    refine .stop ?_
    cases hlast with
    | closed h => exact .closed (hgap.append h)
    | comment h htext =>
      rw [← List.append_assoc]
      exact .comment (hgap.append h) htext
  | lexeme hgap' hl h =>
    rw [← List.append_assoc, hafter]
    rw [hafter] at h
    exact .lexeme (hgap.append hgap') hl h

lemma Lexing.space (h : Lexing previous (position.next ' ') cs ts) :
    Lexing previous position (' ' :: cs) ts := by
  have hgap : IsGap [' '] := .blank (by decide) .nil
  exact h.gap hgap

/-- A lexeme without a gap in front. -/
lemma Lexing.token {l : Lexeme} (hl : Lexes (previous.any TokenKind.endsOperand) cs l)
    (h : Lexing (some l.kind) (position.after l.source) l.rest ts) :
    Lexing previous position cs (⟨l.kind, String.ofList l.text, position⟩ :: ts) :=
  .lexeme .nil hl h

/-! ### Rows of tokens that do not touch -/

/-- The second token is not glued to the first. -/
def Apart (t u : Token) : Prop :=
  Parser.isGluable t.kind = true → Parser.isGluable u.kind = true → u.position ≠ t.finish

/-- A text is lexed, and no two of its tokens in a row are glued. -/
structure Parted (previous : Option TokenKind) (position : Position) (cs : List Char)
    (ts : List Token) : Prop where
  lexing : Lexing previous position cs ts
  apart : ts.IsChain Apart

/-- Behind a text that is ended, no token touches it that could be glued to it. -/
lemma Lexing.position_ne (h : Lexing previous position rest ts) (hrest : EndsText rest) :
    ∀ t ∈ ts.head?, Parser.isGluable t.kind = true → t.position ≠ position := by
  cases h with
  | stop hgap =>
    rintro t ⟨⟩ hglue
    cases hglue
  | @lexeme _ _ gap cs l ts hgap hl h =>
    rintro t ⟨⟩ hglue
    by_cases hnil : gap = []
    · subst hnil
      have hkind := hl.not_isGluable hrest
      rw [hglue] at hkind
      cases hkind
    · exact (Position.before_after position hnil).ne'

lemma Parted.space (h : Parted previous (position.next ' ') cs ts) :
    Parted previous position (' ' :: cs) ts := ⟨h.lexing.space, h.apart⟩

/-- A lexeme in front, which ends where it stands if it could be glued. -/
lemma Parted.token {l : Lexeme} (hl : Lexes (previous.any TokenKind.endsOperand) cs l)
    (hends : Parser.isGluable l.kind = true → EndsText l.rest)
    (h : Parted (some l.kind) (position.after l.source) l.rest ts) :
    Parted previous position cs (⟨l.kind, String.ofList l.text, position⟩ :: ts) := by
  refine ⟨.token hl h.lexing, ?_⟩
  cases ts with
  | nil => exact .singleton _
  | cons u ts =>
    refine List.isChain_cons_cons.2 ⟨fun hglue hglue' => ?_, h.apart⟩
    rw [hl.finish hglue]
    exact h.lexing.position_ne (hends hglue) u rfl hglue'

/-! ### Spellings -/

/-- The kind of the token in front of what follows. -/
def lastKind (previous : Option TokenKind) (words : List (TokenKind × String)) :
    Option TokenKind := words.foldl (fun _ word => some word.1) previous

@[simp] lemma lastKind_nil : lastKind previous [] = previous := rfl

@[simp] lemma lastKind_cons (word : TokenKind × String) :
    lastKind previous (word :: words) = lastKind (some word.1) words := rfl

@[simp] lemma lastKind_append :
    lastKind previous (words ++ words') = lastKind (lastKind previous words) words' :=
  List.foldl_append

/-- Behind a token of some kind and in front of the rest, a text is spelled like this. -/
def Spells (previous : Option TokenKind) (cs : List Char) (words : List (TokenKind × String))
    (rest : List Char) : Prop :=
  ∀ ⦃position : Position⦄ ⦃ts : List Token⦄,
    Parted (lastKind previous words) (position.after cs) rest ts →
      ∃ front, front.map Token.spelling = words ∧
        Parted previous position (cs ++ rest) (front ++ ts)

lemma Spells.append (h : Spells previous cs words (cs' ++ rest))
    (h' : Spells (lastKind previous words) cs' words' rest) :
    Spells previous (cs ++ cs') (words ++ words') rest := by
  intro position ts hts
  have hafter : position.after (cs ++ cs') = (position.after cs).after cs' := List.foldl_append
  rw [lastKind_append, hafter] at hts
  obtain ⟨back, rfl, hback⟩ := h' hts
  obtain ⟨front, rfl, hfront⟩ := h hback
  refine ⟨front ++ back, List.map_append, ?_⟩
  simpa using hfront

lemma spells_space : Spells previous [' '] [] rest := by
  intro position ts hts
  exact ⟨[], rfl, hts.space⟩

/-- A lexeme is one token. -/
lemma Lexes.spells {l : Lexeme} (h : Lexes (previous.any TokenKind.endsOperand) cs l)
    (hends : Parser.isGluable l.kind = true → EndsText l.rest) :
    Spells previous l.source [(l.kind, String.ofList l.text)] l.rest := by
  intro position ts hts
  refine ⟨[⟨l.kind, String.ofList l.text, position⟩], rfl, ?_⟩
  rw [h.source_append]
  exact .token h hends hts

/-- A text is spelled as a whole if it is spelled in front of its end. -/
lemma Spells.exists_tokens (h : Spells previous cs words []) (position : Position) :
    ∃ front stop, Parted previous position cs (front ++ [stop]) ∧
      front.map Token.spelling = words := by
  have hend : Parted (lastKind previous words) (position.after cs) [] [_] :=
    ⟨.stop (.closed .nil), .singleton _⟩
  obtain ⟨front, hfront, hparted⟩ := h hend
  rw [List.append_nil] at hparted
  exact ⟨front, _, hparted, hfront⟩

/-- Items with a separator between them are spelled if each of them is, behind whatever the
separator ends with. -/
lemma Spells.intercalate {α : Type} {text : α → List Char}
    {spelling : α → List (TokenKind × String)} (good : Option TokenKind → Prop)
    {sep : List Char} {between : List (TokenKind × String)}
    (hsep : ∀ previous rest, Spells previous sep between rest)
    (hends : ∀ rest, EndsText (sep ++ rest))
    (hgood : ∀ previous, good (lastKind previous between)) {items : List α}
    (hitems : ∀ a ∈ items, ∀ previous rest, good previous → EndsText rest →
      Spells previous (text a) (spelling a) rest)
    (hprevious : good previous) (hrest : EndsText rest) :
    Spells previous (sep.intercalate (items.map text)) (between.intercalate (items.map spelling))
      rest := by
  induction items generalizing previous with
  | nil =>
    intro position ts hts
    exact ⟨[], rfl, hts⟩
  | cons a items ih =>
    cases items with
    | nil => simpa using hitems a (by simp) previous rest hprevious hrest
    | cons b items =>
      have ha := hitems a (by simp) previous
        (sep ++ (sep.intercalate ((b :: items).map text) ++ rest)) hprevious (hends _)
      have hmore : Spells (lastKind previous (spelling a ++ between))
          (sep.intercalate ((b :: items).map text))
          (between.intercalate ((b :: items).map spelling)) rest := by
        refine ih (fun c hc => hitems c (by simp [hc])) ?_
        rw [lastKind_append]
        exact hgood _
      have hrow := (ha.append (hsep _ _)).append hmore
      simpa using hrow

/-! ### Single tokens -/

lemma spells_symbol {c : Char} {symbol : Symbol} (h : symbol? c = some symbol)
    (hends : Parser.isGluable (.symbol symbol) = true → EndsText rest) :
    Spells previous [c] [(.symbol symbol, String.ofList [c])] rest :=
  (Lexes.symbol h).spells hends

lemma spells_comparison {c : Char} {alone withEquals : Symbol}
    (h : comparison? c = some (alone, withEquals)) (hrest : rest.head?.any (· = '=') = false) :
    Spells previous [c] [(.symbol alone, String.ofList [c])] rest := by
  refine (Lexes.comparison h hrest).spells fun hglue => ?_
  exact (Bool.eq_false_iff.1 (not_isGluable_of_comparison? h).1 hglue).elim

lemma spells_comparisonEquals {c : Char} {alone withEquals : Symbol}
    (h : comparison? c = some (alone, withEquals)) :
    Spells previous [c, '='] [(.symbol withEquals, String.ofList [c, '='])] rest := by
  refine (Lexes.comparisonEquals h).spells fun hglue => ?_
  exact (Bool.eq_false_iff.1 (not_isGluable_of_comparison? h).2 hglue).elim

lemma spells_notEqual : Spells previous ['!', '='] [(.symbol .notEq, "!=")] rest :=
  Lexes.notEqual.spells nofun

lemma spells_open : Spells previous ['('] [(.symbol .lParen, "(")] rest := spells_symbol rfl nofun

lemma spells_close : Spells previous [')'] [(.symbol .rParen, ")")] rest := spells_symbol rfl nofun

lemma spells_comma : Spells previous [',', ' '] [(.symbol .comma, ",")] rest := by
  have hcomma : Spells previous [','] [(.symbol .comma, ",")] ([' '] ++ rest) :=
    spells_symbol rfl nofun
  exact hcomma.append spells_space

lemma spells_word {word : String} (h : IsWord word.toList) (hrest : EndsText rest) :
    Spells previous word.toList [(wordKind word.toList, word)] rest := by
  have hl : Lexes (previous.any TokenKind.endsOperand) (word.toList ++ rest) _ :=
    h.lexes (hrest.any_head? (by decide))
  have hspells := hl.spells fun _ => hrest
  rwa [kind_verbatim, text_verbatim, source_verbatim, rest_verbatim, String.ofList_toList]
    at hspells

/-! #### Numbers -/

lemma splitNumber_digits {digits : List Char} (h : ∀ c ∈ digits, c.isDigit = true)
    (rest : List Char) :
    splitNumber (digits ++ rest) = (digits ++ (splitNumber rest).1, (splitNumber rest).2) := by
  induction digits with
  | nil => rfl
  | cons c digits ih =>
    have hc : c.isDigit = true := h c (by simp)
    simp [splitNumber, hc, ih fun x hx => h x (by simp [hx])]

/-- A number takes all of a numeral, and nothing behind it. -/
lemma splitNumber_numeral {numeral : List Char} (h : IsNumeral numeral) (hrest : EndsText rest) :
    splitNumber (numeral ++ rest) = (numeral, rest) := by
  have hend : splitNumber rest = ([], rest) := by
    have hall : stoppers.all (fun c => !c.isDigit && c != '.') = true := by decide
    exact splitNumber_eq_nil fun c hc => by simpa using List.all_eq_true.1 hall c (hrest c hc)
  cases h with
  | whole hne h => rw [splitNumber_digits h, hend, List.append_nil]
  | @fraction digits more hne h hne' h' =>
    obtain ⟨d, more, rfl⟩ := List.exists_cons_of_ne_nil hne'
    have hd : d.isDigit = true := h' d (by simp)
    have hpoint : splitNumber ('.' :: ((d :: more) ++ rest)) = ('.' :: d :: more, rest) := by
      rw [splitNumber, splitNumber_digits h', hend]
      simp [hd]
    rw [List.append_assoc, List.cons_append, splitNumber_digits h, hpoint]

lemma spells_numeral {text : String} (h : IsNumeral text.toList) (hrest : EndsText rest) :
    Spells previous text.toList [(.number, text)] rest := by
  obtain ⟨c, more, htext, hc⟩ := h.head
  have hsplit := splitNumber_numeral h hrest
  have hmore : splitNumber (more ++ rest) = (more, rest) := by
    rw [htext, List.cons_append, splitNumber, hc, Bool.true_or, if_pos rfl] at hsplit
    simpa [Prod.ext_iff] using hsplit
  have hl : Lexes (previous.any TokenKind.endsOperand) (c :: (more ++ rest)) _ := .number hc
  rw [numberFrom, hmore] at hl
  have hspells := hl.spells fun _ => hrest
  rwa [kind_verbatim, text_verbatim, source_verbatim, rest_verbatim, ← htext,
    String.ofList_toList] at hspells

lemma spells_negative {text : String} {numeral : List Char} (h : IsNumeral numeral)
    (htext : text.toList = '-' :: numeral)
    (hprevious : previous.any TokenKind.endsOperand = false) (hrest : EndsText rest) :
    Spells previous text.toList [(.number, text)] rest := by
  have hstart : startsDigit (numeral ++ rest) = true := by
    obtain ⟨c, more, rfl, hc⟩ := h.head
    simp [startsDigit, hc]
  have hl := Lexes.negative hstart hprevious
  rw [numberFrom, splitNumber_numeral h hrest] at hl
  have hspells := hl.spells fun _ => hrest
  rwa [kind_verbatim, text_verbatim, source_verbatim, rest_verbatim, ← htext,
    String.ofList_toList] at hspells

/-- A number is one token where a minus may belong to it. -/
lemma spells_plain {x : Binary64} (h : x.isFinite = true)
    (hprevious : previous.any TokenKind.endsOperand = false) (hrest : EndsText rest) :
    Spells previous x.plain.toList [(.number, x.plain)] rest := by
  obtain ⟨numeral, hnumeral, heq | heq⟩ := Binary64.plain_toList_cases h
  · rw [← heq] at hnumeral
    exact spells_numeral hnumeral hrest
  · exact spells_negative hnumeral heq hprevious hrest

/-! #### Strings and regular expressions -/

/-- A backslash in front of every quote is what the reader of strings takes away. -/
lemma unescapes_escape {text : List Char} (h : text.getLast? ≠ some '\\') :
    Unescapes '"' (text.flatMap fun c => if c = '"' then ['\\', '"'] else [c]) text := by
  induction text with
  | nil => exact .nil
  | cons c text ih =>
    have htext : text.getLast? ≠ some '\\' := by
      intro hlast
      apply h
      rw [List.getLast?_cons, hlast]
      rfl
    rw [List.flatMap_cons]
    by_cases hc : c = '"'
    · rw [if_pos hc, hc]
      exact .escaped (ih htext)
    · rw [if_neg hc]
      refine .plain hc (fun hbackslash => ?_) (ih htext)
      cases text with
      | nil =>
        rw [hbackslash] at h
        exact absurd rfl h
      | cons d text =>
        rw [List.flatMap_cons]
        by_cases hd : d = '"'
        · rw [if_pos hd]
          simp
        · rw [if_neg hd]
          simpa using hd

lemma spells_quote {s : String} (h : s.toList.getLast? ≠ some '\\') :
    Spells previous (Value.quote s).toList [(.string, s)] rest := by
  have hquote : (Value.quote s).toList =
      '"' :: ((s.toList.flatMap fun c => if c = '"' then ['\\', '"'] else [c]) ++ ['"']) := by
    simp [Value.quote]
  have hl : Lexes (previous.any TokenKind.endsOperand) _ ⟨_, _, _, rest⟩ :=
    .string (.inl rfl) (unescapes_escape h)
  rw [hquote]
  have hspells := hl.spells nofun
  rwa [String.ofList_toList] at hspells

lemma spells_regex {pattern : String} (h : IsPattern pattern.toList)
    (hprevious : previous.any TokenKind.endsOperand = false) :
    Spells previous ("/" ++ pattern ++ "/").toList [(.regex, pattern)] rest := by
  have htext : ("/" ++ pattern ++ "/").toList = '/' :: (pattern.toList ++ ['/']) := by simp
  have hl : Lexes (previous.any TokenKind.endsOperand) _ ⟨_, _, _, rest⟩ := .regex hprevious h
  rw [htext]
  have hspells := hl.spells nofun
  rwa [String.ofList_toList] at hspells

end Lexer

end LogQuery
