import LogQuery.Proofs.Token.Literal
import Mathlib.Data.List.Basic

/-!
# The lexemes of a text

`Lexes` says by one rule for each kind of lexeme how a text begins with it. The reader takes just
these lexemes (`lexeme_eq_ok`).

Behind a lexeme the text may be replaced by any other that begins alike, or begins with a gap where
the first one does (`Lexes.behind`): no word, no number and no comparison goes on with a gap.
-/

namespace LogQuery.Lexer

/-! ### Lexemes -/

section Verbatim

variable (kind : TokenKind) (source rest : List Char)

@[simp] lemma kind_verbatim : (verbatim kind source rest).kind = kind := rfl

@[simp] lemma text_verbatim : (verbatim kind source rest).text = source := rfl

@[simp] lemma source_verbatim : (verbatim kind source rest).source = source := rfl

@[simp] lemma rest_verbatim : (verbatim kind source rest).rest = rest := rfl

lemma verbatim_withRest (rest' : List Char) :
    { verbatim kind source rest with rest := rest' } = verbatim kind source rest' := rfl

end Verbatim

def wordKind (word : List Char) : TokenKind :=
  (TokenKind.ofKeyword? (String.ofList word)).getD .identifier

/-- A text begins with a lexeme, given whether the token before it ends an operand. -/
inductive Lexes (afterOperand : Bool) : List Char → Lexeme → Prop where
  | symbol {c : Char} {s : Symbol} {rest : List Char} (h : symbol? c = some s) :
      Lexes afterOperand (c :: rest) (verbatim (.symbol s) [c] rest)
  | comparison {c : Char} {alone withEquals : Symbol} {rest : List Char}
      (h : comparison? c = some (alone, withEquals)) (hrest : rest.head?.any (· = '=') = false) :
      Lexes afterOperand (c :: rest) (verbatim (.symbol alone) [c] rest)
  | comparisonEquals {c : Char} {alone withEquals : Symbol} {rest : List Char}
      (h : comparison? c = some (alone, withEquals)) :
      Lexes afterOperand (c :: '=' :: rest) (verbatim (.symbol withEquals) [c, '='] rest)
  | notEqual {rest : List Char} :
      Lexes afterOperand ('!' :: '=' :: rest) (verbatim (.symbol .notEq) ['!', '='] rest)
  | minus {rest : List Char} (h : startsDigit rest = true → afterOperand = true) :
      Lexes afterOperand ('-' :: rest) (verbatim (.symbol .minus) ['-'] rest)
  | negative {rest : List Char} (h : startsDigit rest = true) (hafter : afterOperand = false) :
      Lexes afterOperand ('-' :: rest) (numberFrom '-' rest)
  | number {c : Char} {rest : List Char} (h : c.isDigit = true) :
      Lexes afterOperand (c :: rest) (numberFrom c rest)
  | slash {rest : List Char} (hafter : afterOperand = true) :
      Lexes afterOperand ('/' :: rest) (verbatim (.symbol .slash) ['/'] rest)
  | regex {pattern rest : List Char} (hafter : afterOperand = false) (h : IsPattern pattern) :
      Lexes afterOperand ('/' :: (pattern ++ '/' :: rest))
        ⟨.regex, pattern, '/' :: (pattern ++ ['/']), rest⟩
  | string {quote : Char} {body text rest : List Char} (hquote : quote = '"' ∨ quote = '\'')
      (h : Unescapes quote body text) :
      Lexes afterOperand (quote :: (body ++ quote :: rest))
        ⟨.string, text, quote :: (body ++ [quote]), rest⟩
  | word {c : Char} {more rest : List Char} (hstart : isWordStart c = true)
      (hmore : ∀ x ∈ more, isWordChar x = true) (hrest : rest.head?.any isWordChar = false) :
      Lexes afterOperand (c :: (more ++ rest))
        (verbatim (wordKind (c :: more)) (c :: more) rest)

variable {afterOperand : Bool} {c : Char} {cs rest : List Char} {l : Lexeme}

lemma splitEquals_eq_some {cs' : List Char} : splitEquals cs = some cs' ↔ cs = '=' :: cs' := by
  unfold splitEquals
  split
  · simp
  · next h =>
    simp only [reduceCtorEq, false_iff]
    rintro rfl
    exact h cs' rfl

lemma splitEquals_eq_none : splitEquals cs = none ↔ cs.head?.any (· = '=') = false := by
  unfold splitEquals
  split
  · simp
  · next h =>
    cases cs with
    | nil => simp
    | cons c rest =>
      have hc : c ≠ '=' := by
        rintro rfl
        exact h rest rfl
      simp [hc]

lemma any_head?_dropWhile (p : Char → Bool) (cs : List Char) :
    (cs.dropWhile p).head?.any p = false := by
  have h := List.head?_dropWhile_not p cs
  cases hdrop : (cs.dropWhile p).head? with
  | none => rfl
  | some c =>
    rw [hdrop] at h
    simpa using h

lemma lexes_wordFrom (hstart : isWordStart c = true) (rest : List Char) :
    Lexes afterOperand (c :: rest) (wordFrom c rest) := by
  have htake : ∀ x ∈ rest.takeWhile isWordChar, isWordChar x = true :=
    List.all_eq_true.1 List.all_takeWhile
  have hlexes : Lexes afterOperand
      (c :: (rest.takeWhile isWordChar ++ rest.dropWhile isWordChar)) (wordFrom c rest) :=
    .word hstart htake (any_head?_dropWhile isWordChar rest)
  rwa [List.takeWhile_append_dropWhile] at hlexes

lemma lexes_of_lexeme (h : lexeme afterOperand c rest = .ok l) :
    Lexes afterOperand (c :: rest) l := by
  unfold lexeme at h
  split at h
  · cases h
    exact .symbol ‹_›
  split at h
  · split at h
    · cases h
      rename_i hrest
      rw [splitEquals_eq_some.1 hrest]
      exact .comparisonEquals ‹_›
    · cases h
      exact .comparison ‹_› (splitEquals_eq_none.1 ‹_›)
  split at h
  · subst c
    split at h
    · cases h
      rename_i hrest
      rw [splitEquals_eq_some.1 hrest]
      exact .notEqual
    · cases h
  split at h
  · subst c
    split_ifs at h with hdigit
    · cases h
      rw [Bool.and_eq_true, Bool.not_eq_true'] at hdigit
      exact .negative hdigit.1 hdigit.2
    · cases h
      refine .minus fun hstarts => ?_
      simpa [hstarts] using hdigit
  split at h
  · subst c
    split_ifs at h with hafter
    · cases h
      exact .slash hafter
    · split at h
      · next q hq =>
        cases h
        obtain ⟨hpattern, hsource, hrest⟩ := isPattern_of_splitRegex hq
        rw [hsource, hrest]
        exact .regex (by simpa using hafter) hpattern
      · cases h
  split at h
  · next hquote =>
    split at h
    · next q hq =>
      cases h
      obtain ⟨body, hbody, hsource, hrest⟩ := unescapes_of_splitString hq
      rw [hsource, hrest]
      exact .string hquote hbody
    · cases h
  split_ifs at h with hdigit hstart
  · cases h
    exact .number hdigit
  · cases h
    exact lexes_wordFrom hstart rest

/-- A character that is no mark begins a number or a word, or nothing. -/
lemma lexeme_of_not_mem (h : c ∉ marks) (rest : List Char) :
    lexeme afterOperand c rest =
      if c.isDigit then .ok (numberFrom c rest)
      else if isWordStart c then .ok (wordFrom c rest)
      else .error (.unexpected c) := by
  have hne : ∀ mark ∈ marks, c ≠ mark := by
    rintro mark hmark rfl
    exact h hmark
  rw [lexeme, symbol?_of_not_mem h, comparison?_of_not_mem h]
  simp [hne '!' (by decide), hne '-' (by decide), hne '/' (by decide), hne '"' (by decide),
    hne '\'' (by decide)]

lemma wordFrom_append {more : List Char} (hmore : ∀ x ∈ more, isWordChar x = true)
    (hrest : rest.head?.any isWordChar = false) :
    wordFrom c (more ++ rest) = verbatim (wordKind (c :: more)) (c :: more) rest := by
  have htake : rest.takeWhile isWordChar = [] := by
    cases rest with
    | nil => rfl
    | cons x rest =>
      have hx : isWordChar x = false := by simpa using hrest
      simp [hx]
  have hdrop : rest.dropWhile isWordChar = rest := by
    simpa [htake] using List.takeWhile_append_dropWhile (p := isWordChar) (l := rest)
  rw [wordFrom, List.takeWhile_append_of_pos hmore, List.dropWhile_append_of_pos hmore, htake,
    hdrop, List.append_nil]
  rfl

/-- What is a lexeme by the rules is taken by the reader: no two rules compete. -/
lemma lexeme_of_lexes (h : Lexes afterOperand (c :: rest) l) :
    lexeme afterOperand c rest = .ok l := by
  generalize hcs : c :: rest = cs at h
  cases h with
  | symbol hsymbol =>
    cases hcs
    simp [lexeme, hsymbol]
  | comparison h hrest =>
    cases hcs
    have hsymbol : symbol? c = none := symbol?_of_comparison? h
    simp [lexeme, hsymbol, h, splitEquals_eq_none.2 hrest]
  | comparisonEquals h =>
    cases hcs
    have hsymbol : symbol? c = none := symbol?_of_comparison? h
    simp [lexeme, hsymbol, h, splitEquals]
  | notEqual =>
    cases hcs
    simp [lexeme, symbol?, comparison?, splitEquals]
  | minus h =>
    cases hcs
    have hdigit : (startsDigit rest && !afterOperand) = false := by
      cases hstarts : startsDigit rest with
      | false => rfl
      | true => simp [h hstarts]
    simp [lexeme, symbol?, comparison?, hdigit]
  | negative h hafter =>
    cases hcs
    simp [lexeme, symbol?, comparison?, h, hafter]
  | number h =>
    cases hcs
    rw [lexeme_of_not_mem (not_mem_marks_of_isDigit h), if_pos h]
  | slash hafter =>
    cases hcs
    simp [lexeme, symbol?, comparison?, hafter]
  | regex hafter h =>
    cases hcs
    simp [lexeme, symbol?, comparison?, hafter, h.splitRegex]
  | string hquote h =>
    cases hcs
    rcases hquote with rfl | rfl <;>
      simp [lexeme, symbol?, comparison?, h.splitString (by decide)]
  | word hstart hmore hrest =>
    cases hcs
    rw [lexeme_of_not_mem (not_mem_marks_of_isWordStart hstart),
      not_isDigit_of_isWordStart hstart, if_neg (by simp), if_pos hstart,
      wordFrom_append hmore hrest]

/-- The reader takes the lexemes that the rules say. -/
theorem lexeme_eq_ok : lexeme afterOperand c rest = .ok l ↔ Lexes afterOperand (c :: rest) l :=
  ⟨lexes_of_lexeme, lexeme_of_lexes⟩

/-! ### What a lexeme begins with and what follows it -/

namespace Lexes

lemma source_append (h : Lexes afterOperand cs l) : l.source ++ l.rest = cs := by
  cases h with
  | negative | number => simp [numberFrom, verbatim, splitNumber_append]
  | _ => simp [verbatim]

/-- Neither a gap nor a point stands where a lexeme begins. -/
lemma head (h : Lexes afterOperand cs l) :
    ∃ c more, l.source = c :: more ∧ opensGap c = false ∧ c ≠ '.' := by
  have hmark : ∀ c ∈ marks, opensGap c = false ∧ c ≠ '.' := by
    intro c hc
    refine ⟨not_opensGap_of_mem_marks hc, ?_⟩
    rintro rfl
    exact absurd hc (by decide)
  have hpoint : ∀ p : Char → Bool, p '.' = false → ∀ c, p c = true → c ≠ '.' := by
    rintro p hp c hc rfl
    rw [hp] at hc
    cases hc
  cases h with
  | @symbol c s rest h => exact ⟨c, _, rfl, hmark c (mem_marks_of_symbol? h)⟩
  | @comparison c _ _ rest h | @comparisonEquals c _ _ rest h =>
    exact ⟨c, _, rfl, hmark c (mem_marks_of_comparison? h)⟩
  | notEqual => exact ⟨'!', _, rfl, hmark '!' (by decide)⟩
  | minus h => exact ⟨'-', _, rfl, hmark '-' (by decide)⟩
  | negative h hafter => exact ⟨'-', _, rfl, hmark '-' (by decide)⟩
  | @number c rest h =>
    exact ⟨c, _, rfl, not_opensGap_of_isDigit c h, hpoint Char.isDigit (by decide) c h⟩
  | slash hafter => exact ⟨'/', _, rfl, hmark '/' (by decide)⟩
  | regex hafter h => exact ⟨'/', _, rfl, hmark '/' (by decide)⟩
  | @string quote body text rest hquote h =>
    refine ⟨quote, _, rfl, hmark quote ?_⟩
    rcases hquote with rfl | rfl <;> decide
  | @word c more rest hstart hmore hrest =>
    exact ⟨c, _, rfl, not_opensGap_of_isWordChar (isWordChar_of_isWordStart hstart),
      hpoint isWordStart (by decide) c hstart⟩

/-- No lexeme but a string or a regular expression has blanks in it. -/
lemma not_opensGap (h : Lexes afterOperand cs l) (hstring : l.kind ≠ .string)
    (hregex : l.kind ≠ .regex) : ∀ c ∈ l.source, opensGap c = false := by
  have hmarks : ∀ cs : List Char, (∀ c ∈ cs, c ∈ marks) → ∀ c ∈ cs, opensGap c = false :=
    fun cs hcs c hc => not_opensGap_of_mem_marks (hcs c hc)
  have hnumber : ∀ {c : Char} {rest : List Char}, opensGap c = false →
      ∀ x ∈ (numberFrom c rest).source, opensGap x = false := by
    intro c rest hc x hx
    rcases List.mem_cons.1 hx with rfl | hx
    · exact hc
    · rcases mem_splitNumber hx with hdigit | rfl
      · exact not_opensGap_of_isDigit x hdigit
      · decide
  cases h with
  | symbol h => exact hmarks _ (by simpa [verbatim] using mem_marks_of_symbol? h)
  | comparison h => exact hmarks _ (by simpa [verbatim] using mem_marks_of_comparison? h)
  | comparisonEquals h =>
    have hequals : '=' ∈ marks := by decide
    exact hmarks _ (by simpa [verbatim, hequals] using mem_marks_of_comparison? h)
  | notEqual =>
    intro x hx
    rcases List.mem_pair.1 hx with rfl | rfl <;> decide
  | minus | slash =>
    intro x hx
    rw [List.mem_singleton.1 hx]
    decide
  | negative => exact hnumber (by decide)
  | number h => exact hnumber (not_opensGap_of_isDigit _ h)
  | regex => exact absurd rfl hregex
  | string => exact absurd rfl hstring
  | word hstart hmore hrest =>
    intro x hx
    rcases List.mem_cons.1 hx with rfl | hx
    · exact not_opensGap_of_isWordChar (isWordChar_of_isWordStart hstart)
    · exact not_opensGap_of_isWordChar (hmore x hx)

/-- Behind a lexeme, the text may be replaced by another one that goes on alike. -/
lemma behind (h : Lexes afterOperand cs l) {rest' : List Char}
    (hahead : ahead rest' = ahead l.rest) (hpoint : ahead rest' ≠ some '.') :
    Lexes afterOperand (l.source ++ rest') { l with rest := rest' } := by
  have hnumber : ∀ (c : Char) (rest : List Char), ahead rest' = ahead (splitNumber rest).2 →
      numberFrom c ((splitNumber rest).1 ++ rest') =
        { numberFrom c rest with rest := rest' } := by
    intro c rest hahead
    rw [numberFrom, splitNumber_behind rest hahead hpoint]
    rfl
  have hdigit : ∀ rest : List Char, ahead rest' = ahead rest →
      startsDigit rest' = startsDigit rest := by
    intro rest hahead
    exact any_head?_congr not_opensGap_of_isDigit hahead
  cases h with
  | symbol h => exact .symbol h
  | comparison h hrest =>
    exact .comparison h ((any_head?_congr not_opensGap_of_equals hahead).trans hrest)
  | comparisonEquals h => exact .comparisonEquals h
  | notEqual => exact .notEqual
  | minus h =>
    refine .minus fun hstarts => h ?_
    exact (hdigit _ hahead).symm.trans hstarts
  | @negative rest h hafter =>
    rw [← hnumber '-' rest hahead]
    exact .negative ((any_head?_splitNumber not_opensGap_of_isDigit rest hahead).trans h) hafter
  | @number c rest h =>
    rw [← hnumber c rest hahead]
    exact .number h
  | slash hafter => exact .slash hafter
  | @regex pattern rest hafter h =>
    have hregex : Lexes afterOperand ('/' :: (pattern ++ '/' :: rest'))
        ⟨.regex, pattern, '/' :: (pattern ++ ['/']), rest'⟩ := .regex hafter h
    simpa using hregex
  | @string quote body text rest hquote h =>
    have hstring : Lexes afterOperand (quote :: (body ++ quote :: rest'))
        ⟨.string, text, quote :: (body ++ [quote]), rest'⟩ := .string hquote h
    simpa using hstring
  | @word c more rest hstart hmore hrest =>
    rw [verbatim_withRest, source_verbatim, List.cons_append]
    rw [rest_verbatim] at hahead
    refine .word hstart hmore ?_
    exact (any_head?_congr (fun _ => not_opensGap_of_isWordChar) hahead).trans hrest

end Lexes

end LogQuery.Lexer
