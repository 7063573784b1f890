import LogQuery.Proofs.Token.Lexing
import Mathlib.Data.List.Nodup

namespace LogQuery.Lexer

/-- A word is nothing but characters of words, and begins with one that may begin a word. -/
structure IsWord (cs : List Char) : Prop where
  start : cs.head?.any isWordStart = true
  inside : ∀ c ∈ cs, isWordChar c = true

variable {afterOperand : Bool} {l : Lexeme} {cs front rest word : List Char}

lemma IsWord.ne_nil (h : IsWord word) : word ≠ [] := by
  rintro rfl
  cases h.start

/-- A text is checked character by character to be a word. -/
lemma isWord_of_all (hstart : word.head?.any isWordStart = true)
    (hinside : word.all isWordChar = true) : IsWord word :=
  ⟨hstart, List.all_eq_true.1 hinside⟩

lemma IsWord.lexes (h : IsWord word) (hrest : rest.head?.any isWordChar = false) :
    Lexes afterOperand (word ++ rest) (verbatim (wordKind word) word rest) := by
  obtain ⟨c, more, rfl⟩ := List.exists_cons_of_ne_nil h.ne_nil
  have hstart : isWordStart c = true := by simpa using h.start
  exact .word hstart (fun x hx => h.inside x (by simp [hx])) hrest

/-- A word may be cut off behind any of its characters. -/
lemma IsWord.of_append {more : List Char} (h : IsWord (word ++ more)) (hne : word ≠ []) :
    IsWord word := by
  constructor
  · have hstart := h.start
    rwa [List.head?_append_of_ne_nil _ hne] at hstart
  · intro c hc
    exact h.inside c (List.mem_append_left _ hc)

lemma not_isWord_of_head {c : Char} (hc : isWordStart c = false) (more : List Char) :
    ¬ IsWord (c :: more) := by
  intro h
  have hstart : isWordStart c = true := by simpa using h.start
  rw [hc] at hstart
  cases hstart

lemma not_isWordStart_of_mem_marks {c : Char} (h : c ∈ marks) : isWordStart c = false := by
  by_contra hstart
  exact not_mem_marks_of_isWordStart (by simpa using hstart) h

lemma not_isWordStart_of_isDigit {c : Char} (h : c.isDigit = true) : isWordStart c = false := by
  by_contra hstart
  rw [not_isDigit_of_isWordStart (by simpa using hstart)] at h
  cases h

lemma not_isWordChar_of_isGap {gap : List Char} (h : IsGap gap) :
    ∀ c ∈ gap.getLast?, isWordChar c = false := by
  have hblank : ∀ c, Text.isBlank c = true → isWordChar c = false := by
    intro c hc
    by_contra hword
    have hgap := not_opensGap_of_isWordChar (by simpa using hword)
    rw [opensGap, hc] at hgap
    cases hgap
  induction h with
  | nil => simp
  | @blank c gap hc h ih =>
    intro d hd
    cases hlast : gap.getLast? with
    | none =>
      rw [List.getLast?_cons, hlast] at hd
      cases hd
      exact hblank c hc
    | some e =>
      rw [List.getLast?_cons, hlast] at hd
      cases hd
      exact ih e hlast
  | @comment text gap htext h ih =>
    intro d hd
    rw [← List.cons_append, List.getLast?_append, List.getLast?_cons] at hd
    cases hlast : gap.getLast? with
    | none =>
      rw [hlast] at hd
      cases hd
      decide
    | some e =>
      rw [hlast] at hd
      cases hd
      exact ih e hlast

/-! ### Keywords -/

/-- No word is twice in the table, so the first entry for a word is the only one. -/
lemma ofKeyword?_eq_some {word : String} {kind : TokenKind} :
    TokenKind.ofKeyword? word = some kind ↔ (Text.lowercase word, kind) ∈ TokenKind.keywords := by
  have hnodup : (TokenKind.keywords.map Prod.fst).Nodup := by decide
  rw [TokenKind.ofKeyword?, Option.map_eq_some_iff]
  constructor
  · rintro ⟨entry, hfind, rfl⟩
    have heq : entry.1 = Text.lowercase word := by simpa using List.find?_some hfind
    rw [← heq]
    exact List.mem_of_find?_eq_some hfind
  · intro hmem
    cases hfind : TokenKind.keywords.find? (·.1 == Text.lowercase word) with
    | none => exact absurd (List.find?_eq_none.1 hfind _ hmem) (by simp)
    | some entry =>
      have heq : entry.1 = Text.lowercase word := by simpa using List.find?_some hfind
      have hentry := List.mem_of_find?_eq_some hfind
      rw [List.inj_on_of_nodup_map hnodup hentry hmem heq]
      exact ⟨_, rfl, rfl⟩

lemma isWord_wordKind (word : List Char) : (wordKind word).isWord = true := by
  rw [wordKind]
  cases hkind : TokenKind.ofKeyword? (String.ofList word) with
  | none => rfl
  | some kind =>
    have hall : ∀ entry ∈ TokenKind.keywords, entry.2.isWord = true := by decide
    exact hall _ (ofKeyword?_eq_some.1 hkind)

/-- A word is the keyword that the table has for all of it, in lower case. -/
lemma wordKind_eq_iff {kind : TokenKind} (hkind : kind.isKeyword = true) (word : List Char) :
    wordKind word = kind ↔
      (Text.lowercase (String.ofList word), kind) ∈ TokenKind.keywords := by
  rw [wordKind, ← ofKeyword?_eq_some]
  cases TokenKind.ofKeyword? (String.ofList word) with
  | none =>
    rw [Option.getD_none]
    refine iff_of_false ?_ nofun
    rintro rfl
    cases hkind
  | some found => rw [Option.getD_some, Option.some.injEq]

/-! ### Words among the lexemes -/

lemma Lexes.isWord_iff (h : Lexes afterOperand cs l) :
    l.kind.isWord = true ↔ IsWord l.source := by
  have hnot : ∀ {kind : TokenKind} {c : Char} {more : List Char}, kind.isWord = false →
      isWordStart c = false → (kind.isWord = true ↔ IsWord (c :: more)) := by
    intro kind c more hkind hc
    rw [hkind]
    exact iff_of_false nofun (not_isWord_of_head hc more)
  cases h with
  | symbol h => exact hnot rfl (not_isWordStart_of_mem_marks (mem_marks_of_symbol? h))
  | comparison h | comparisonEquals h =>
    exact hnot rfl (not_isWordStart_of_mem_marks (mem_marks_of_comparison? h))
  | notEqual | minus | negative | slash | regex => exact hnot rfl (by decide)
  | number h => exact hnot rfl (not_isWordStart_of_isDigit h)
  | string hquote h => exact hnot rfl (by rcases hquote with rfl | rfl <;> decide)
  | @word c more rest hstart hmore hrest =>
    rw [kind_verbatim, source_verbatim]
    refine iff_of_true (isWord_wordKind _) ⟨by simpa using hstart, ?_⟩
    intro x hx
    rcases List.mem_cons.1 hx with rfl | hx
    · exact isWordChar_of_isWordStart hstart
    · exact hmore x hx

/-- No word ends a text in which no character begins one. -/
lemma not_isWord_of_suffix {source : List Char} (hsource : ∀ c ∈ source, isWordStart c = false)
    (hword : word <:+ source) : ¬ IsWord word := by
  cases word with
  | nil => exact fun h => h.ne_nil rfl
  | cons c more => exact not_isWord_of_head (hsource c (hword.subset (by simp))) more

/-- No word ends a text that ends with a character of no word. -/
lemma not_isWord_of_suffix_snoc (source : List Char) {c : Char} (hc : isWordChar c = false)
    (hword : word <:+ source ++ [c]) : ¬ IsWord word := by
  intro h
  have hin := h.inside _ (List.getLast_mem h.ne_nil)
  rw [hword.getLast h.ne_nil, List.getLast_append_of_ne_nil _ (by simp)] at hin
  rw [List.getLast_singleton, hc] at hin
  cases hin

/-- Only the last rule makes words. -/
lemma Lexes.word_cases (h : Lexes afterOperand cs l) (hword : l.kind.isWord = true) :
    l.kind = wordKind l.text ∧ l.rest.head?.any isWordChar = false := by
  cases h with
  | word hstart hmore hrest =>
    rw [kind_verbatim, text_verbatim, rest_verbatim]
    exact ⟨rfl, hrest⟩
  | _ => cases hword

/-- A word that a lexeme ends with does not go on behind it. -/
lemma Lexes.ends (h : Lexes afterOperand cs l) :
    l.rest.head?.any isWordChar = false ∨ ∀ word, word <:+ l.source → ¬ IsWord word := by
  have hnumber : ∀ {c : Char} {rest : List Char}, isWordStart c = false →
      ∀ word, word <:+ (numberFrom c rest).source → ¬ IsWord word := by
    intro c rest hc word hword
    refine not_isWord_of_suffix (fun x hx => ?_) hword
    rcases List.mem_cons.1 hx with rfl | hx
    · exact hc
    · rcases mem_splitNumber hx with hdigit | rfl
      · exact not_isWordStart_of_isDigit hdigit
      · decide
  cases h with
  | symbol h =>
    have hc := not_isWordStart_of_mem_marks (mem_marks_of_symbol? h)
    exact .inr fun word hword => not_isWord_of_suffix (by simpa [verbatim] using hc) hword
  | comparison h =>
    have hc := not_isWordStart_of_mem_marks (mem_marks_of_comparison? h)
    exact .inr fun word hword => not_isWord_of_suffix (by simpa [verbatim] using hc) hword
  | @comparisonEquals c =>
    exact .inr fun word => not_isWord_of_suffix_snoc [c] (by decide)
  | notEqual => exact .inr fun word => not_isWord_of_suffix_snoc ['!'] (by decide)
  | minus | slash => exact .inr fun word => not_isWord_of_suffix_snoc [] (by decide)
  | negative => exact .inr (hnumber (by decide))
  | number h => exact .inr (hnumber (not_isWordStart_of_isDigit h))
  | @regex pattern =>
    exact .inr fun word => not_isWord_of_suffix_snoc ('/' :: pattern) (by decide)
  | @string quote body text rest hquote =>
    refine .inr fun word => not_isWord_of_suffix_snoc (quote :: body) ?_
    rcases hquote with rfl | rfl <;> decide
  | word hstart hmore hrest => exact .inl hrest

/-- Nothing that was read ends with a word that goes on in what is left. -/
def Settled (front rest : List Char) : Prop :=
  ∀ word, word <:+ front → IsWord word → rest.head?.any isWordChar = false

namespace Settled

lemma nil (rest : List Char) : Settled [] rest := by
  intro word hword h
  exact absurd (List.suffix_nil.1 hword) h.ne_nil

lemma gap {gap : List Char} (h : Settled front (gap ++ rest)) (hgap : IsGap gap) :
    Settled (front ++ gap) rest := by
  intro word hword hisWord
  by_cases hnil : gap = []
  · subst hnil
    rw [List.append_nil] at hword
    exact h word hword hisWord
  · have hlast : word.getLast hisWord.ne_nil = gap.getLast hnil := by
      rw [hword.getLast hisWord.ne_nil, List.getLast_append_of_ne_nil _ hnil]
    have hin := hisWord.inside _ (List.getLast_mem hisWord.ne_nil)
    rw [hlast, not_isWordChar_of_isGap hgap _ (List.getLast?_eq_some_getLast hnil)] at hin
    cases hin

lemma lexeme (h : Settled front cs) (hl : Lexes afterOperand cs l) :
    Settled (front ++ l.source) l.rest := by
  intro word hword hisWord
  rcases hl.ends with hrest | hsource
  · exact hrest
  · exfalso
    rcases List.suffix_or_suffix_of_suffix hword (List.suffix_append front l.source) with
      hsuffix | ⟨before, rfl⟩
    · exact hsource word hsuffix hisWord
    · have hbefore : before <:+ front := by
        obtain ⟨first, hfirst⟩ := hword
        rw [← List.append_assoc] at hfirst
        exact ⟨first, List.append_cancel_right hfirst⟩
      have hne : before ≠ [] := by
        rintro rfl
        exact hsource _ List.suffix_rfl hisWord
      have hhead := h before hbefore (hisWord.of_append hne)
      obtain ⟨c, more, hc, -, -⟩ := hl.head
      rw [← hl.source_append, hc] at hhead
      have hin := hisWord.inside c (by simp [hc])
      rw [List.cons_append, List.head?_cons, Option.any_some, hin] at hhead
      cases hhead

end Settled

/-- A word is no part of a longer one: what is left does not go on with it, and neither does it go
on with what was read. -/
lemma Settled.maximal {before : List Char} {after : Nat} (h : Settled front cs)
    (hl : Lexes afterOperand cs l) (hword : l.kind.isWord = true) (hbefore : before <:+ front)
    (hmore : IsWord (before ++ (l.source ++ l.rest.take after))) :
    before = [] ∧ l.rest.take after = [] := by
  obtain ⟨c, _, hsource, -⟩ := hl.head
  constructor
  · by_contra hne
    have hhead := h before hbefore (hmore.of_append hne)
    have hc : isWordChar c = true := hmore.inside c (by simp [hsource])
    rw [← hl.source_append, hsource, List.cons_append, List.head?_cons, Option.any_some,
      hc] at hhead
    cases hhead
  · have hrest := (hl.word_cases hword).2
    cases hcases : l.rest with
    | nil => simp
    | cons d rest =>
      cases after with
      | zero => rfl
      | succ after =>
        have hd : isWordChar d = true := hmore.inside d (by simp [hcases])
        rw [hcases, List.head?_cons, Option.any_some, hd] at hrest
        cases hrest

end LogQuery.Lexer
