import LogQuery.Proofs.Token.Lexeme

namespace LogQuery.Lexer

/-! ### Gaps -/

/-- Blanks and comments, each comment with the end of its line. -/
inductive IsGap : List Char → Prop where
  | nil : IsGap []
  | blank {c : Char} {gap : List Char} (hc : Text.isBlank c = true) (h : IsGap gap) :
      IsGap (c :: gap)
  | comment {text gap : List Char} (htext : '\n' ∉ text) (h : IsGap gap) :
      IsGap ('#' :: (text ++ '\n' :: gap))

/-- A gap at the end of a query, where a comment needs no end of its line. -/
inductive IsLastGap : List Char → Prop where
  | closed {gap : List Char} (h : IsGap gap) : IsLastGap gap
  | comment {gap text : List Char} (h : IsGap gap) (htext : '\n' ∉ text) :
      IsLastGap (gap ++ '#' :: text)

lemma splitGap_comment {text : List Char} (h : '\n' ∉ text) (rest : List Char) :
    splitGap true (text ++ '\n' :: rest) =
      (text ++ '\n' :: (splitGap false rest).1, (splitGap false rest).2) := by
  induction text with
  | nil => simp [splitGap]
  | cons c text ih =>
    rw [List.mem_cons, not_or] at h
    have hc : (c != '\n') = true := bne_iff_ne.2 (Ne.symm h.1)
    simp [splitGap, hc, ih h.2]

lemma splitGap_openComment {text : List Char} (h : '\n' ∉ text) :
    splitGap true text = (text, []) := by
  induction text with
  | nil => rfl
  | cons c text ih =>
    rw [List.mem_cons, not_or] at h
    have hc : (c != '\n') = true := bne_iff_ne.2 (Ne.symm h.1)
    simp [splitGap, hc, ih h.2]

lemma not_hash_of_isBlank {c : Char} (h : Text.isBlank c = true) : c ≠ '#' := by
  rintro rfl
  exact absurd h (by decide)

/-- A gap in front of a text belongs to the gap that the text begins with. -/
lemma IsGap.splitGap_append {gap : List Char} (h : IsGap gap) (rest : List Char) :
    splitGap false (gap ++ rest) = (gap ++ (splitGap false rest).1, (splitGap false rest).2) := by
  induction h with
  | nil => rfl
  | @blank c gap hc h ih => simp [splitGap, hc, not_hash_of_isBlank hc, ih]
  | @comment text gap htext h ih =>
    have hcomment := splitGap_comment htext (gap ++ rest)
    simp [splitGap, hcomment, ih]

lemma splitGap_of_not_opensGap {c : Char} (h : opensGap c = false) (rest : List Char) :
    splitGap false (c :: rest) = ([], c :: rest) := by
  rw [opensGap, Bool.or_eq_false_iff] at h
  simp [splitGap, h.1, of_decide_eq_false h.2]

lemma IsLastGap.splitGap {gap : List Char} (h : IsLastGap gap) :
    splitGap false gap = (gap, []) := by
  cases h with
  | closed h => simpa [Lexer.splitGap] using h.splitGap_append []
  | @comment gap text h htext =>
    have hcomment := splitGap_openComment htext
    rw [h.splitGap_append]
    simp [Lexer.splitGap, hcomment]

/-- Where a comment ends, or that it does not. -/
lemma comment_cases (cs : List Char) :
    '\n' ∉ cs ∨ ∃ text rest, '\n' ∉ text ∧ cs = text ++ '\n' :: rest := by
  induction cs with
  | nil => simp
  | cons c cs ih =>
    by_cases hc : c = '\n'
    · exact .inr ⟨[], cs, by simp, by simp [hc]⟩
    · rcases ih with h | ⟨text, rest, htext, rfl⟩
      · exact .inl (by simp [h, Ne.symm hc])
      · exact .inr ⟨c :: text, rest, by simp [htext, Ne.symm hc], rfl⟩

/-- A text is a gap, or a gap stands in front of a character that begins none. -/
lemma gap_cases (cs : List Char) :
    IsLastGap cs ∨ ∃ gap c rest, IsGap gap ∧ opensGap c = false ∧ cs = gap ++ c :: rest := by
  induction hn : cs.length using Nat.strongRecOn generalizing cs with
  | ind n ih =>
    cases cs with
    | nil => exact .inl (.closed .nil)
    | cons c cs =>
      by_cases hblank : Text.isBlank c = true
      · rcases ih cs.length (by simp [← hn]) cs rfl with hcs | ⟨gap, d, rest, hgap, hd, rfl⟩
        · cases hcs with
          | closed h => exact .inl (.closed (.blank hblank h))
          | comment h htext => exact .inl (.comment (.blank hblank h) htext)
        · exact .inr ⟨c :: gap, d, rest, .blank hblank hgap, hd, rfl⟩
      · by_cases hhash : c = '#'
        · subst hhash
          rcases comment_cases cs with htext | ⟨text, cs, htext, rfl⟩
          · exact .inl (.comment .nil htext)
          · rcases ih cs.length (by simp [← hn]; omega) cs rfl with
              hcs | ⟨gap, d, rest, hgap, hd, rfl⟩
            · cases hcs with
              | closed h => exact .inl (.closed (.comment htext h))
              | @comment gap text' h htext' =>
                have hlast := IsLastGap.comment (.comment htext h) htext'
                exact .inl (by simpa using hlast)
            · exact .inr ⟨'#' :: (text ++ '\n' :: gap), d, rest, .comment htext hgap, hd, by simp⟩
        · exact .inr ⟨[], c, cs, .nil, by simp [opensGap, hblank, hhash], rfl⟩

lemma isLastGap_of_splitGap {cs : List Char} (h : (splitGap false cs).2 = []) :
    IsLastGap cs ∧ (splitGap false cs).1 = cs := by
  rcases gap_cases cs with hgap | ⟨gap, c, rest, hgap, hc, rfl⟩
  · exact ⟨hgap, by rw [hgap.splitGap]⟩
  · rw [hgap.splitGap_append, splitGap_of_not_opensGap hc] at h
    cases h

lemma isGap_of_splitGap {cs rest : List Char} {c : Char} (h : (splitGap false cs).2 = c :: rest) :
    IsGap (splitGap false cs).1 := by
  rcases gap_cases cs with hgap | ⟨gap, c', rest', hgap, hc, rfl⟩
  · rw [hgap.splitGap] at h
    cases h
  · rw [hgap.splitGap_append, splitGap_of_not_opensGap hc, List.append_nil]
    exact hgap

/-! ### Lexing -/

/-- A text that stands at a position behind a token of some kind consists of these tokens. -/
inductive Lexing : Option TokenKind → Position → List Char → List Token → Prop where
  | stop {previous : Option TokenKind} {position : Position} {gap : List Char}
      (h : IsLastGap gap) : Lexing previous position gap [⟨.eof, "", position.after gap⟩]
  | lexeme {previous : Option TokenKind} {position : Position} {gap cs : List Char} {l : Lexeme}
      {ts : List Token} (hgap : IsGap gap)
      (hl : Lexes (previous.any TokenKind.endsOperand) cs l)
      (h : Lexing (some l.kind) ((position.after gap).after l.source) l.rest ts) :
      Lexing previous position (gap ++ cs)
        (⟨l.kind, String.ofList l.text, position.after gap⟩ :: ts)

variable {previous : Option TokenKind} {position : Position} {cs : List Char} {ts : List Token}

lemma lexing_of_tokensFrom (h : tokensFrom previous position cs = .ok ts) :
    Lexing previous position cs ts := by
  fun_induction tokensFrom previous position cs generalizing ts with
  | case1 previous position cs here =>
    rename_i hcs
    cases h
    obtain ⟨hgap, hsplit⟩ := isLastGap_of_splitGap hcs
    change Lexing previous position cs [⟨.eof, "", position.after (splitGap false cs).1⟩]
    rw [hsplit]
    exact .stop hgap
  | case2 => cases h
  | case3 previous position cs here c rest hcs l hl =>
    rename_i ih
    cases hmore : tokensFrom (some l.kind) (here.after l.source) l.rest with
    | error e =>
      rw [hmore] at h
      cases h
    | ok more =>
      rw [hmore] at h
      cases h
      have hsplit := splitGap_append false cs
      rw [hcs] at hsplit
      have hlexing : Lexing previous position ((splitGap false cs).1 ++ c :: rest)
          (⟨l.kind, String.ofList l.text, here⟩ :: more) :=
        .lexeme (isGap_of_splitGap hcs) (lexeme_eq_ok.1 hl) (ih hmore)
      rwa [hsplit] at hlexing

/-- What is read behind a gap. -/
lemma splitGap_front {gap : List Char} {c : Char} (hgap : IsGap gap) (hc : opensGap c = false)
    (rest : List Char) : splitGap false (gap ++ c :: rest) = (gap, c :: rest) := by
  rw [hgap.splitGap_append, splitGap_of_not_opensGap hc, List.append_nil]

/-- The first lexeme is read, and the tokens behind it. -/
lemma tokensFrom_of_lexes {gap : List Char} {l : Lexeme} (hgap : IsGap gap)
    (hl : Lexes (previous.any TokenKind.endsOperand) cs l) :
    tokensFrom previous position (gap ++ cs) =
      (tokensFrom (some l.kind) ((position.after gap).after l.source) l.rest).map
        (⟨l.kind, String.ofList l.text, position.after gap⟩ :: ·) := by
  obtain ⟨c, more, hsource, hc, -⟩ := hl.head
  obtain rfl : c :: (more ++ l.rest) = cs := by rw [← hl.source_append, hsource, List.cons_append]
  have hsplit := splitGap_front hgap hc (more ++ l.rest)
  rw [tokensFrom.eq_def]
  split
  · next hnil =>
    rw [hsplit] at hnil
    cases hnil
  · next c' rest hcons =>
    rw [hsplit] at hcons
    cases hcons
    split
    · next e herror =>
      rw [lexeme_eq_ok.2 hl] at herror
      cases herror
    · next l' hl' =>
      rw [lexeme_eq_ok.2 hl] at hl'
      cases hl'
      rw [hsplit]

lemma tokensFrom_of_lexing (h : Lexing previous position cs ts) :
    tokensFrom previous position cs = .ok ts := by
  induction h with
  | stop h =>
    rw [tokensFrom.eq_def]
    split
    · rw [h.splitGap]
    · next c rest hcs =>
      rw [h.splitGap] at hcs
      cases hcs
  | lexeme hgap hl h ih =>
    rw [tokensFrom_of_lexes hgap hl, ih]
    rfl

/-- The reader of tokens follows the rules. -/
theorem tokensFrom_eq_ok :
    tokensFrom previous position cs = .ok ts ↔ Lexing previous position cs ts :=
  ⟨lexing_of_tokensFrom, tokensFrom_of_lexing⟩

end LogQuery.Lexer
