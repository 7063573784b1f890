import LogQuery.Proofs.Token.Spelling

/-!
# Where a text is no row of tokens

A text is refused at a boundary between tokens at which none begins: at an exclamation mark alone,
at a quote or the slash of a regular expression that nothing closes, or at a character that begins
no token (`Faulty`). The error has the place of this boundary, and the text in front of it is lexed
into the tokens that were read (`tokenize_eq_error_iff`).

The text in front of a fault may be taken alone, since no lexeme looks at what a fault begins with:
only a number looks further than one character, past a point, and there for a digit or a star
(`Lexes.alone`).
-/

namespace LogQuery.Lexer

variable {afterOperand : Bool} {previous : Option TokenKind} {position : Position} {c : Char}
  {cs front rest : List Char} {l : Lexeme} {ts : List Token} {fault : LexFault}

/-! ### Faults -/

/-- No token begins with a character, whatever stands in front of it and behind it. -/
def BeginsNoToken (c : Char) : Prop :=
  ∀ afterOperand rest l, ¬ Lexes afterOperand (c :: rest) l

/-- Why no token begins with a text, given whether the token before it ends an operand. -/
inductive Faulty (afterOperand : Bool) : List Char → LexFault → Prop where
  | loneExclamation {rest : List Char} (h : rest.head? ≠ some '=') :
      Faulty afterOperand ('!' :: rest) .loneExclamation
  | unterminatedString {quote : Char} {rest : List Char} (hquote : quote = '"' ∨ quote = '\'')
      (h : ∀ body text more, Unescapes quote body text → rest ≠ body ++ quote :: more) :
      Faulty afterOperand (quote :: rest) .unterminatedString
  | unterminatedRegex {rest : List Char} (hafter : afterOperand = false)
      (h : ∀ pattern more, IsPattern pattern → rest ≠ pattern ++ '/' :: more) :
      Faulty afterOperand ('/' :: rest) .unterminatedRegex
  | unexpected {c : Char} {rest : List Char} (hgap : opensGap c = false) (h : BeginsNoToken c) :
      Faulty afterOperand (c :: rest) (.unexpected c)

/-- Tokens begin with marks, digits, and what words begin with. -/
lemma beginsNoToken_iff :
    BeginsNoToken c ↔ c ∉ marks ∧ c.isDigit = false ∧ isWordStart c = false := by
  constructor
  · intro h
    refine ⟨fun hmark => ?_, ?_, ?_⟩
    · have hall : marks.all (fun c => (lexeme false c [if c = '!' then '=' else c]).isOk) := by
        decide
      have hc := List.all_eq_true.1 hall c hmark
      cases hl : lexeme false c [if c = '!' then '=' else c] with
      | error fault =>
        rw [hl] at hc
        cases hc
      | ok l => exact h _ _ _ (lexes_of_lexeme hl)
    · by_contra hdigit
      exact h false [] _ (.number (by simpa using hdigit))
    · by_contra hstart
      exact h false [] _ (lexes_wordFrom (by simpa using hstart) [])
  · rintro ⟨hmark, hdigit, hstart⟩ afterOperand rest l hl
    have hl := lexeme_of_lexes hl
    rw [lexeme_of_not_mem hmark, hdigit, hstart] at hl
    cases hl

lemma splitEquals_eq_none_iff : splitEquals rest = none ↔ rest.head? ≠ some '=' := by
  rw [splitEquals_eq_none]
  cases rest <;> simp

lemma splitString_eq_none {quote : Char} (hquote : quote ≠ '\\') :
    splitString quote rest = none ↔
      ∀ body text more, Unescapes quote body text → rest ≠ body ++ quote :: more := by
  rw [Option.eq_none_iff_forall_ne_some]
  constructor
  · rintro h body text more hbody rfl
    exact h _ (hbody.splitString hquote more)
  · intro h q hq
    obtain ⟨body, hbody, -, hrest⟩ := unescapes_of_splitString hq
    exact h body _ _ hbody hrest

lemma splitRegex_eq_none : splitRegex rest = none ↔
    ∀ pattern more, IsPattern pattern → rest ≠ pattern ++ '/' :: more := by
  rw [Option.eq_none_iff_forall_ne_some]
  constructor
  · rintro h pattern more hpattern rfl
    exact h _ (hpattern.splitRegex more)
  · intro h q hq
    obtain ⟨hpattern, -, hrest⟩ := isPattern_of_splitRegex hq
    exact h _ _ hpattern hrest

lemma mark_cases (h : c ∈ marks) : (symbol? c).isSome ∨ (comparison? c).isSome ∨
    c = '!' ∨ c = '-' ∨ c = '/' ∨ c = '"' ∨ c = '\'' := by
  have hall : marks.all (fun c => (symbol? c).isSome || ((comparison? c).isSome ||
      "!-/\"'".toList.contains c)) = true := by decide
  simpa using List.all_eq_true.1 hall c h

lemma faulty_of_lexeme (hgap : opensGap c = false)
    (h : lexeme afterOperand c rest = .error fault) : Faulty afterOperand (c :: rest) fault := by
  unfold lexeme at h
  split at h
  · cases h
  next hsymbol =>
  split at h
  · split at h <;> cases h
  next hcomparison =>
  split at h
  · subst c
    split at h
    · cases h
    · cases h
      exact .loneExclamation (splitEquals_eq_none_iff.1 ‹_›)
  next hexclamation =>
  split at h
  · split_ifs at h
  next hminus =>
  split at h
  · subst c
    split_ifs at h with hafter
    split at h
    · cases h
    · cases h
      exact .unterminatedRegex (by simpa using hafter) (splitRegex_eq_none.1 ‹_›)
  next hslash =>
  split at h
  · next hquote =>
    split at h
    · cases h
    · cases h
      have hne : c ≠ '\\' := by rcases hquote with rfl | rfl <;> decide
      exact .unterminatedString hquote ((splitString_eq_none hne).1 ‹_›)
  next hquote =>
  split_ifs at h with hdigit hstart
  cases h
  refine .unexpected hgap (beginsNoToken_iff.2 ⟨fun hmark => ?_, ?_, ?_⟩)
  · rcases mark_cases hmark with hsome | hsome | hother
    · obtain ⟨s, hs⟩ := Option.isSome_iff_exists.1 hsome
      exact hsymbol s hs
    · obtain ⟨signs, hsigns⟩ := Option.isSome_iff_exists.1 hsome
      exact hcomparison signs.1 signs.2 hsigns
    · rw [not_or] at hquote
      simp [hexclamation, hminus, hslash, hquote] at hother
  · simpa using hdigit
  · simpa using hstart

lemma lexeme_of_faulty (h : Faulty afterOperand (c :: rest) fault) :
    lexeme afterOperand c rest = .error fault := by
  generalize hcs : c :: rest = cs at h
  cases h with
  | loneExclamation h =>
    cases hcs
    simp [lexeme, symbol?, comparison?, splitEquals_eq_none_iff.2 h]
  | unterminatedString hquote h =>
    cases hcs
    have hne : c ≠ '\\' := by rcases hquote with rfl | rfl <;> decide
    have hrest := (splitString_eq_none hne).2 h
    rcases hquote with rfl | rfl <;> simp [lexeme, symbol?, comparison?, hrest]
  | unterminatedRegex hafter h =>
    cases hcs
    simp [lexeme, symbol?, comparison?, hafter, splitRegex_eq_none.2 h]
  | unexpected hgap h =>
    cases hcs
    obtain ⟨hmark, hdigit, hstart⟩ := beginsNoToken_iff.1 h
    rw [lexeme_of_not_mem hmark, hdigit, hstart]
    rfl

lemma Faulty.head (h : Faulty afterOperand rest fault) :
    ∃ c more, rest = c :: more ∧ opensGap c = false ∧ c.isDigit = false ∧ c ≠ '*' := by
  cases h with
  | @loneExclamation more => exact ⟨'!', more, rfl, by decide, by decide, by decide⟩
  | @unterminatedString quote more hquote =>
    refine ⟨quote, more, rfl, ?_⟩
    rcases hquote with rfl | rfl <;> decide
  | @unterminatedRegex more => exact ⟨'/', more, rfl, by decide, by decide, by decide⟩
  | @unexpected c more hgap h =>
    obtain ⟨hmark, hdigit, -⟩ := beginsNoToken_iff.1 h
    refine ⟨c, more, rfl, hgap, hdigit, ?_⟩
    rintro rfl
    exact hmark (by decide)

/-! ### The text in front of a fault -/

/-- What a text begins with shows in its number, unless it shows behind the number. -/
lemma any_head?_number {p : Char → Bool} (h : (splitNumber cs).2.head?.any p = false) :
    (splitNumber cs).1.head?.any p = cs.head?.any p := by
  have happend := splitNumber_append cs
  cases hdigits : (splitNumber cs).1 with
  | nil =>
    rw [hdigits, List.nil_append] at happend
    rw [← happend, h]
    rfl
  | cons d digits =>
    rw [hdigits, List.cons_append] at happend
    rw [← happend]
    rfl

/-- A number goes on past a point only to a digit or a star, so if neither of them follows it, it
ends where it did with nothing behind it too. -/
lemma splitNumber_alone (h : (splitNumber cs).2.head?.any (fun c => c.isDigit || c = '*') = false) :
    splitNumber (splitNumber cs).1 = ((splitNumber cs).1, []) := by
  induction cs with
  | nil => rfl
  | cons c rest ih =>
    rw [splitNumber] at h ⊢
    split_ifs at h ⊢ with hc
    · rw [splitNumber, any_head?_number h, if_pos hc, ih h]
    · rfl

/-- A lexeme may be taken alone if no number could go on behind it. -/
lemma Lexes.alone (h : Lexes afterOperand cs l)
    (hrest : l.rest.head?.any (fun c => c.isDigit || c = '*') = false) :
    Lexes afterOperand l.source { l with rest := [] } := by
  have hnumber : ∀ (c : Char) (rest : List Char),
      (splitNumber rest).2.head?.any (fun c => c.isDigit || c = '*') = false →
      numberFrom c (splitNumber rest).1 = { numberFrom c rest with rest := [] } := by
    intro c rest hrest
    rw [numberFrom, splitNumber_alone hrest]
    rfl
  cases h with
  | symbol h => exact .symbol h
  | comparison h => exact .comparison h rfl
  | comparisonEquals h => exact .comparisonEquals h
  | notEqual => exact .notEqual
  | minus => exact .minus fun hdigit => absurd hdigit Bool.false_ne_true
  | @negative rest h hafter =>
    have hdigit : (splitNumber rest).2.head?.any Char.isDigit = false := by
      cases hhead : (splitNumber rest).2.head? with
      | none => rfl
      | some c =>
        change (splitNumber rest).2.head?.any _ = false at hrest
        rw [hhead, Option.any_some, Bool.or_eq_false_iff] at hrest
        exact hrest.1
    rw [← hnumber '-' rest hrest]
    exact .negative ((any_head?_number hdigit).trans h) hafter
  | @number c rest h =>
    rw [← hnumber c rest hrest]
    exact .number h
  | slash hafter => exact .slash hafter
  | regex hafter h => exact .regex hafter h
  | string hquote h => exact .string hquote h
  | @word c more rest hstart hmore =>
    have hword : Lexes afterOperand (c :: (more ++ [])) (verbatim (wordKind (c :: more)) _ []) :=
      .word hstart hmore rfl
    rw [List.append_nil] at hword
    exact hword

/-! ### The boundaries between tokens -/

/-- A text that stands at a position behind a token of some kind begins with these tokens, and with
gaps between them and behind the last of them. Each token is the one that is read in front of all
that follows, the rest among it. -/
inductive Reaches : Option TokenKind → Position → List Char → List Char → List Token → Prop where
  | gap {previous : Option TokenKind} {position : Position} {gap rest : List Char} (h : IsGap gap) :
      Reaches previous position gap rest []
  | lexeme {previous : Option TokenKind} {position : Position} {gap front rest : List Char}
      {l : Lexeme} {ts : List Token} (hgap : IsGap gap)
      (hl : Lexes (previous.any TokenKind.endsOperand) (l.source ++ (front ++ rest)) l)
      (h : Reaches (some l.kind) ((position.after gap).after l.source) front rest ts) :
      Reaches previous position (gap ++ (l.source ++ front)) rest
        (⟨l.kind, String.ofList l.text, position.after gap⟩ :: ts)

lemma not_opensGap_of_splitGap (h : (splitGap false cs).2 = c :: rest) : opensGap c = false := by
  rcases gap_cases cs with hgap | ⟨gap, c', rest', hgap, hc, rfl⟩
  · rw [hgap.splitGap] at h
    cases h
  · rw [hgap.splitGap_append, splitGap_of_not_opensGap hc] at h
    cases h
    exact hc

/-- The kind of the token before a boundary. -/
abbrev kindBefore (previous : Option TokenKind) (ts : List Token) : Option TokenKind :=
  lastKind previous (ts.map Token.spelling)

lemma reaches_of_tokensFrom {e : LexError} (h : tokensFrom previous position cs = .error e) :
    ∃ front rest ts, cs = front ++ rest ∧ Reaches previous position front rest ts ∧
      Faulty ((kindBefore previous ts).any TokenKind.endsOperand) rest e.fault ∧
      e.position = position.after front := by
  fun_induction tokensFrom previous position cs generalizing e with
  | case1 => cases h
  | case2 previous position cs here c rest hcs fault =>
    rename_i hfault
    cases h
    have hsplit := splitGap_append false cs
    rw [hcs] at hsplit
    refine ⟨_, c :: rest, [], hsplit.symm, .gap (isGap_of_splitGap hcs), ?_, rfl⟩
    exact faulty_of_lexeme (not_opensGap_of_splitGap hcs) hfault
  | case3 previous position cs here c rest hcs l hl =>
    rename_i ih
    cases hmore : tokensFrom (some l.kind) (here.after l.source) l.rest with
    | ok ts =>
      rw [hmore] at h
      cases h
    | error e' =>
      rw [hmore] at h
      cases h
      obtain ⟨front, rest', ts, hrest, hreaches, hfaulty, hposition⟩ := ih hmore
      have hsplit := splitGap_append false cs
      have hlexes := lexeme_eq_ok.1 hl
      rw [hcs, ← hlexes.source_append, hrest] at hsplit
      rw [← hlexes.source_append, hrest] at hlexes
      refine ⟨_, rest', _, ?_, .lexeme (isGap_of_splitGap hcs) hlexes hreaches, hfaulty, ?_⟩
      · rw [List.append_assoc, List.append_assoc, hsplit]
      · rw [hposition]
        simp only [Position.after, List.foldl_append, here]

/-- A gap moves the place of what follows it. -/
lemma tokensFrom_gap {gap : List Char} (hgap : IsGap gap) :
    tokensFrom previous position (gap ++ cs) =
      tokensFrom previous (position.after gap) cs := by
  have hplace : position.after (splitGap false (gap ++ cs)).1 =
      (position.after gap).after (splitGap false cs).1 := by
    rw [hgap.splitGap_append]
    simp only [Position.after, List.foldl_append]
  have hrest : (splitGap false (gap ++ cs)).2 = (splitGap false cs).2 := by
    rw [hgap.splitGap_append]
  rw [tokensFrom.eq_def, tokensFrom.eq_def previous (position.after gap) cs]
  simp only [hplace]
  generalize (splitGap false (gap ++ cs)).2 = behind at hrest
  subst hrest
  rfl

/-- What is read in front of a boundary stands before what is read behind it. -/
lemma tokensFrom_of_reaches (h : Reaches previous position front rest ts) :
    tokensFrom previous position (front ++ rest) =
      (tokensFrom (kindBefore previous ts) (position.after front) rest).map (ts ++ ·) := by
  induction h with
  | @gap previous position gap rest h =>
    rw [tokensFrom_gap h]
    change _ = (tokensFrom previous (position.after gap) rest).map _
    cases tokensFrom previous (position.after gap) rest <;> rfl
  | @lexeme previous position gap front rest l ts hgap hl h ih =>
    have hrest : l.rest = front ++ rest := List.append_cancel_left hl.source_append
    rw [List.append_assoc, List.append_assoc, tokensFrom_of_lexes hgap hl, hrest, ih]
    simp only [Position.after, List.foldl_append]
    change _ = (tokensFrom (kindBefore (some l.kind) ts) _ rest).map _
    cases tokensFrom (kindBefore (some l.kind) ts) _ rest <;> rfl

/-- A fault is the error of the text that begins with it. -/
lemma tokensFrom_of_faulty (h : Faulty (previous.any TokenKind.endsOperand) rest fault) :
    tokensFrom previous position rest = .error ⟨fault, position⟩ := by
  obtain ⟨c, more, rfl, hc, -⟩ := h.head
  have hlexeme := lexeme_of_faulty h
  have hsplit := splitGap_of_not_opensGap hc more
  rw [tokensFrom.eq_def]
  split
  · next hnil =>
    rw [hsplit] at hnil
    cases hnil
  · next c' rest hcons =>
    rw [hsplit] at hcons
    cases hcons
    split
    · next fault' herror =>
      obtain rfl := Except.error.inj (herror.symm.trans hlexeme)
      rw [hsplit]
      rfl
    · next l hl =>
      cases hl.symm.trans hlexeme

lemma IsGap.head?_ne {gap : List Char} (h : IsGap gap) : gap.head? ≠ some '.' := by
  cases h with
  | nil => nofun
  | @blank c gap hc =>
    rw [List.head?_cons, Ne, Option.some.injEq]
    rintro rfl
    exact absurd hc (by decide)
  | comment => simp

/-- A point begins neither a gap nor a token. -/
lemma Reaches.head?_ne (h : Reaches previous position front rest ts) : front.head? ≠ some '.' := by
  cases h with
  | gap h => exact h.head?_ne
  | @lexeme _ _ gap front _ l ts hgap hl h =>
    obtain ⟨c, more, hsource, -, hc⟩ := hl.head
    have hhead := hgap.head?_ne
    cases gap with
    | nil => simpa [hsource] using hc
    | cons d gap => simpa using hhead

/-- A lexeme that is read in front of a text is also read where the text is cut off at a fault. -/
lemma Reaches.lexes {kind : Option TokenKind} (h : Reaches kind position front rest ts)
    (hfault : Faulty ((kindBefore kind ts).any TokenKind.endsOperand) rest fault)
    (hl : Lexes afterOperand (l.source ++ (front ++ rest)) l) :
    Lexes afterOperand (l.source ++ front) { l with rest := front } := by
  have hrest : l.rest = front ++ rest := List.append_cancel_left hl.source_append
  obtain ⟨c, more, rfl, -, hdigit, hstar⟩ := hfault.head
  cases front with
  | nil =>
    rw [List.append_nil]
    refine hl.alone ?_
    rw [hrest, List.nil_append, List.head?_cons, Option.any_some, hdigit, decide_eq_false hstar]
    rfl
  | cons d front =>
    have hahead : ahead (d :: front) = ahead l.rest := by rw [hrest]; rfl
    refine hl.behind hahead fun hpoint => ?_
    exact h.head?_ne (ahead_eq_some.1 hpoint).1

/-- The text in front of a fault is lexed into the tokens that were read. -/
lemma Reaches.lexing (h : Reaches previous position front rest ts)
    (hfault : Faulty ((kindBefore previous ts).any TokenKind.endsOperand) rest fault) :
    Lexing previous position front (ts ++ [⟨.eof, "", position.after front⟩]) := by
  induction h with
  | gap h => exact .stop (.closed h)
  | @lexeme previous position gap front rest l ts hgap hl h ih =>
    have hstop : position.after (gap ++ (l.source ++ front)) =
        ((position.after gap).after l.source).after front := by
      simp only [Position.after, List.foldl_append]
    rw [hstop]
    exact .lexeme (l := { l with rest := front }) hgap (h.lexes hfault hl) (ih hfault)

end LogQuery.Lexer

namespace LogQuery

open Lexer

/-- A text is refused just if at a boundary between its tokens it goes on with a fault. The error is
that fault, with the place of the boundary; and the text in front of a fault has the tokens that
were read, and the end of the query at that place. -/
theorem tokenize_eq_error_iff (query : String) :
    (∀ e, tokenize query = .error e ↔ ∃ front rest ts, query.toList = front ++ rest ∧
      Reaches none .start front rest ts ∧
      Faulty ((kindBefore none ts).any TokenKind.endsOperand) rest e.fault ∧
      e.position = .behind front) ∧
    ∀ front rest ts fault, Reaches none .start front rest ts →
      Faulty ((kindBefore none ts).any TokenKind.endsOperand) rest fault →
      tokenize (String.ofList front) = .ok (ts ++ [⟨.eof, "", .behind front⟩]) := by
  have hplace : ∀ front, Position.start.after front = .behind front := Position.after_behind []
  constructor
  · intro e
    constructor
    · intro h
      obtain ⟨front, rest, ts, hquery, hreaches, hfaulty, hposition⟩ := reaches_of_tokensFrom h
      exact ⟨front, rest, ts, hquery, hreaches, hfaulty, hposition.trans (hplace front)⟩
    · rintro ⟨front, rest, ts, hquery, hreaches, hfaulty, hposition⟩
      rw [tokenize, hquery, tokensFrom_of_reaches hreaches, tokensFrom_of_faulty hfaulty, hplace,
        ← hposition]
      rfl
  · intro front rest ts fault hreaches hfaulty
    have hlexing := hreaches.lexing hfaulty
    rw [hplace] at hlexing
    rw [tokenize, String.toList_ofList]
    exact tokensFrom_of_lexing hlexing

/-- A quote in a comment opens nothing and an escaped quote closes nothing, and behind a word the
slash divides: the quote behind the slash is never closed. -/
theorem tokenize_eq_error_iff_open_quote :
    let front := "a #\"\n/"
    let rest := "'c\\' "
    let ts : List Token := [⟨.identifier, "a", ⟨1, 1⟩⟩, ⟨.symbol .slash, "/", ⟨2, 1⟩⟩]
    (Reaches none .start front.toList rest.toList ts ∧
      Faulty ((kindBefore none ts).any TokenKind.endsOperand) rest.toList .unterminatedString) ∧
    tokenize (front ++ rest) = .error ⟨.unterminatedString, ⟨2, 2⟩⟩ ∧
      tokenize front = .ok (ts ++ [⟨.eof, "", ⟨2, 2⟩⟩]) := by
  intro front rest ts
  have hcomment : IsGap ('#' :: (['"'] ++ '\n' :: [])) := .comment (by decide) .nil
  have hgap : IsGap " #\"\n".toList := .blank (by decide) hcomment
  have hkind : wordKind ['a'] = .identifier := by decide
  have hslash : Lexes ((some TokenKind.identifier).any TokenKind.endsOperand)
      (['/'] ++ ([] ++ rest.toList)) (verbatim (.symbol .slash) ['/'] rest.toList) := .slash rfl
  have hbehind : Reaches (some .identifier) ⟨1, 2⟩ (" #\"\n".toList ++ (['/'] ++ []))
      rest.toList [⟨.symbol .slash, "/", ⟨2, 1⟩⟩] :=
    .lexeme (l := verbatim (.symbol .slash) ['/'] rest.toList) hgap hslash (.gap .nil)
  have hword : Lexes ((none : Option TokenKind).any TokenKind.endsOperand)
      (['a'] ++ ((" #\"\n".toList ++ (['/'] ++ [])) ++ rest.toList))
      (verbatim (wordKind ['a']) ['a'] ((" #\"\n".toList ++ (['/'] ++ [])) ++ rest.toList)) := by
    refine @Lexes.word _ 'a' [] _ ?_ nofun ?_ <;> decide
  rw [hkind] at hword
  have hreaches : Reaches none .start front.toList rest.toList ts := by
    have hfront : front.toList = [] ++ (['a'] ++ (" #\"\n".toList ++ (['/'] ++ []))) := by decide
    rw [hfront]
    exact .lexeme (l := verbatim .identifier ['a'] _) .nil hword hbehind
  have hfaulty : Faulty false rest.toList .unterminatedString := by
    have hrest : rest.toList = '\'' :: ['c', '\\', '\'', ' '] := by decide
    rw [hrest]
    exact .unterminatedString (.inr rfl) ((splitString_eq_none (by decide)).1 rfl)
  have hplace : Position.behind front.toList = ⟨2, 2⟩ := by decide
  obtain ⟨hiff, hcut⟩ := tokenize_eq_error_iff (front ++ rest)
  refine ⟨⟨hreaches, hfaulty⟩, (hiff _).2 ?_, ?_⟩
  · exact ⟨_, _, ts, String.toList_append, hreaches, hfaulty, hplace.symm⟩
  · have hfront := hcut _ _ ts _ hreaches hfaulty
    rwa [hplace, String.ofList_toList] at hfront

end LogQuery
