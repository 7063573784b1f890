import LogQuery.CommandLine.Libraries
import LogQuery.Proofs.Parser.ExpressionDisplay
import LogQuery.Proofs.Token.Fault

namespace LogQuery

open Lexer

/-- The text up to the operator of a query that assigns to `x` an operator between a word and a
number. -/
def assignedWord (word : String) : String := "eval x = " ++ word ++ " "

/-- The tokens of this text, for a word of some kind. -/
def assignedWordTokens (kind : TokenKind) (word : String) : List Token :=
  [⟨.command .eval, "eval", ⟨1, 1⟩⟩, ⟨.identifier, "x", ⟨1, 6⟩⟩, ⟨.symbol .eq, "=", ⟨1, 8⟩⟩,
    ⟨kind, word, ⟨1, 10⟩⟩]

variable {word digits : String}

/-! ### Tokens -/

/-- A word behind a gap and in front of a blank. -/
lemma reaches_word {previous : Option TokenKind} {p : Position} {gap front rest : List Char}
    {ts : List Token} (hword : IsWord word.toList) (hgap : IsGap gap)
    (h : Reaches (some (wordKind word.toList)) ((p.after gap).after word.toList)
      (' ' :: front) rest ts) :
    Reaches previous p (gap ++ (word.toList ++ ' ' :: front)) rest
      (⟨wordKind word.toList, word, p.after gap⟩ :: ts) := by
  have hspace : (' ' :: (front ++ rest)).head?.any isWordChar = false :=
    EndsText.any_head? endsText_space (by decide)
  have hl : Lexes (previous.any TokenKind.endsOperand) (word.toList ++ (' ' :: front ++ rest))
      (verbatim (wordKind word.toList) word.toList (' ' :: front ++ rest)) := hword.lexes hspace
  generalize wordKind word.toList = kind at h hl
  have hreaches := Reaches.lexeme (l := verbatim kind word.toList (' ' :: front ++ rest)) hgap hl h
  rwa [kind_verbatim, text_verbatim, String.ofList_toList] at hreaches

section Tokens

variable (hword : IsWord word.toList)
include hword

lemma start_after_assignedWord :
    Position.start.after (assignedWord word).toList = ⟨1, word.length + 11⟩ := by
  have hline : '\n' ∉ (assignedWord word).toList := by
    intro hmem
    simp only [assignedWord, String.toList_append, List.mem_append] at hmem
    rcases hmem with (hmem | hmem) | hmem
    · exact absurd hmem (by decide)
    · exact absurd (hword.inside _ hmem) (by decide)
    · exact absurd hmem (by decide)
  have hlength : (assignedWord word).toList.length = 9 + word.length + 1 := by
    rw [String.length_toList, assignedWord, String.length_append, String.length_append]
    rfl
  rw [Position.after_of_not_mem hline, hlength, Position.start, Position.mk.injEq]
  refine ⟨rfl, ?_⟩
  change 1 + (9 + word.length + 1) = word.length + 11
  omega

/-- The lexer arrives behind the word with what its kind lets follow. -/
lemma reaches_assignedWord (rest : List Char) :
    Reaches none .start (assignedWord word).toList rest
      (assignedWordTokens (wordKind word.toList) word) := by
  have hspace : IsGap [' '] := .blank (by decide) .nil
  have hoperand (p : Position) : Reaches (some (.symbol .eq)) p
      (' ' :: (word.toList ++ [' '])) rest [⟨wordKind word.toList, word, p.after [' ']⟩] :=
    reaches_word hword hspace (.gap hspace)
  have hsign : Lexes (TokenKind.identifier.endsOperand)
      (['='] ++ ((' ' :: (word.toList ++ [' '])) ++ rest)) (verbatim (.symbol .eq) ['='] _) :=
    .comparison rfl rfl
  have hassigned : Reaches (some .identifier) ⟨1, 7⟩
      (' ' :: '=' :: ' ' :: (word.toList ++ [' '])) rest
        [⟨.symbol .eq, "=", ⟨1, 8⟩⟩, ⟨wordKind word.toList, word, ⟨1, 10⟩⟩] :=
    .lexeme (l := verbatim (.symbol .eq) ['='] _) hspace hsign (hoperand _)
  have hfield := @reaches_word "x" (some (.command .eval)) ⟨1, 5⟩ _ _ _ _ (isWord_of_all rfl rfl)
    hspace hassigned
  have hquery := @reaches_word "eval" none ⟨1, 1⟩ _ _ _ _ (isWord_of_all rfl rfl) .nil hfield
  have heval : wordKind "eval".toList = .command .eval := by decide
  have hx : wordKind "x".toList = .identifier := by decide
  have htext : (assignedWord word).toList = [] ++ ("eval".toList ++
      ' ' :: ([] ++ ("x".toList ++ ' ' :: '=' :: ' ' :: (word.toList ++ [' '])))) := by
    simp [assignedWord]
  rw [heval, hx] at hquery
  rw [htext]
  exact hquery

/-- What is read behind the word follows the tokens up to it. -/
lemma tokenize_assignedWord (more : String) : tokenize (assignedWord word ++ more) =
    (tokensFrom (some (wordKind word.toList)) ⟨1, word.length + 11⟩ more.toList).map
      (assignedWordTokens (wordKind word.toList) word ++ ·) := by
  have hkind (kind : TokenKind) : kindBefore none (assignedWordTokens kind word) = some kind := rfl
  rw [tokenize, String.toList_append, tokensFrom_of_reaches (reaches_assignedWord hword _), hkind,
    start_after_assignedWord hword]

lemma tokenize_assignedWord_of_lexing {more : String} {ts : List Token}
    (h : Lexing (some (wordKind word.toList)) ⟨1, word.length + 11⟩ more.toList ts) :
    tokenize (assignedWord word ++ more) =
      .ok (assignedWordTokens (wordKind word.toList) word ++ ts) := by
  rw [tokenize_assignedWord hword, tokensFrom_of_lexing h]
  rfl

end Tokens

/-- The last of the tokens is the end of the query. -/
lemma Lexer.Lexing.kind_stop {previous : Option TokenKind} {p : Position} {cs : List Char}
    {front : List Token} {stop : Token} (h : Lexing previous p cs (front ++ [stop])) :
    stop.kind = .eof := by
  obtain ⟨front', stop', heq, hstop, -⟩ := h.exists_snoc
  obtain ⟨-, hstops⟩ := List.append_inj' heq rfl
  cases hstops
  exact hstop

section Digits

variable {kind : TokenKind} {p : Position} (hdigits : ∀ c ∈ digits.toList, c.isDigit = true)
include hdigits

/-- Where a regular expression begins, nothing closes it. -/
lemma faulty_slash_digits (hkind : kind.endsOperand = false) :
    Faulty ((some kind).any TokenKind.endsOperand) ("/ " ++ digits).toList .unterminatedRegex := by
  have htext : ("/ " ++ digits).toList = '/' :: ' ' :: digits.toList := by simp
  rw [htext]
  refine .unterminatedRegex hkind fun pattern more _ heq => ?_
  have hslash : '/' ∈ ' ' :: digits.toList := by
    rw [heq]
    simp
  rcases List.mem_cons.1 hslash with hslash | hslash
  · exact absurd hslash (by decide)
  · exact absurd (hdigits _ hslash) (by decide)

variable (hne : digits.toList ≠ [])
include hne

/-- Behind a word that ends an operand, `/` is the operator. -/
lemma lexing_divide_digits (hkind : kind.endsOperand = true) :
    ∃ sign number stop, Lexing (some kind) p ("/ " ++ digits).toList [sign, number, stop] ∧
      sign.spelling = (.symbol .slash, "/") ∧ number.spelling = (.number, digits) ∧
        stop.kind = .eof := by
  have htext : ("/ " ++ digits).toList = ['/'] ++ ([' '] ++ digits.toList) := by simp
  have hslash : Lexes ((some kind).any TokenKind.endsOperand) ('/' :: ' ' :: (digits.toList ++ []))
      (verbatim (.symbol .slash) ['/'] _) := .slash hkind
  have hsign : Spells (some kind) ['/'] [(.symbol .slash, "/")] ([' '] ++ digits.toList ++ []) :=
    hslash.spells fun _ => endsText_space
  have hnumber : Spells (some (.symbol .slash)) digits.toList [(.number, digits)] [] :=
    spells_numeral (.whole hne hdigits) endsText_nil
  obtain ⟨front, stop, hparted, hfront⟩ :=
    (hsign.append (spells_space.append hnumber)).exists_tokens p
  have hstop := hparted.lexing.kind_stop
  obtain ⟨sign, front, rfl, hsign, hfront⟩ := List.map_eq_cons_iff.1 hfront
  obtain ⟨number, rfl, hnumber⟩ := List.map_eq_singleton_iff.1 hfront
  rw [htext]
  exact ⟨sign, number, stop, hparted.lexing, hsign, hnumber, hstop⟩

/-- Behind a word that ends an operand, `-` is the operator. -/
lemma lexing_subtract_digits (hkind : kind.endsOperand = true) :
    ∃ sign number stop, Lexing (some kind) p ("-" ++ digits).toList [sign, number, stop] ∧
      sign.spelling = (.symbol .minus, "-") ∧ number.spelling = (.number, digits) ∧
        stop.kind = .eof := by
  have htext : ("-" ++ digits).toList = '-' :: digits.toList := by simp
  have hnumber : Spells (some (.symbol .minus)) digits.toList [(.number, digits)] [] :=
    spells_numeral (.whole hne hdigits) endsText_nil
  obtain ⟨front, stop, hparted, hfront⟩ := hnumber.exists_tokens (p.after ['-'])
  have hstop := hparted.lexing.kind_stop
  obtain ⟨number, rfl, hnumber⟩ := List.map_eq_singleton_iff.1 hfront
  have hsign : Lexes ((some kind).any TokenKind.endsOperand) ('-' :: digits.toList)
      (verbatim (.symbol .minus) ['-'] digits.toList) := .minus fun _ => hkind
  have hlexing : Lexing (some kind) p ([] ++ '-' :: digits.toList) _ :=
    .lexeme .nil hsign hparted.lexing
  rw [htext]
  exact ⟨_, number, stop, hlexing, rfl, hnumber, hstop⟩

/-- Behind any other word, `-` begins a number. -/
lemma lexing_negative_digits (hkind : kind.endsOperand = false) :
    ∃ stop, Lexing (some kind) p ("-" ++ digits).toList [⟨.number, "-" ++ digits, p⟩, stop] ∧
      stop.kind = .eof := by
  have htext : ("-" ++ digits).toList = '-' :: digits.toList := by simp
  have hstart : startsDigit digits.toList = true := by
    obtain ⟨c, more, hcons⟩ := List.exists_cons_of_ne_nil hne
    simpa [startsDigit, hcons] using hdigits c (by simp [hcons])
  have hsplit := splitNumber_numeral (.whole hne hdigits) endsText_nil
  have hnumber : Lexes ((some kind).any TokenKind.endsOperand) ("-" ++ digits).toList
      (verbatim .number ("-" ++ digits).toList []) := by
    have hl : Lexes ((some kind).any TokenKind.endsOperand) ('-' :: digits.toList) _ :=
      .negative hstart hkind
    rw [List.append_nil] at hsplit
    rw [htext]
    rwa [numberFrom, hsplit] at hl
  have hlexing : Lexing (some kind) p ([] ++ ("-" ++ digits).toList) _ :=
    .lexeme .nil hnumber (.stop (.closed .nil))
  rw [text_verbatim, String.ofList_toList] at hlexing
  exact ⟨_, hlexing, rfl⟩

end Digits

/-! ### Queries -/

section Queries

variable {limits : ParserLimits} {kind : TokenKind} {body : List Token} {sign number stop : Token}
  (hkind : kind.isWord = true) (hstop : stop.kind = .eof) (htokens : 6 ≤ limits.maxTokens)
include hkind hstop htokens

/-- What stands behind the word is read in its place. -/
lemma parseTokens_assignedWord [Libraries] (hbody : ∀ t ∈ body, t.kind ≠ .eof)
    (hlength : body.length ≤ 2) :
    parseTokens limits (assignedWordTokens kind word ++ body ++ [stop]) =
      (Parser.stages ⟨stop, limits.maxDepth⟩ (assignedWordTokens kind word ++ body)).map
        fun parsed => ⟨parsed.value⟩ := by
  have hword : kind ≠ .eof := by
    rintro rfl
    cases hkind
  have hkinds : ∀ t ∈ assignedWordTokens kind word ++ body, t.kind ≠ .eof := by
    refine List.forall_mem_append.2 ⟨?_, hbody⟩
    simp [assignedWordTokens, hword]
  have hall : (assignedWordTokens kind word ++ body).length = 4 + body.length :=
    List.length_append
  rw [parseTokens_snoc limits hstop hkinds, if_neg (by omega)]

variable (hnull : Text.equalIgnoringCase word "null" = false) (hnumber : number.kind = .number)
  (hdepth : 0 < limits.maxDepth)
include hnull hnumber hdepth

/-- With the operator in it, the query is one `eval` stage. -/
lemma parseTokens_operator [Libraries] {op : BinaryOperator} (hsign : sign.kind = op.kind) :
    parseTokens limits (assignedWordTokens kind word ++ [sign, number, stop]) =
      .ok ⟨[.eval [⟨"x", .binary op (.field word)
        (.literal (Parser.numberLiteral number.text))⟩]]⟩ := by
  obtain ⟨n, hn⟩ := Nat.exists_eq_add_of_lt hdepth
  have hbody : ∀ t ∈ [sign, number], t.kind ≠ .eof := by
    have hop : op.kind ≠ .eof := by cases op <;> nofun
    simp [hsign, hop, hnumber]
  have hword : Parser.DerivesExpr .primary (0 + n + 1) [⟨kind, word, ⟨1, 10⟩⟩] (.field word) :=
    .field hkind hnull
  have hderives := Parser.DerivesExpr.operation hsign hword (.number hnumber)
  have hread : Parser.eval.Reads ⟨stop, limits.maxDepth⟩
      (⟨.identifier, "x", ⟨1, 6⟩⟩ :: ⟨.symbol .eq, "=", ⟨1, 8⟩⟩ :: _) _ [] :=
    Parser.reads_eval rfl rfl hderives (Nat.le_of_eq hn.symm)
  obtain ⟨_, hstages⟩ :=
    Parser.reads_stages_single (t := ⟨.command .eval, "eval", ⟨1, 1⟩⟩) rfl hread
  have hparse : parseTokens limits (assignedWordTokens kind word ++ [sign, number] ++ [stop]) = _ :=
    parseTokens_assignedWord hkind hstop htokens hbody (Nat.le_refl 2)
  exact hparse.trans (congrArg _ hstages)

/-- A number behind the word begins nothing. -/
lemma parseTokens_number [Libraries] :
    parseTokens limits (assignedWordTokens kind word ++ [number, stop]) =
    .error ⟨.expected .pipeOrEnd, number⟩ := by
  obtain ⟨n, hn⟩ := Nat.exists_eq_add_of_lt hdepth
  have hbody : ∀ t ∈ [number], t.kind ≠ .eof := by simp [hnumber]
  have hword : Parser.DerivesExpr .primary (0 + n + 1) [⟨kind, word, ⟨1, 10⟩⟩] (.field word) :=
    .field hkind hnull
  have hends : Parser.EndsLevel .disjunction [number] := by
    refine Parser.endsLevel_cons ?_ fun op => ?_ <;> rw [hnumber]
    · nofun
    · cases op <;> nofun
  have hcomma : ∀ t ∈ [number].head?, t.kind ≠ .symbol .comma := by simp [hnumber]
  have hread : Parser.eval.Reads ⟨stop, limits.maxDepth⟩
      (⟨.identifier, "x", ⟨1, 6⟩⟩ :: ⟨.symbol .eq, "=", ⟨1, 8⟩⟩ :: _) _ [number] :=
    Parser.reads_assignment rfl rfl hword.disjunction_of (Nat.le_of_eq hn.symm) hends hcomma
  have hpipe : number.kind ≠ .symbol .pipe := by
    rw [hnumber]
    nofun
  have hstages : Parser.stages _ _ = _ :=
    Parser.stages_eq_error (t := ⟨.command .eval, "eval", ⟨1, 1⟩⟩) rfl hread hpipe
  have hparse : parseTokens limits (assignedWordTokens kind word ++ [number] ++ [stop]) = _ :=
    parseTokens_assignedWord hkind hstop htokens hbody (Nat.le_succ 1)
  exact hparse.trans (congrArg _ hstages)

end Queries

/-- A word ends an operand unless a slash behind it opens a regular expression. -/
lemma endsOperand_wordKind_iff :
    (wordKind word.toList).endsOperand = true ↔ ¬ (EvalExpr.field word).PrecedesRegex := by
  refine ⟨?_, EvalExpr.endsOperand_wordKind⟩
  rintro hends ⟨kind, hkeyword, haggregate⟩
  have hall : ∀ entry ∈ TokenKind.keywords,
      entry.2.isAggregate = false → entry.2.endsOperand = false := by decide
  rw [wordKind, String.ofList_toList, hkeyword, Option.getD_some,
    hall _ (ofKeyword?_eq_some.1 hkeyword) haggregate] at hends
  cases hends

/-- Behind a word that is a field, a slash and a minus in front of digits are operators unless the
word is a keyword that names no aggregation. Behind such a keyword the slash opens a regular
expression that nothing closes, and the minus begins a number, where the query should end. -/
theorem parseQuery_operator [Libraries] {limits : ParserLimits} (htokens : 6 ≤ limits.maxTokens)
    (hdepth : 0 < limits.maxDepth) (hword : IsWord word.toList)
    (hnull : Text.equalIgnoringCase word "null" = false) (hne : digits ≠ "")
    (hdigits : ∀ c ∈ digits.toList, c.isDigit = true) :
    let divided := "eval x = " ++ word ++ " / " ++ digits
    let reduced := "eval x = " ++ word ++ " -" ++ digits
    let assigned (op : BinaryOperator) : Pipeline :=
      ⟨[.eval [⟨"x", .binary op (.field word) (.literal (Parser.numberLiteral digits))⟩]]⟩
    let behind : Position := ⟨1, word.length + 11⟩
    (¬ (EvalExpr.field word).PrecedesRegex →
      (∃ sign number stop, tokenize divided =
          .ok (assignedWordTokens (wordKind word.toList) word ++ [sign, number, stop]) ∧
        sign.spelling = (.symbol .slash, "/") ∧ number.spelling = (.number, digits)) ∧
      parseQuery limits divided = .ok (assigned .divide) ∧
      parseQuery limits reduced = .ok (assigned .subtract)) ∧
    ((EvalExpr.field word).PrecedesRegex →
      tokenize divided = .error ⟨.unterminatedRegex, behind⟩ ∧
      parseQuery limits reduced =
        .error (.parse ⟨.expected .pipeOrEnd, ⟨.number, "-" ++ digits, behind⟩⟩)) := by
  intro divided reduced assigned behind
  have hdivided : divided = assignedWord word ++ ("/ " ++ digits) := by
    simp only [divided, assignedWord, String.append_assoc]
    rfl
  have hreduced : reduced = assignedWord word ++ ("-" ++ digits) := by
    simp only [reduced, assignedWord, String.append_assoc]
    rfl
  have hkind := isWord_wordKind word.toList
  have hne : digits.toList ≠ [] := fun hnil => hne (String.toList_eq_nil_iff.1 hnil)
  rw [hdivided, hreduced]
  constructor
  · intro hoperand
    have hends := endsOperand_wordKind_iff.2 hoperand
    obtain ⟨slash, number, stop, hlexing, hslash, hnumber, hstop⟩ :=
      lexing_divide_digits (p := behind) hdigits hne hends
    obtain ⟨minus, number', stop', hlexing', hminus, hnumber', hstop'⟩ :=
      lexing_subtract_digits (p := behind) hdigits hne hends
    have hdivide := tokenize_assignedWord_of_lexing hword hlexing
    have hsubtract := tokenize_assignedWord_of_lexing hword hlexing'
    obtain ⟨hnumeral, htext⟩ := Token.spelling_eq.1 hnumber
    obtain ⟨hnumeral', htext'⟩ := Token.spelling_eq.1 hnumber'
    refine ⟨⟨slash, number, stop, hdivide, hslash, hnumber⟩, ?_, ?_⟩
    · have hsign : slash.kind = BinaryOperator.divide.kind := (Token.spelling_eq.1 hslash).1
      have hparse := parseTokens_operator hkind hstop htokens hnull hnumeral hdepth hsign
      rw [parseQuery, hdivide]
      simp only [hparse, htext, assigned]
    · have hsign : minus.kind = BinaryOperator.subtract.kind := (Token.spelling_eq.1 hminus).1
      have hparse := parseTokens_operator hkind hstop' htokens hnull hnumeral' hdepth hsign
      rw [parseQuery, hsubtract]
      simp only [hparse, htext', assigned]
  · intro hregex
    have hends : (wordKind word.toList).endsOperand = false :=
      Bool.eq_false_iff.2 fun hends => endsOperand_wordKind_iff.1 hends hregex
    obtain ⟨stop, hlexing, hstop⟩ := lexing_negative_digits (p := behind) hdigits hne hends
    have hnegative := tokenize_assignedWord_of_lexing hword hlexing
    have hnumber : (⟨.number, "-" ++ digits, behind⟩ : Token).kind = .number := rfl
    have hparse := parseTokens_number hkind hstop htokens hnull hnumber hdepth
    constructor
    · rw [tokenize_assignedWord hword, tokensFrom_of_faulty (faulty_slash_digits hdigits hends)]
      rfl
    · rw [parseQuery, hnegative]
      simp only [hparse]

/-- The name of an aggregation is divided, and a command is not, though both name fields. -/
theorem parseQuery_operator_limit :
    (6 ≤ 10 ∧ 0 < 1 ∧ "5" ≠ "" ∧ (∀ c ∈ "5".toList, c.isDigit = true) ∧
      ∀ word ∈ ["count", "limit"], IsWord word.toList ∧
        Text.equalIgnoringCase word "null" = false) ∧
    parseQuery ⟨10, 1⟩ "eval x = count / 5" = .ok ⟨[.eval [⟨"x",
      .binary .divide (.field "count") (.literal (Parser.numberLiteral "5"))⟩]]⟩ ∧
    tokenize "eval x = limit / 5" = .error ⟨.unterminatedRegex, ⟨1, 16⟩⟩ ∧
      parseQuery ⟨10, 1⟩ "eval x = limit -5" =
        .error (.parse ⟨.expected .pipeOrEnd, ⟨.number, "-5", ⟨1, 16⟩⟩⟩) := by
  have hcount : IsWord "count".toList := isWord_of_all rfl rfl
  have hlimit : IsWord "limit".toList := isWord_of_all rfl rfl
  have hdigits : ∀ c ∈ "5".toList, c.isDigit = true := List.all_eq_true.1 (by decide)
  have hnull : ∀ word ∈ ["count", "limit"], Text.equalIgnoringCase word "null" = false := by decide
  have hoperator {word : String} (hmem : word ∈ ["count", "limit"]) (hword : IsWord word.toList) :=
    have hlimits : 6 ≤ (⟨10, 1⟩ : ParserLimits).maxTokens := by decide
    parseQuery_operator hlimits (by decide) hword (hnull word hmem) (by decide) hdigits
  have hends : ¬ (EvalExpr.field "count").PrecedesRegex := endsOperand_wordKind_iff.1 (by decide)
  have hregex : (EvalExpr.field "limit").PrecedesRegex := ⟨.command .limit, by decide, rfl⟩
  refine ⟨⟨by decide, by decide, by decide, hdigits, ?_⟩, ?_, ?_⟩
  · simp only [List.forall_mem_cons, hcount, hlimit, true_and] at hnull ⊢
    exact ⟨hnull.1, hnull.2.1, nofun⟩
  · exact ((hoperator (by simp) hcount).1 hends).2.1
  · exact (hoperator (by simp) hlimit).2 hregex

end LogQuery
