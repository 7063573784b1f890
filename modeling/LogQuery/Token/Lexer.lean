import LogQuery.Text.Alphabetic
import LogQuery.Text.Blank
import LogQuery.Token.Basic

/-!
# Reading tokens

A query is a row of tokens with gaps between them. A gap is made of blanks and of comments, which
run from a `#` to the end of the line. The reader takes one *lexeme* after the other: the part of
the query that makes up the next token, which is never empty, so that what is left to read grows
shorter (`lexeme_split`).

What a minus or a slash begins depends on the token before it, and on nothing else before it.
-/

namespace LogQuery

/-- Why a query is no row of tokens. -/
inductive LexFault where
  /-- An exclamation mark that no equals sign follows. -/
  | loneExclamation
  | unterminatedString
  | unterminatedRegex
  /-- A character that begins no token. -/
  | unexpected (c : Char)
  deriving DecidableEq, Repr

/-- A fault and the place of the character where it arises. -/
structure LexError where
  fault : LexFault
  position : Position
  deriving DecidableEq, Repr

def LexFault.message : LexFault → String
  | .loneExclamation => "Unexpected character '!' (did you mean '!='?)"
  | .unterminatedString => "Unterminated string literal"
  | .unterminatedRegex => "Unterminated regular expression"
  | .unexpected c => "Unexpected character '" ++ c.toString ++ "'"

def LexError.message (e : LexError) : String :=
  e.fault.message ++ " at " ++ e.position.describe

namespace Lexer

/-- The next token of a query: its kind, its text, the part of the query that it takes, and what
is left behind it. -/
structure Lexeme where
  kind : TokenKind
  text : List Char
  source : List Char
  rest : List Char
  deriving Repr

/-! ### Gaps, words and literals -/

/-- The gap at the start of a text, and what is left behind it. -/
def splitGap (inComment : Bool) : List Char → List Char × List Char
  | [] => ([], [])
  | c :: rest =>
    if inComment || Text.isBlank c || c = '#' then
      let (gap, rest) := splitGap ((inComment && c != '\n') || (!inComment && c = '#')) rest
      (c :: gap, rest)
    else ([], c :: rest)

def isWordChar (c : Char) : Bool := Text.isAlphanumeric c || c = '_' || c = '.'

def isWordStart (c : Char) : Bool := Text.isAlphabetic c || c = '_'

/-- The digits and points at the start of a text. A point belongs to them if a digit or a star
follows it. -/
def splitNumber : List Char → List Char × List Char
  | [] => ([], [])
  | c :: rest =>
    if c.isDigit || (c = '.' && rest.head?.any fun d => d.isDigit || d = '*') then
      let (digits, rest) := splitNumber rest
      (c :: digits, rest)
    else ([], c :: rest)

/-- A literal after its opening delimiter: its content, the part of the query with the closing
delimiter, and what is left. -/
structure Quoted where
  content : List Char
  source : List Char
  rest : List Char

def Quoted.cons (content source : List Char) (q : Quoted) : Quoted :=
  ⟨content ++ q.content, source ++ q.source, q.rest⟩

/-- A string after its opening quote. A backslash escapes the closing quote, and nothing else. -/
def splitString (quote : Char) : List Char → Option Quoted
  | [] => none
  | [c] => if c = quote then some ⟨[], [c], []⟩ else none
  | c :: d :: rest =>
    if c = quote then some ⟨[], [c], d :: rest⟩
    else if c = '\\' ∧ d = quote then (splitString quote rest).map (·.cons [d] [c, d])
    else (splitString quote (d :: rest)).map (·.cons [c] [c])

/-- A regular expression after its opening slash. A backslash keeps the next character from
closing it; both stay in the content. -/
def splitRegex : List Char → Option Quoted
  | [] => none
  | [c] => if c = '/' then some ⟨[], [c], []⟩ else none
  | c :: d :: rest =>
    if c = '/' then some ⟨[], [c], d :: rest⟩
    else if c = '\\' then (splitRegex rest).map (·.cons [c, d] [c, d])
    else (splitRegex (d :: rest)).map (·.cons [c] [c])

/-! ### Lexemes -/

/-- The symbols that are one character and begin no other token. -/
def symbol? (c : Char) : Option Symbol :=
  match c with
  | '|' => some .pipe
  | ',' => some .comma
  | '(' => some .lParen
  | ')' => some .rParen
  | '*' => some .star
  | '+' => some .plus
  | '~' => some .tilde
  | _ => none

/-- The comparisons that one character writes, alone and with an equals sign behind it. -/
def comparison? (c : Char) : Option (Symbol × Symbol) :=
  match c with
  | '=' => some (.eq, .eq)
  | '<' => some (.lt, .ltEq)
  | '>' => some (.gt, .gtEq)
  | _ => none

/-- A lexeme whose text is what stands in the query. -/
def verbatim (kind : TokenKind) (source rest : List Char) : Lexeme := ⟨kind, source, source, rest⟩

/-- The number that begins with the first character. -/
def numberFrom (c : Char) (rest : List Char) : Lexeme :=
  let (digits, rest) := splitNumber rest
  verbatim .number (c :: digits) rest

/-- The word that begins with the first character. -/
def wordFrom (c : Char) (rest : List Char) : Lexeme :=
  let word := c :: rest.takeWhile isWordChar
  let kind := (TokenKind.ofKeyword? (String.ofList word)).getD .identifier
  verbatim kind word (rest.dropWhile isWordChar)

/-- The first character of a text is a digit. -/
def startsDigit (cs : List Char) : Bool := cs.head?.any Char.isDigit

/-- The next character of a text is an equals sign. -/
def splitEquals : List Char → Option (List Char)
  | '=' :: rest => some rest
  | _ => none

/-- The lexeme that begins with a character, given whether the token before it ends an
operand. -/
def lexeme (afterOperand : Bool) (c : Char) (rest : List Char) : Except LexFault Lexeme :=
  if let some s := symbol? c then .ok (verbatim (.symbol s) [c] rest)
  else if let some (alone, withEquals) := comparison? c then
    match splitEquals rest with
    | some rest' => .ok (verbatim (.symbol withEquals) [c, '='] rest')
    | none => .ok (verbatim (.symbol alone) [c] rest)
  else if c = '!' then
    match splitEquals rest with
    | some rest' => .ok (verbatim (.symbol .notEq) [c, '='] rest')
    | none => .error .loneExclamation
  else if c = '-' then
    if startsDigit rest && !afterOperand then .ok (numberFrom c rest)
    else .ok (verbatim (.symbol .minus) [c] rest)
  else if c = '/' then
    if afterOperand then .ok (verbatim (.symbol .slash) [c] rest)
    else
      match splitRegex rest with
      | some q => .ok ⟨.regex, q.content, c :: q.source, q.rest⟩
      | none => .error .unterminatedRegex
  else if c = '"' ∨ c = '\'' then
    match splitString c rest with
    | some q => .ok ⟨.string, q.content, c :: q.source, q.rest⟩
    | none => .error .unterminatedString
  else if c.isDigit then .ok (numberFrom c rest)
  else if isWordStart c then .ok (wordFrom c rest)
  else .error (.unexpected c)

/-! ### Nothing is lost -/

theorem splitGap_append (inComment : Bool) (cs : List Char) :
    (splitGap inComment cs).1 ++ (splitGap inComment cs).2 = cs := by
  induction cs generalizing inComment with
  | nil => rfl
  | cons c rest ih =>
    simp only [splitGap]
    split
    · simp [ih]
    · simp

theorem splitNumber_append (cs : List Char) : (splitNumber cs).1 ++ (splitNumber cs).2 = cs := by
  induction cs with
  | nil => rfl
  | cons c rest ih =>
    simp only [splitNumber]
    split
    · simp [ih]
    · simp

theorem splitString_append {quote : Char} {cs : List Char} {q : Quoted}
    (h : splitString quote cs = some q) : q.source ++ q.rest = cs := by
  fun_induction splitString quote cs generalizing q with
  | case1 => simp at h
  | case2 | case4 => simp at h; simp [← h]
  | case3 => simp at h
  | case5 _ _ _ _ _ ih | case6 _ _ _ _ _ ih =>
    obtain ⟨q', hq, rfl⟩ := Option.map_eq_some_iff.1 h
    simp [Quoted.cons, ih hq]

theorem splitRegex_append {cs : List Char} {q : Quoted} (h : splitRegex cs = some q) :
    q.source ++ q.rest = cs := by
  fun_induction splitRegex cs generalizing q with
  | case1 => simp at h
  | case2 | case4 => simp at h; simp [← h]
  | case3 => simp at h
  | case5 _ _ _ ih | case6 _ _ _ _ _ ih =>
    obtain ⟨q', hq, rfl⟩ := Option.map_eq_some_iff.1 h
    simp [Quoted.cons, ih hq]

/-- A lexeme and what is left behind it are the text that was read. -/
theorem lexeme_split {afterOperand : Bool} {c : Char} {rest : List Char} {l : Lexeme}
    (h : lexeme afterOperand c rest = .ok l) :
    ∃ more, l.source = c :: more ∧ more ++ l.rest = rest := by
  have equals : ∀ {cs cs' : List Char}, splitEquals cs = some cs' → '=' :: cs' = cs := by
    intro cs cs' h
    unfold splitEquals at h
    split at h
    · cases h; rfl
    · cases h
  have number := splitNumber_append rest
  unfold lexeme at h
  split at h
  · cases h; exact ⟨[], rfl, rfl⟩
  split at h
  · split at h
    · cases h; rename_i heq; exact ⟨['='], rfl, equals heq⟩
    · cases h; exact ⟨[], rfl, rfl⟩
  split at h
  · split at h
    · cases h; rename_i heq; exact ⟨['='], rfl, equals heq⟩
    · cases h
  split at h
  · split at h
    · cases h; exact ⟨_, rfl, number⟩
    · cases h; exact ⟨[], rfl, rfl⟩
  split at h
  · split at h
    · cases h; exact ⟨[], rfl, rfl⟩
    · split at h
      · cases h; rename_i heq; exact ⟨_, rfl, splitRegex_append heq⟩
      · cases h
  split at h
  · split at h
    · cases h; rename_i heq; exact ⟨_, rfl, splitString_append heq⟩
    · cases h
  split at h
  · cases h; exact ⟨_, rfl, number⟩
  split at h
  · cases h; exact ⟨_, rfl, List.takeWhile_append_dropWhile⟩
  · cases h

/-- What is left behind a gap is no longer than the text. -/
theorem splitGap_rest_length (cs : List Char) : (splitGap false cs).2.length ≤ cs.length := by
  have h := congrArg List.length (splitGap_append false cs)
  simp at h
  omega

/-! ### The tokens of a text -/

/-- The tokens of a text that stands at a position behind a token of some kind, the last of them
the end of the query. -/
def tokensFrom (previous : Option TokenKind) (position : Position) (cs : List Char) :
    Except LexError (List Token) :=
  let here := position.after (splitGap false cs).1
  match _hcs : (splitGap false cs).2 with
  | [] => .ok [⟨.eof, "", here⟩]
  | c :: rest =>
    match _hl : lexeme (previous.any TokenKind.endsOperand) c rest with
    | .error fault => .error ⟨fault, here⟩
    | .ok l =>
      (tokensFrom (some l.kind) (here.after l.source) l.rest).map
        (⟨l.kind, String.ofList l.text, here⟩ :: ·)
termination_by cs.length
decreasing_by
  have hgap := splitGap_rest_length cs
  obtain ⟨more, -, hmore⟩ := lexeme_split _hl
  have hlen := congrArg List.length hmore
  simp [_hcs] at hgap hlen
  omega

end Lexer

/-- The tokens of a query, the last of them the end of the query. -/
def tokenize (query : String) : Except LexError (List Token) :=
  Lexer.tokensFrom none .start query.toList

end LogQuery
