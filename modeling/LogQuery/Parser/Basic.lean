import LogQuery.Parser.Error

/-!
# Reading a list of tokens

A `Parser α` reads a value of type `α` from the front of a list of tokens, or refuses a token.
What it leaves is a tail of the list, by its type: no token is read twice, and none is skipped
but by reading it.

Repetition is guarded by the next token. The `turn` of a loop looks at the next token, and at
those behind it, and either ends the loop or reads on *behind* that token; so every round takes a
token, and the loop ends.
-/

namespace LogQuery

/-- A value read from a list of tokens, and the tail of the list that is left. -/
structure Parsed (α : Type) (ts : List Token) where
  value : α
  rest : List Token
  isSuffix : rest <:+ ts

/-- What holds for the whole of a query: the token at its end, and how deep it may nest. -/
structure Parser.Setting where
  stop : Token
  maxDepth : Nat

/-- Reads a value from the front of a list of tokens. -/
def Parser (α : Type) := Parser.Setting → (ts : List Token) → Except ParseError (Parsed α ts)

namespace Parser

variable {α β : Type}

instance : Monad Parser where
  pure a _ ts := .ok ⟨a, ts, List.suffix_rfl⟩
  bind p f setting ts :=
    match p setting ts with
    | .error e => .error e
    | .ok first =>
      match f first.value setting first.rest with
      | .error e => .error e
      | .ok second => .ok ⟨second.value, second.rest, second.isSuffix.trans first.isSuffix⟩

/-! ### The next token -/

def failAt (token : Token) (fault : ParseFault) : Parser α := fun _ _ => .error ⟨fault, token⟩

/-- Refuses the next token, or the end of the query. -/
def fail (fault : ParseFault) : Parser α := fun setting ts =>
  .error ⟨fault, ts.head?.getD setting.stop⟩

def nextKind? : Parser (Option TokenKind) := fun _ ts =>
  .ok ⟨ts.head?.map Token.kind, ts, List.suffix_rfl⟩

/-- The next token, whatever it is. -/
def take (what : Expectation) : Parser Token := fun setting ts =>
  match ts with
  | [] => .error ⟨.expected what, setting.stop⟩
  | t :: rest => .ok ⟨t, rest, rest.suffix_cons t⟩

/-- The next token, which has to be of some kind. -/
def expect (kind : TokenKind) (what : Expectation) : Parser Token := do
  let t ← take what
  if t.kind = kind then return t else failAt t (.expected what)

def tooDeep : Parser α := fun setting => fail (.tooDeep setting.maxDepth) setting

@[simp]
theorem tooDeep_bind (f : α → Parser β) : (tooDeep >>= f) = tooDeep := rfl

/-! ### Choice and repetition -/

/-- How reading goes on behind a token, given also the tokens after it; none to leave the token
where it is. -/
abbrev Turn (α : Type) := Token → List Token → Option (Parser α)

/-- One value, if the next token begins one. -/
def optional (turn : Turn α) : Parser (Option α) := fun setting ts =>
  match ts with
  | [] => .ok ⟨none, [], List.suffix_rfl⟩
  | t :: rest =>
    match turn t rest with
    | none => .ok ⟨none, t :: rest, List.suffix_rfl⟩
    | some p =>
      match p setting rest with
      | .error e => .error e
      | .ok one => .ok ⟨some one.value, one.rest, one.isSuffix.trans (rest.suffix_cons t)⟩

/-- Changes a state once for each token that begins a round. -/
def iterate (turn : α → Turn α) (state : α) : Parser α := fun setting ts =>
  match ts with
  | [] => .ok ⟨state, [], List.suffix_rfl⟩
  | t :: rest =>
    match turn state t rest with
    | none => .ok ⟨state, t :: rest, List.suffix_rfl⟩
    | some p =>
      match p setting rest with
      | .error e => .error e
      | .ok one =>
        match iterate turn one.value setting one.rest with
        | .error e => .error e
        | .ok more =>
          .ok ⟨more.value, more.rest,
            more.isSuffix.trans (one.isSuffix.trans (rest.suffix_cons t))⟩
termination_by _ ts => ts.length
decreasing_by exact Nat.lt_succ_of_le one.isSuffix.length_le

/-- The values of the rounds that have one, in order. -/
def many (turn : Turn (Option α)) : Parser (List α) := fun setting ts =>
  match ts with
  | [] => .ok ⟨[], [], List.suffix_rfl⟩
  | t :: rest =>
    match turn t rest with
    | none => .ok ⟨[], t :: rest, List.suffix_rfl⟩
    | some p =>
      match p setting rest with
      | .error e => .error e
      | .ok one =>
        match many turn setting one.rest with
        | .error e => .error e
        | .ok more =>
          .ok ⟨one.value.toList ++ more.value, more.rest,
            more.isSuffix.trans (one.isSuffix.trans (rest.suffix_cons t))⟩
termination_by _ ts => ts.length
decreasing_by exact Nat.lt_succ_of_le one.isSuffix.length_le

/-- Readers that have those of tokens among them, and that can be left out and repeated like them.
What nests is read by any kind of readers, so that one kind can do more, such as keeping count. -/
class Readers (M : Type → Type) where
  lift {α : Type} (p : Parser α) : M α
  optional {α : Type} (turn : Token → List Token → Option (M α)) : M (Option α)
  many {α : Type} (turn : Token → List Token → Option (M (Option α))) : M (List α)

instance : Readers Parser := ⟨fun p => p, optional, many⟩

@[simp]
theorem lift_eq (p : Parser α) : (Readers.lift p : Parser α) = p := rfl

@[simp]
theorem readersOptional_eq (turn : Turn α) :
    (Readers.optional turn : Parser (Option α)) = optional turn := rfl

@[simp]
theorem readersMany_eq (turn : Turn (Option α)) :
    (Readers.many turn : Parser (List α)) = many turn := rfl

/-! ### Words and what touches them -/

/-- A token of a kind that may continue a word that it touches. -/
def isGluable (k : TokenKind) : Bool :=
  k.isWord || k == .number || k == .symbol .star || k == .symbol .minus

/-- The tokens that continue a word that ends at a place, each of which touches the one before
it, and the tokens behind them. -/
def splitTouching (finish : Position) : List Token → List Token × List Token
  | [] => ([], [])
  | t :: rest =>
    if isGluable t.kind && t.position == finish then
      let (more, rest) := splitTouching t.finish rest
      (t :: more, rest)
    else ([], t :: rest)

theorem splitTouching_append (finish : Position) (ts : List Token) :
    (splitTouching finish ts).1 ++ (splitTouching finish ts).2 = ts := by
  induction ts generalizing finish with
  | nil => rfl
  | cons t rest ih =>
    simp only [splitTouching]
    split
    · simp [ih]
    · simp

/-- The text of a token together with those that touch it: `web-01`, `err*` and `5m` are three
words, though not three tokens. -/
def glue (t : Token) : Parser String := fun _ ts =>
  .ok ⟨t.text ++ String.join ((splitTouching t.finish ts).1.map Token.text),
    (splitTouching t.finish ts).2,
    ⟨(splitTouching t.finish ts).1, splitTouching_append t.finish ts⟩⟩

/-- A token that names a field: any word. -/
def fieldNameAt (t : Token) : Parser String :=
  if t.kind.isWord then pure t.text else failAt t (.expected .fieldName)

def fieldName : Parser String := do fieldNameAt (← take .fieldName)

/-- The name of a result: a word or a string. -/
def outputName : Parser String := do
  let t ← take .outputName
  if t.kind.isWord || t.kind == .string then return t.text
  else failAt t (.expected .outputName)

/-- A token, and those behind it, begin a parameter: its name and an equals sign. -/
def startsParameter (name : String) (t : Token) (rest : List Token) : Bool :=
  t.kind.isWord && Text.equalIgnoringCase t.text name &&
    rest.head?.any (·.kind == .symbol .eq)

/-- A parameter, if the next tokens begin it: what is read behind its equals sign. -/
def parameter (name : String) (value : Parser α) : Parser (Option α) :=
  optional fun t rest =>
    if startsParameter name t rest then some (expect (.symbol .eq) .equalsSign *> value) else none

/-- Takes the next token if it is of some kind, and tells whether it was. -/
def accept (kind : TokenKind) : Parser Bool := do
  let taken ← optional fun t _ => if t.kind = kind then some (pure ()) else none
  return taken.isSome

end Parser

end LogQuery
