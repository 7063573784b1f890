import LogQuery.Parser.Pipeline
import Mathlib.Tactic.Lemma

/-!
# Walks over tokens

A parser with a cursor keeps all tokens of the query and the index of the next one. It can look at
any index, stay where it is, or go round in a loop for ever. A `Walk` is such a parser. It keeps
account of what it does: a look at an index behind the last token and a round of a loop that takes
no token end the walk, and the cursor records the index of every token that is taken.

Only `advance` moves the cursor, by one token, and never past the end of the query.
-/

namespace LogQuery

/-- What a walk is over: tokens, of which the last one ends the query, under some limits. -/
structure Tape where
  tokens : List Token
  limits : ParserLimits

/-- Where a walk stands, how many levels are open there, and the indices of the tokens that were
taken so far, in order. -/
structure Cursor where
  position : Nat
  depth : Nat
  taken : List Nat
  deriving DecidableEq, Repr

inductive WalkEnd (α : Type) where
  | done (value : α) (cursor : Cursor)
  | refused (error : ParseError) (cursor : Cursor)
  /-- There is no token at an index. -/
  | outOfRange
  /-- A round of a loop took no token, or a condition nests deeper than was provided for. -/
  | stuck
  deriving Repr

/-- A parser with a cursor. -/
def Walk (α : Type) := Tape → Cursor → WalkEnd α

namespace Walk

variable {α β σ : Type}

instance : Monad Walk where
  pure a _ c := .done a c
  bind w f tape c :=
    match w tape c with
    | .done a c' => f a tape c'
    | .refused e c' => .refused e c'
    | .outOfRange => .outOfRange
    | .stuck => .stuck

lemma bind_apply (w : Walk α) (f : α → Walk β) (tape : Tape) (c : Cursor) :
    (w >>= f) tape c =
      (match w tape c with
      | .done a c' => f a tape c'
      | .refused e c' => .refused e c'
      | .outOfRange => .outOfRange
      | .stuck => .stuck : WalkEnd β) := rfl

instance : LawfulMonad Walk := LawfulMonad.mk' Walk
  (fun w => by
    funext tape c
    change (w >>= pure) tape c = w tape c
    rw [bind_apply]
    cases w tape c <;> rfl)
  (fun _ _ => rfl)
  (fun w f g => by
    funext tape c
    rw [bind_apply, bind_apply, bind_apply]
    cases w tape c <;> rfl)

/-! ### Tokens -/

def limits : Walk ParserLimits := fun tape c => .done tape.limits c

/-- The number of tokens, with the one that ends the query. -/
def size : Walk Nat := fun tape c => .done tape.tokens.length c

def tokenAt (index : Nat) : Walk Token := fun tape c =>
  match tape.tokens[index]? with
  | some t => .done t c
  | none => .outOfRange

/-- The token so many tokens ahead, or the last one. -/
def peek (ahead : Nat) : Walk Token := fun tape c =>
  tokenAt (min (c.position + ahead) (tape.tokens.length - 1)) tape c

def current : Walk Token := peek 0

/-- The next token is of some kind. -/
def check (kind : TokenKind) : Walk Bool := do return (← current).kind == kind

lemma check_ite_bind (kind : TokenKind) (w w' : Walk α) (f : α → Walk β) :
    (check kind >>= fun found => if found then w else w') >>= f =
      check kind >>= fun found => if found then w >>= f else w' >>= f := by
  rw [bind_assoc]
  congr 1
  funext found
  cases found with
  | false => rfl
  | true => rfl

def move : Walk Unit := fun _ c =>
  .done () { c with position := c.position + 1, taken := c.taken ++ [c.position] }

/-- Takes the next token. The end of the query stays. -/
def advance : Walk Token := do
  let t ← current
  if t.kind == .eof then return t
  else
    move
    return t

def refuse (token : Token) (fault : ParseFault) : Walk α := fun _ c => .refused ⟨fault, token⟩ c

/-- Refuses the next token, where something else may stand. -/
def unexpected (what : Expectation) : Walk α := do refuse (← current) (.expected what)

/-- Takes the next token, which has to be of some kind. -/
def consume (kind : TokenKind) (what : Expectation) : Walk Token := do
  if ← check kind then advance else unexpected what

def atStageEnd : Walk Bool := do
  let t ← current
  return t.kind == .symbol .pipe || t.kind == .eof

/-- The next token is the name of a parameter, and an equals sign is behind it. -/
def atParameter (name : String) : Walk Bool := do
  let t ← current
  if t.kind.isWord && Text.equalIgnoringCase t.text name then
    return (← peek 1).kind == .symbol .eq
  else return false

/-! ### Levels -/

def enter : Walk Unit := fun tape c =>
  if tape.limits.maxDepth < c.depth + 1 then
    (do refuse (← current) (.tooDeep tape.limits.maxDepth) : Walk Unit) tape
      { c with depth := c.depth + 1 }
  else .done () { c with depth := c.depth + 1 }

def leave : Walk Unit := fun _ c => .done () { c with depth := c.depth - 1 }

/-- No level is left for what nests. -/
def exhausted : Walk α := fun _ _ => .stuck

/-! ### Loops -/

/-- How a round of a loop ends. -/
inductive Round (σ α : Type) where
  | again (state : σ)
  | ended (value : α)

/-- Goes round until a round ends the loop. A round that goes on has to have moved the cursor, and
not past the last token. -/
def loop (round : σ → Walk (Round σ α)) (state : σ) : Walk α := fun tape c =>
  match round state tape c with
  | .done (.ended a) c' => .done a c'
  | .done (.again state') c' =>
    if c.position < c'.position ∧ c'.position < tape.tokens.length then
      loop round state' tape c'
    else .stuck
  | .refused e c' => .refused e c'
  | .outOfRange => .outOfRange
  | .stuck => .stuck
termination_by tape c => tape.tokens.length - c.position

end Walk

end LogQuery
