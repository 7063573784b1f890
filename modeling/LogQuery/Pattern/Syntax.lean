namespace LogQuery.Pattern

/-- A flag that changes how a part of an expression is read or matched. -/
inductive Flag where
  | ignoreCase | multiLine | dotAll | swapGreed | unicode | crlf | verbose
  deriving DecidableEq, Repr

def Flag.ofChar? : Char → Option Flag
  | 'i' => some .ignoreCase
  | 'm' => some .multiLine
  | 's' => some .dotAll
  | 'U' => some .swapGreed
  | 'u' => some .unicode
  | 'R' => some .crlf
  | 'x' => some .verbose
  | _ => none

/-- Flags that are switched on or off, each at most once. -/
abbrev Settings := List (Flag × Bool)

/-- A character that stands for itself; `isByte` if it was written by two hexadecimal digits,
which outside Unicode mode name a byte. -/
structure Literal where
  char : Char
  isByte : Bool
  deriving DecidableEq, Repr

/-- The classes of characters that have an escape of their own. -/
inductive Shorthand where
  | digit | space | word
  deriving DecidableEq, Repr

/-- An operation on two classes of characters. -/
inductive ClassOp where
  | intersection | difference | symmetricDifference
  deriving DecidableEq, Repr

inductive CharClass where
  | literal (l : Literal)
  | range (low high : Literal)
  | ascii (name : String) (negated : Bool)
  | shorthand (kind : Shorthand) (negated : Bool)
  | property (name : List Char) (value : Option (List Char)) (negated : Bool)
  | bracketed (negated : Bool) (inner : CharClass)
  | union (members : List CharClass)
  | operation (op : ClassOp) (left right : CharClass)
  deriving Repr, Inhabited

/-- What the text of a regular expression is read as. It keeps what decides whether the expression
is acceptable. -/
inductive Node where
  | flags (settings : Settings)
  | literal (l : Literal)
  | dot
  | assertion
  | chars (set : CharClass)
  | repetition (sub : Node) (least : Nat) (most : Option Nat)
  | capture (name : Option String) (sub : Node)
  | group (settings : Settings) (sub : Node)
  | alternation (branches : List Node)
  | concat (items : List Node)
  deriving Repr, Inhabited

namespace CharClass

/-- Members read one after the other; a single one stands alone. -/
def ofMembers : List CharClass → CharClass
  | [c] => c
  | cs => .union cs

mutual

/-- How deep brackets, unions and operations are nested. -/
def depth : CharClass → Nat
  | .bracketed _ inner => inner.depth + 1
  | .union [] => 0
  | .union members => depthAll members + 1
  | .operation _ left right => max left.depth right.depth + 1
  | _ => 0

/-- The greatest depth of several classes. -/
def depthAll : List CharClass → Nat
  | [] => 0
  | c :: rest => max c.depth (depthAll rest)

end

end CharClass

namespace Node

/-- Items read one after the other; a single one stands alone. -/
def ofItems : List Node → Node
  | [n] => n
  | ns => .concat ns

/-- The branches of an alternation; a single one stands alone. -/
def ofBranches : List Node → Node
  | [n] => n
  | ns => .alternation ns

mutual

/-- How deep groups, repetitions, classes and rows of several items are nested. -/
def depth : Node → Nat
  | .chars set => set.depth
  | .repetition sub _ _ | .capture _ sub | .group _ sub => sub.depth + 1
  | .alternation branches => depthAll branches + 1
  | .concat [] => 0
  | .concat items => depthAll items + 1
  | _ => 0

/-- The greatest depth of several expressions. -/
def depthAll : List Node → Nat
  | [] => 0
  | n :: rest => max n.depth (depthAll rest)

end

mutual

/-- The names of the named groups, in the order in which they open. -/
def captureNames : Node → List String
  | .capture name sub => name.toList ++ sub.captureNames
  | .repetition sub _ _ | .group _ sub => sub.captureNames
  | .alternation branches => captureNamesAll branches
  | .concat items => captureNamesAll items
  | _ => []

/-- The names of the named groups of several expressions. -/
def captureNamesAll : List Node → List String
  | [] => []
  | n :: rest => n.captureNames ++ captureNamesAll rest

end

end Node

end LogQuery.Pattern
