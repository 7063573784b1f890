import LogQuery.Number.Power
import LogQuery.Pattern.Syntax
import LogQuery.Text.Alphabetic
import LogQuery.Text.Blank

/-!
# Reading regular expressions

The expression is read from left to right. What is open - groups, and inside a class the
brackets around it - is kept on a stack, so that reading is a single loop; every turn of it takes
at least one character, and the number of characters bounds the number of turns.

In *verbose* mode, which a flag switches on, blanks and comments between the parts of an
expression are skipped.
-/

namespace LogQuery.Pattern

/-! ### Small parts -/

/-- The text without blanks and comments in front, if the mode is verbose. -/
def skipLayout (verbose : Bool) (inComment : Bool) : List Char → List Char
  | [] => []
  | c :: rest =>
    if !verbose then c :: rest
    else if inComment then skipLayout verbose (c != '\n') rest
    else if Text.isBlank c then skipLayout verbose false rest
    else if c = '#' then skipLayout verbose true rest
    else c :: rest

/-- The text without blanks and comments in front, if the mode is verbose. -/
def skip (verbose : Bool) (cs : List Char) : List Char := skipLayout verbose false cs

/-- A hexadecimal digit's value. -/
def hexValue? (c : Char) : Option Nat :=
  if c.isDigit then some (c.toNat - '0'.toNat)
  else if 'a' ≤ c ∧ c ≤ 'f' then some (c.toNat - 'a'.toNat + 10)
  else if 'A' ≤ c ∧ c ≤ 'F' then some (c.toNat - 'A'.toNat + 10)
  else none

def charOf? (n : Nat) : Option Char := if n.isValidChar then some (Char.ofNat n) else none

/-- The number that `count` more hexadecimal digits write, and what follows them. -/
def readHexDigits (verbose : Bool) : Nat → Nat → List Char → Option (Nat × List Char)
  | 0, value, cs => some (value, cs)
  | _ + 1, _, [] => none
  | count + 1, value, c :: rest => do
    let digit ← hexValue? c
    readHexDigits verbose count (16 * value + digit) (skip verbose rest)

/-- The digits up to a closing brace, and what follows it. -/
def readBraced (verbose : Bool) : Nat → List Char → Option (List Char × List Char)
  | 0, _ => none
  | fuel + 1, cs =>
    match skip verbose cs with
    | [] => none
    | '\x7d' :: rest => some ([], rest)
    | c :: rest => (readBraced verbose fuel rest).map fun (name, rest) => (c :: name, rest)

/-- A character given by its code point, behind the letter that says how many digits it has. -/
def readHex (verbose : Bool) (letter : Char) (cs : List Char) : Option (Literal × List Char) :=
  match skip verbose cs with
  | [] => none
  | '\x7b' :: rest => do
    let (digits, rest) ← readBraced verbose (rest.length + 1) rest
    let values ← digits.mapM hexValue?
    if values.isEmpty then none
    else
      let char ← charOf? (values.foldl (fun n d => 16 * n + d) 0)
      return (⟨char, false⟩, skip verbose rest)
  | cs => do
    let count := if letter = 'x' then 2 else if letter = 'u' then 4 else 8
    let (value, rest) ← readHexDigits verbose count 0 cs
    return (⟨← charOf? value, letter = 'x'⟩, rest)

/-- The name in front of a mark, and the text behind it. -/
def splitAtMark (mark : List Char) : List Char → Option (List Char × List Char)
  | [] => none
  | c :: rest =>
    if mark.isPrefixOf (c :: rest) then some ([], (c :: rest).drop mark.length)
    else (splitAtMark mark rest).map fun (name, value) => (c :: name, value)

/-- The class that a property's name in braces asks for. -/
def propertyClass (negated : Bool) (name : List Char) : CharClass :=
  match splitAtMark ['!', '='] name with
  | some (name, value) => .property name (some value) !negated
  | none =>
    match splitAtMark [':'] name with
    | some (name, value) => .property name (some value) negated
    | none =>
      match splitAtMark ['='] name with
      | some (name, value) => .property name (some value) negated
      | none => .property name none negated

/-- A class given by a property: one letter, or a name in braces. -/
def readProperty (verbose negated : Bool) (cs : List Char) : Option (CharClass × List Char) :=
  match skip verbose cs with
  | [] => none
  | '\\' :: _ => none
  | '\x7b' :: rest => do
    let (name, rest) ← readBraced verbose (rest.length + 1) rest
    return (propertyClass negated name, rest)
  | c :: rest => some (.property [c] none negated, skip verbose rest)

/-! ### Escapes -/

inductive Primitive where
  | literal (l : Literal)
  | chars (set : CharClass)
  | assertion

/-- The characters that mean something else when they are not escaped. -/
def isMeta (c : Char) : Bool := "\\.+*?()|[]\x7b\x7d^$#&-~".toList.contains c

/-- A character that may be escaped and then stands for itself: any ASCII character but letters,
digits and the angle brackets, which have meanings of their own. -/
def isEscapable (c : Char) : Bool :=
  isMeta c || (c.toNat < 128 && !c.isAlphanum && c != '<' && c != '>')

/-- The letters that stand for control characters. -/
def controlEscape? : Char → Option Char
  | 'a' => some (Char.ofNat 7)
  | 'f' => some (Char.ofNat 12)
  | 't' => some '\t'
  | 'n' => some '\n'
  | 'r' => some '\r'
  | 'v' => some (Char.ofNat 11)
  | _ => none

/-- The class that a letter stands for. -/
def shorthand? : Char → Option CharClass
  | 'd' => some (.shorthand .digit false)
  | 'D' => some (.shorthand .digit true)
  | 's' => some (.shorthand .space false)
  | 'S' => some (.shorthand .space true)
  | 'w' => some (.shorthand .word false)
  | 'W' => some (.shorthand .word true)
  | _ => none

/-- A letter inside the braces behind a word boundary. -/
def isBoundaryLetter (c : Char) : Bool := c.isAlpha || c = '-'

/-- What follows a word boundary: the name of a special boundary in braces is part of it, a
repetition in braces is not. -/
def afterBoundary (verbose : Bool) (cs : List Char) : Option (List Char) :=
  match cs with
  | '\x7b' :: inside =>
    match skip verbose inside with
    | [] => none
    | c :: _ =>
      if isBoundaryLetter c then do
        let (name, rest) ← readBraced verbose (inside.length + 1) inside
        if ["start", "end", "start-half", "end-half"].contains (String.ofList name) then
          some rest
        else none
      else some cs
  | _ => some cs

/-- An escape after its backslash. There are no references to groups. -/
def readEscape (verbose : Bool) : List Char → Option (Primitive × List Char)
  | [] => none
  | c :: rest =>
    if c.isDigit then none
    else if c = 'x' ∨ c = 'u' ∨ c = 'U' then
      (readHex verbose c rest).map fun (l, rest) => (.literal l, rest)
    else if c = 'p' ∨ c = 'P' then
      (readProperty verbose (c = 'P') rest).map fun (set, rest) => (.chars set, rest)
    else if let some set := shorthand? c then some (.chars set, rest)
    else if isEscapable c then some (.literal ⟨c, false⟩, rest)
    else if let some control := controlEscape? c then some (.literal ⟨control, false⟩, rest)
    else if c = 'b' then (afterBoundary verbose rest).map fun rest => (.assertion, rest)
    else if ['A', 'z', 'B', '<', '>'].contains c then some (.assertion, rest)
    else none

/-! ### Classes in brackets -/

def asciiClasses : List String :=
  ["alnum", "alpha", "ascii", "blank", "cntrl", "digit", "graph", "lower", "print", "punct",
    "space", "upper", "word", "xdigit"]

/-- An ASCII class after its opening bracket, such as `:alpha:]`. -/
def readAsciiClass : List Char → Option (CharClass × List Char)
  | ':' :: rest =>
    let negated := rest.head? == some '^'
    let rest := if negated then rest.drop 1 else rest
    let name := String.ofList (rest.takeWhile (· != ':'))
    match rest.dropWhile (· != ':') with
    | ':' :: ']' :: rest =>
      if asciiClasses.contains name then some (.ascii name negated, rest) else none
    | _ => none
  | _ => none

/-- A class whose bracket is still open: whether it is negated, the operand and the operation in
front of the current members, and the current members, the last one first. -/
structure OpenClass where
  negated : Bool
  pending : Option (ClassOp × CharClass)
  members : List CharClass

namespace OpenClass

def add (o : OpenClass) (c : CharClass) : OpenClass := { o with members := c :: o.members }

/-- The operand that ends here. -/
def operand (o : OpenClass) : CharClass :=
  let current := CharClass.ofMembers o.members.reverse
  match o.pending with
  | none => current
  | some (op, left) => .operation op left current

def operate (o : OpenClass) (op : ClassOp) : OpenClass := ⟨o.negated, some (op, o.operand), []⟩

/-- The class at its closing bracket. -/
def close (o : OpenClass) : CharClass := .bracketed o.negated o.operand

end OpenClass

/-- Hyphens at the start of a class stand for themselves. -/
def readHyphens (verbose : Bool) : Nat → OpenClass → List Char → Option (OpenClass × List Char)
  | 0, _, _ => none
  | fuel + 1, o, cs =>
    match cs with
    | [] => none
    | '-' :: rest => readHyphens verbose fuel (o.add (.literal ⟨'-', false⟩)) (skip verbose rest)
    | cs => some (o, cs)

/-- A class after its opening bracket. A closing bracket that comes first stands for itself. -/
def openClass (verbose : Bool) (cs : List Char) : Option (OpenClass × List Char) := do
  let cs := skip verbose cs
  let negated := cs.head? == some '^'
  let cs := if negated then skip verbose (cs.drop 1) else cs
  let (o, cs) ← readHyphens verbose (cs.length + 1) ⟨negated, none, []⟩ cs
  match o.members, cs with
  | [], ']' :: rest =>
    let rest := skip verbose rest
    if rest.isEmpty then none else some (o.add (.literal ⟨']', false⟩), rest)
  | _, _ => some (o, cs)

/-- One character, escape or class inside brackets. -/
def readMember (verbose : Bool) : List Char → Option (Primitive × List Char)
  | [] => none
  | '\\' :: rest => readEscape verbose rest
  | c :: rest => some (.literal ⟨c, false⟩, rest)

/-- A member of a class, or a range of characters. A hyphen in front of a closing bracket or of
another hyphen makes no range. -/
def readRange (verbose : Bool) (cs : List Char) : Option (CharClass × List Char) := do
  let (first, rest) ← readMember verbose cs
  let alone (rest : List Char) : Option (CharClass × List Char) :=
    match first with
    | .literal l => some (.literal l, rest)
    | .chars set => some (set, rest)
    | .assertion => none
  match skip verbose rest with
  | [] => none
  | '-' :: rest =>
    let ahead := (skip verbose rest).head?
    if ahead == some ']' || ahead == some '-' then alone ('-' :: rest)
    else
      match first, ← readMember verbose (skip verbose rest) with
      | .literal low, (.literal high, rest) =>
        if low.char ≤ high.char then some (.range low high, rest) else none
      | _, _ => none
  | rest => alone rest

/-- The rest of a class, inside the classes of the stack. -/
def readClassFrom (verbose : Bool) :
    Nat → List OpenClass → OpenClass → List Char → Option (CharClass × List Char)
  | 0, _, _, _ => none
  | fuel + 1, stack, o, cs =>
    match skip verbose cs with
    | [] => none
    | '[' :: rest =>
      match readAsciiClass rest with
      | some (set, rest) => readClassFrom verbose fuel stack (o.add set) rest
      | none => do
        let (inner, rest) ← openClass verbose rest
        readClassFrom verbose fuel (o :: stack) inner rest
    | ']' :: rest =>
      match stack with
      | [] => some (o.close, rest)
      | outer :: stack => readClassFrom verbose fuel stack (outer.add o.close) rest
    | '&' :: '&' :: rest => readClassFrom verbose fuel stack (o.operate .intersection) rest
    | '-' :: '-' :: rest => readClassFrom verbose fuel stack (o.operate .difference) rest
    | '~' :: '~' :: rest =>
      readClassFrom verbose fuel stack (o.operate .symmetricDifference) rest
    | cs => do
      let (set, rest) ← readRange verbose cs
      readClassFrom verbose fuel stack (o.add set) rest

/-- A class after its opening bracket. -/
def readClass (verbose : Bool) (cs : List Char) : Option (CharClass × List Char) := do
  let (o, rest) ← openClass verbose cs
  readClassFrom verbose (cs.length + 1) [] o rest

/-! ### Repetitions -/

/-- The digits at the start of a text, in verbose mode with layout behind each of them, and what
follows them. -/
def readDigits (verbose : Bool) : Nat → List Char → List Char × List Char
  | 0, cs => ([], cs)
  | _ + 1, [] => ([], [])
  | fuel + 1, c :: rest =>
    if c.isDigit then
      let (digits, rest) := readDigits verbose fuel (skip verbose rest)
      (c :: digits, rest)
    else ([], c :: rest)

/-- A decimal number below `2 ^ 32`, with blanks around it. -/
def readCount (verbose : Bool) (cs : List Char) : Option Nat × List Char :=
  let (digits, rest) := readDigits verbose cs.length (Text.trimStart cs)
  let value := digits.foldl (fun n d => 10 * n + (d.toNat - '0'.toNat)) 0
  let rest := if rest.head?.any Text.isBlank then skip verbose (Text.trimStart rest) else rest
  (if digits.isEmpty || twoTo 32 ≤ value then none else some value, rest)

/-- The bounds of a repetition after its opening brace. A question mark behind it is part of
it. -/
def readBounds (verbose : Bool) (cs : List Char) : Option ((Nat × Option Nat) × List Char) :=
  let finish (bounds : Nat × Option Nat) : List Char → Option ((Nat × Option Nat) × List Char)
    | '\x7d' :: rest =>
      let rest := skip verbose rest
      let rest := if rest.head? == some '?' then rest.drop 1 else rest
      if bounds.2.all (bounds.1 ≤ ·) then some (bounds, rest) else none
    | _ => none
  let (least, rest) := readCount verbose (skip verbose cs)
  match least, rest with
  | some least, ',' :: rest =>
    let rest := skip verbose rest
    if rest.head? == some '\x7d' then finish (least, none) rest
    else
      match readCount verbose rest with
      | (some most, rest) => finish (least, some most) rest
      | (none, _) => none
  | some least, rest => finish (least, some least) rest
  | none, _ => none

/-- The last item repeated. There has to be one, and flags cannot be repeated. -/
def repeatLast (least : Nat) (most : Option Nat) : List Node → Option (List Node)
  | [] => none
  | .flags _ :: _ => none
  | n :: rest => some (.repetition n least most :: rest)

/-! ### Groups -/

/-- Flags up to a colon or a closing parenthesis, with that sign and what follows it. There is
at most one minus, which is not the last of them. -/
def readFlags (negated afterMinus : Bool) (done : Settings) :
    List Char → Option (Settings × Char × List Char)
  | [] => none
  | c :: rest =>
    if c = ':' ∨ c = ')' then if afterMinus then none else some (done.reverse, c, rest)
    else if c = '-' then if negated then none else readFlags true true done rest
    else
      match Flag.ofChar? c with
      | none => none
      | some f =>
        if (done.lookup f).isSome then none
        else readFlags negated false ((f, !negated) :: done) rest

def isNameChar (first : Bool) (c : Char) : Bool :=
  c = '_' ||
    (if first then Text.isAlphabetic c
    else c = '.' || c = '[' || c = ']' || Text.isAlphanumeric c)

/-- The name of a group up to its closing angle bracket, and what follows it. -/
def readName (cs : List Char) : Option (String × List Char) :=
  let name := cs.takeWhile (· != '>')
  match name, cs.dropWhile (· != '>') with
  | c :: more, _ :: rest =>
    if isNameChar true c && more.all (isNameChar false) then some (String.ofList name, rest)
    else none
  | _, _ => none

/-- What an opening parenthesis begins. -/
inductive Opening where
  | capture (name : Option String)
  | group (settings : Settings)
  /-- Flags for what follows, which is no group. -/
  | flags (settings : Settings)

/-- What an opening parenthesis begins, and what follows it. Groups that look ahead or behind
are not among it. -/
def readOpening (verbose : Bool) (cs : List Char) : Option (Opening × List Char) :=
  match skip verbose cs with
  | '?' :: 'P' :: '<' :: rest =>
    (readName rest).map fun (name, rest) => (.capture (some name), rest)
  | '?' :: '<' :: rest => (readName rest).map fun (name, rest) => (.capture (some name), rest)
  | '?' :: rest => do
    let (settings, sign, rest) ← readFlags false false [] rest
    if sign = ':' then some (.group settings, rest)
    else if settings.isEmpty then none
    else some (.flags settings, rest)
  | rest => some (.capture none, rest)

/-- A group that is still open: what it is, and the expression around it so far. -/
structure OpenGroup where
  wrap : Node → Node
  branches : List Node
  items : List Node
  verbose : Bool

/-! ### Expressions -/

/-- The alternatives up to here, the last ones first. -/
def finishBranches (branches items : List Node) : Node :=
  Node.ofBranches ((Node.ofItems items.reverse :: branches).reverse)

/-- The rest of an expression, inside the groups of the stack, behind the alternatives and the
items read so far, the last ones first. -/
def readFrom (fuel : Nat) (stack : List OpenGroup) (verbose : Bool) (branches items : List Node)
    (cs : List Char) : Option Node :=
  match fuel with
  | 0 => none
  | fuel + 1 =>
    let counted (least : Nat) (most : Option Nat) (rest : List Char) : Option Node := do
      let items ← repeatLast least most items
      readFrom fuel stack verbose branches items rest
    let lazily (rest : List Char) : List Char :=
      if rest.head? == some '?' then rest.drop 1 else rest
    match skip verbose cs with
    | [] => if stack.isEmpty then some (finishBranches branches items) else none
    | '(' :: rest => do
      match ← readOpening verbose rest with
      | (.flags settings, rest) =>
        let verbose := (settings.lookup .verbose).getD verbose
        readFrom fuel stack verbose branches (.flags settings :: items) rest
      | (.group settings, rest) =>
        let inner := (settings.lookup .verbose).getD verbose
        readFrom fuel (⟨.group settings, branches, items, verbose⟩ :: stack) inner [] [] rest
      | (.capture name, rest) =>
        readFrom fuel (⟨.capture name, branches, items, verbose⟩ :: stack) verbose [] [] rest
    | ')' :: rest =>
      match stack with
      | [] => none
      | g :: stack =>
        let node := g.wrap (finishBranches branches items)
        readFrom fuel stack g.verbose g.branches (node :: g.items) rest
    | '|' :: rest => readFrom fuel stack verbose (Node.ofItems items.reverse :: branches) [] rest
    | '[' :: rest => do
      let (set, rest) ← readClass verbose rest
      readFrom fuel stack verbose branches (.chars set :: items) rest
    | '?' :: rest => counted 0 (some 1) (lazily rest)
    | '*' :: rest => counted 0 none (lazily rest)
    | '+' :: rest => counted 1 none (lazily rest)
    | '\x7b' :: rest => do
      let ((least, most), rest) ← readBounds verbose rest
      counted least most rest
    | '\\' :: rest => do
      match ← readEscape verbose rest with
      | (.literal l, rest) => readFrom fuel stack verbose branches (.literal l :: items) rest
      | (.chars set, rest) => readFrom fuel stack verbose branches (.chars set :: items) rest
      | (.assertion, rest) => readFrom fuel stack verbose branches (.assertion :: items) rest
    | '.' :: rest => readFrom fuel stack verbose branches (.dot :: items) rest
    | '^' :: rest | '$' :: rest => readFrom fuel stack verbose branches (.assertion :: items) rest
    | c :: rest => readFrom fuel stack verbose branches (.literal ⟨c, false⟩ :: items) rest

/-- The expression that a text writes, if it writes one. -/
def read? (pattern : String) : Option Node :=
  let cs := pattern.toList
  readFrom (cs.length + 1) [] false [] [] cs

end LogQuery.Pattern
