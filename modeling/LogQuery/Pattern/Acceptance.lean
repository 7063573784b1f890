import LogQuery.Pattern.Property
import LogQuery.Pattern.Reader

/-!
# Acceptable regular expressions

A text is an acceptable expression if it can be read, its groups have different names, nothing in
it is nested too deep, every property it asks for exists, it cannot match a part of a character,
and the automaton that it stands for is not too large.

Outside Unicode mode, which a flag switches off, an expression is about bytes. It could match a
part of a character by a byte beyond ASCII, by any byte at all, or by a negated class.
-/

namespace LogQuery.Pattern

/-- The flags that decide what an expression may hold. -/
structure Mode where
  unicode : Bool
  ignoreCase : Bool
  deriving DecidableEq, Repr

def Mode.initial : Mode := ⟨true, false⟩

/-- The mode after flags are switched. -/
def Mode.apply (m : Mode) (settings : Settings) : Mode :=
  ⟨(settings.lookup .unicode).getD m.unicode, (settings.lookup .ignoreCase).getD m.ignoreCase⟩

/-! ### Whole characters -/

mutual

/-- The class asks for known properties only and, outside Unicode mode, holds only ASCII. -/
def CharClass.isSound (unicode : Bool) : CharClass → Bool
  | .literal l => unicode || l.char.toNat < 128
  | .range low high => unicode || (low.char.toNat < 128 && high.char.toNat < 128)
  | .ascii _ negated | .shorthand _ negated => unicode || !negated
  | .property name value _ =>
    unicode &&
      (match value with
      | none => isPropertyName name
      | some value => isPropertyValue name value)
  | .bracketed negated inner => (unicode || !negated) && inner.isSound unicode
  | .union members => CharClass.allSound unicode members
  | .operation _ left right => left.isSound unicode && right.isSound unicode

def CharClass.allSound (unicode : Bool) : List CharClass → Bool
  | [] => true
  | c :: rest => c.isSound unicode && CharClass.allSound unicode rest

end

mutual

/-- The mode behind an expression, if it is sound in the mode in front of it. A group's flags end
with the group. -/
def Node.soundFrom (m : Mode) : Node → Option Mode
  | .flags settings => some (m.apply settings)
  | .literal l => if m.unicode || !l.isByte || l.char.toNat < 128 then some m else none
  | .dot => if m.unicode then some m else none
  | .assertion => some m
  | .chars set => if set.isSound m.unicode then some m else none
  | .repetition sub _ _ => sub.soundFrom m
  | .capture _ sub => (sub.soundFrom m).map fun _ => m
  | .group settings sub => (sub.soundFrom (m.apply settings)).map fun _ => m
  | .alternation branches => Node.allSoundFrom m branches
  | .concat items => Node.allSoundFrom m items

/-- The mode behind several expressions, each in the mode behind the one before. -/
def Node.allSoundFrom (m : Mode) : List Node → Option Mode
  | [] => some m
  | n :: rest => do Node.allSoundFrom (← n.soundFrom m) rest

end

/-! ### Size -/

/-- The direction in which an automaton reads. Backward it has no groups, and classes beyond
ASCII need more states. -/
inductive Direction where
  | forward | backward
  deriving DecidableEq, Repr

/-- The bytes that one state takes. -/
def stateSize : Nat := 32

/-- The largest size of an automaton: ten mebibytes. -/
def sizeLimit : Nat := 10 * twoTo 20

/-- The sizes of the classes of Unicode that have an escape of their own, forward and backward,
as they are and negated. -/
def shorthandSize : Shorthand → Bool → Nat × Nat
  | .digit, false => (1592, 5200)
  | .digit, true => (2472, 12850)
  | .space, false => (424, 680)
  | .space, true => (936, 1924)
  | .word, false => (20808, 50470)
  | .word, true => (20232, 47050)

/-- The sizes of large general categories, forward and backward; other properties are taken to be
like a small one. -/
def propertySize (name : String) : Nat × Nat :=
  if ["l", "letter", "alpha", "alphabetic", "ids", "idstart", "xids", "xidstart"].contains name
  then (18640, 43350)
  else if ["idc", "idcontinue", "xidc", "xidcontinue"].contains name then (20520, 49900)
  else if ["c", "other", "cn", "unassigned", "assigned"].contains name then (19500, 43200)
  else if ["lo", "otherletter"].contains name then (15312, 34530)
  else if ["lu", "ll", "uppercaseletter", "lowercaseletter", "lower", "upper", "lowercase",
    "uppercase"].contains name then (8216, 27740)
  else if ["m", "mark", "mn", "nonspacingmark", "combiningmark"].contains name then (10040, 19700)
  else if ["p", "punctuation", "punct", "po", "otherpunctuation", "s", "symbol", "so",
    "othersymbol"].contains name then (6800, 12000)
  else if ["n", "number"].contains name then (4944, 9900)
  else (1600, 5200)

def pick (d : Direction) (sizes : Nat × Nat) : Nat :=
  match d with
  | .forward => sizes.1
  | .backward => sizes.2

/-- A character beyond ASCII takes a state for each of its bytes, and a place in the choice. -/
def charSize (c : Char) : Nat := if c.toNat < 128 then 8 else stateSize * c.utf8Size + 4

/-- A character of which the case is ignored counts as its forms. Two letters have a form beyond
ASCII. -/
def foldedSize (m : Mode) (c : Char) : Nat :=
  if !m.ignoreCase then charSize c
  else if m.unicode && (c.toLower = 'k' || c.toLower = 's') then 128
  else if c.isAlpha || 127 < c.toNat then 2 * charSize c
  else charSize c

mutual

/-- What a class adds to the size of the class around it. -/
def CharClass.innerSize (d : Direction) (m : Mode) : CharClass → Nat
  | .literal l => foldedSize m l.char
  | .range low high =>
    if high.char.toNat < 128 then (if m.ignoreCase then 136 else 8)
    else charSize low.char + charSize high.char
  | .ascii _ negated => if negated then 1000 else 24
  | .shorthand kind negated =>
    if m.unicode then pick d (shorthandSize kind negated) else 24
  | .property name value _ =>
    pick d (propertySize (looseName (value.getD name)))
  | .bracketed negated inner => inner.innerSize d m + if negated && m.unicode then 1000 else 0
  | .union members => CharClass.innerSizes d m members
  | .operation _ left right => max (left.innerSize d m) (right.innerSize d m)

/-- What several classes add to the size of the class around them. -/
def CharClass.innerSizes (d : Direction) (m : Mode) : List CharClass → Nat
  | [] => 0
  | c :: rest => c.innerSize d m + CharClass.innerSizes d m rest

end

mutual

/-- Matches the empty text. -/
def Node.matchesEmpty : Node → Bool
  | .flags _ | .assertion => true
  | .literal _ | .dot | .chars _ => false
  | .repetition sub least _ => least == 0 || sub.matchesEmpty
  | .capture _ sub | .group _ sub => sub.matchesEmpty
  | .alternation branches => Node.someMatchesEmpty branches
  | .concat items => Node.allMatchEmpty items

/-- One of several expressions matches the empty text. -/
def Node.someMatchesEmpty : List Node → Bool
  | [] => false
  | n :: rest => n.matchesEmpty || Node.someMatchesEmpty rest

/-- All of several expressions match the empty text. -/
def Node.allMatchEmpty : List Node → Bool
  | [] => true
  | n :: rest => n.matchesEmpty && Node.allMatchEmpty rest

end

mutual

/-- Matches no text but the empty one. -/
def Node.matchesOnlyEmpty : Node → Bool
  | .flags _ | .assertion => true
  | .literal _ | .dot | .chars _ => false
  | .repetition sub _ most => most == some 0 || sub.matchesOnlyEmpty
  | .capture _ sub | .group _ sub => sub.matchesOnlyEmpty
  | .alternation branches => Node.allMatchOnlyEmpty branches
  | .concat items => Node.allMatchOnlyEmpty items

/-- All of several expressions match no text but the empty one. -/
def Node.allMatchOnlyEmpty : List Node → Bool
  | [] => true
  | n :: rest => n.matchesOnlyEmpty && Node.allMatchOnlyEmpty rest

end

/-- The size of a repetition of something of a given size. -/
def repetitionSize (size : Nat) (nullable : Bool) (least : Nat) : Option Nat → Nat
  | none =>
    if least = 0 then size + if nullable then 4 * stateSize else 2 * stateSize
    else least * size + stateSize + 8
  | some most =>
    if least = most then if least = 0 then stateSize else least * size
    else
      (if least = 0 then stateSize else least * size) + stateSize
        + (most - least) * (size + stateSize + 8)

/-- The class of the characters that an expression matches, if it matches single ones. -/
def Node.charClass? : Node → Option CharClass
  | .literal l => some (.literal l)
  | .chars set => some set
  | _ => none

mutual

/-- The size of the automaton of an expression, and the mode behind it. Single characters of which
one must match are a class. -/
def Node.sizeFrom (d : Direction) (m : Mode) : Node → Nat × Mode
  | .flags settings => (0, m.apply settings)
  | .literal l =>
    (if foldedSize m l.char = charSize l.char then stateSize * l.char.utf8Size
      else 2 * stateSize + foldedSize m l.char, m)
  | .dot => (pick d (424, 1000), m)
  | .assertion => (stateSize, m)
  | .chars set => (2 * stateSize + set.innerSize d m, m)
  | .repetition sub least most =>
    let (size, after) := sub.sizeFrom d m
    let least := if sub.matchesOnlyEmpty then min least 1 else least
    let most := if sub.matchesOnlyEmpty then some (min (most.getD 1) 1) else most
    if most == some 0 then (stateSize, after)
    else if least == 1 && most == some 1 then (size, after)
    else (repetitionSize size sub.matchesEmpty least most, after)
  | .capture _ sub =>
    let (size, _) := sub.sizeFrom d m
    (size + (if d = .forward then 2 * stateSize else 0), m)
  | .group settings sub => ((sub.sizeFrom d (m.apply settings)).1, m)
  | .alternation branches =>
    match branches.mapM Node.charClass? with
    | some sets => (2 * stateSize + CharClass.innerSizes d m sets, m)
    | none =>
      let (size, after) := Node.sizesFrom d m branches
      (size + 2 * stateSize + 4 * branches.length, after)
  | .concat items =>
    let (size, after) := Node.sizesFrom d m items
    (max size stateSize, after)

/-- The sizes of several expressions together, and the mode behind them. -/
def Node.sizesFrom (d : Direction) (m : Mode) : List Node → Nat × Mode
  | [] => (0, m)
  | n :: rest =>
    let (size, after) := n.sizeFrom d m
    let (sizes, last) := Node.sizesFrom d after rest
    (size + sizes, last)

end

/-- The size of the automaton of a whole expression: it begins anywhere in a text, is a group
itself, and ends in a final state. -/
def Node.size (d : Direction) (n : Node) : Nat := (n.sizeFrom d .initial).1 + 6 * stateSize

/-! ### The verdict -/

def depthLimit : Nat := 250

def allDifferent : List String → Bool
  | [] => true
  | s :: rest => !rest.contains s && allDifferent rest

def Node.isAcceptable (n : Node) : Bool :=
  allDifferent n.captureNames && n.depth ≤ depthLimit && (n.soundFrom .initial).isSome
    && n.size .forward ≤ sizeLimit && n.size .backward ≤ sizeLimit

/-- The text is an acceptable regular expression. -/
def isAcceptable (pattern : String) : Bool := (read? pattern).any Node.isAcceptable

end LogQuery.Pattern
