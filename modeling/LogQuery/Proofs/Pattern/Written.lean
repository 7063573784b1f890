import LogQuery.Libraries
import LogQuery.Pattern.Groups
import LogQuery.Text.Alphabetic
import LogQuery.Text.Blank

/-!
# How regular expressions are written

The part of the documented syntax that says where groups open. An expression is written part by
part, and a class has other classes inside, so that a parenthesis belongs to the expression or is a
character of a class. In verbose mode, which a flag switches on up to the end of the group around
it, blanks and comments may stand between all parts.
-/

namespace LogQuery.Pattern

/-! ### Parts -/

/-- A part of what stands behind the bracket of a class. -/
inductive ClassPart where
  /-- The bracket of a class inside. -/
  | opening
  /-- The caret of a class that is negated. -/
  | caret
  /-- A closing bracket that comes first and stands for itself. -/
  | first
  | char (c : Char)
  | escape (c : Char)
  | layout (text : List Char)
  | closing
  deriving DecidableEq

/-- What makes a parenthesis the opening of a group of some kind. -/
inductive Header where
  | plain
  | named (sign name : List Char)
  /-- Flags for the group, which does not capture. -/
  | flags (letters : List Char)
  deriving DecidableEq

inductive Part where
  | char (c : Char)
  | escape (c : Char)
  /-- A class, with what stands behind its bracket. -/
  | chars (inside : List ClassPart)
  | layout (text : List Char)
  /-- The parenthesis and the header of a group, with layout between them. -/
  | opening (gap : List Char) (header : Header)
  /-- Flags for what follows, in parentheses of their own. -/
  | switch (gap letters : List Char)
  | closing
  deriving DecidableEq

def ClassPart.text : ClassPart → List Char
  | .opening => ['[']
  | .caret => ['^']
  | .first | .closing => [']']
  | .char c => [c]
  | .escape c => ['\\', c]
  | .layout text => text

def Header.text : Header → List Char
  | .plain => []
  | .named sign name => sign ++ (name ++ ['>'])
  | .flags letters => '?' :: (letters ++ [':'])

def Part.text : Part → List Char
  | .char c => [c]
  | .escape c => ['\\', c]
  | .chars inside => '[' :: inside.flatMap ClassPart.text
  | .layout text => text
  | .opening gap header => '(' :: (gap ++ header.text)
  | .switch gap letters => '(' :: (gap ++ '?' :: (letters ++ [')']))
  | .closing => [')']

/-! ### Layout, names and flags -/

/-- Blanks, and comments up to the end of their line. -/
inductive IsLayout : List Char → Prop
  | nil : IsLayout []
  | blank {c : Char} {text : List Char} (hc : Text.isBlank c = true) :
      IsLayout text → IsLayout (c :: text)
  | comment {remark text : List Char} (hremark : '\n' ∉ remark) :
      IsLayout text → IsLayout ('#' :: (remark ++ '\n' :: text))

/-- Layout has to be skipped in verbose mode, and there is none in other modes. -/
def IsGap (verbose : Bool) (text : List Char) : Prop :=
  text = [] ∨ verbose = true ∧ IsLayout text

/-- A character that is not the beginning of layout. -/
def IsVisible (verbose : Bool) (c : Char) : Prop :=
  verbose = true → Text.isBlank c = false ∧ c ≠ '#'

def IsGroupName : List Char → Prop
  | [] => False
  | c :: more => (c = '_' ∨ Text.isAlphabetic c = true) ∧
      ∀ c' ∈ more, c' ∈ ['_', '.', '[', ']'] ∨ Text.isAlphanumeric c' = true

instance : DecidablePred IsGroupName
  | [] => inferInstanceAs (Decidable False)
  | _ :: more => @instDecidableAnd _ _ _ (List.decidableBAll _ more)

/-- The letters of flags, with a minus in front of those that are switched off. -/
def AreFlags (letters : List Char) : Prop := ∀ c ∈ letters, c ∈ "imsRUux-".toList

instance (letters : List Char) : Decidable (AreFlags letters) := List.decidableBAll _ letters

/-- Whether flags leave an expression in verbose mode. -/
def verboseUnder (verbose : Bool) (letters : List Char) : Bool :=
  if 'x' ∈ letters.takeWhile (· != '-') then true
  else if 'x' ∈ letters then false
  else verbose

def Header.IsWritten : Header → Prop
  | .plain => True
  | .named sign name => (sign = ['?', 'P', '<'] ∨ sign = ['?', '<']) ∧ IsGroupName name
  | .flags letters => AreFlags letters

/-- Whether a group is in verbose mode, given the mode in front of it. -/
def Header.verbose (outside : Bool) : Header → Bool
  | .flags letters => verboseUnder outside letters
  | _ => outside

/-! ### Classes and expressions -/

/-- A place in a class: behind its bracket, behind its caret, behind a hyphen, or anywhere else. -/
inductive ClassPlace where
  | start | caret | hyphen | inside
  deriving DecidableEq

def ClassPlace.behind (c : Char) : ClassPlace := if c = '-' then .hyphen else .inside

/-- What is written in a class from a place on, up to the bracket that closes it and so many
classes around it. -/
inductive Inside (verbose : Bool) : ClassPlace → Nat → List ClassPart → Prop
  | caret {depth : Nat} {parts : List ClassPart} :
      Inside verbose .caret depth parts → Inside verbose .start depth (.caret :: parts)
  | first {place : ClassPlace} {depth : Nat} {parts : List ClassPart}
      (hplace : place = .start ∨ place = .caret) :
      Inside verbose .inside depth parts → Inside verbose place depth (.first :: parts)
  | char {place : ClassPlace} {depth : Nat} {parts : List ClassPart} {c : Char}
      (hc : c ∉ ['\\', '[', ']']) (hcaret : place = .start → c ≠ '^') (hv : IsVisible verbose c) :
      Inside verbose (.behind c) depth parts → Inside verbose place depth (.char c :: parts)
  /-- A bracket that ends a range stands for itself. -/
  | bound {depth : Nat} {parts : List ClassPart} :
      Inside verbose .inside depth parts → Inside verbose .hyphen depth (.char '[' :: parts)
  | escape {place : ClassPlace} {depth : Nat} {parts : List ClassPart} (c : Char) :
      Inside verbose .inside depth parts → Inside verbose place depth (.escape c :: parts)
  | layout {place : ClassPlace} {depth : Nat} {parts : List ClassPart} {text : List Char}
      (hv : verbose = true) (hne : text ≠ []) (htext : IsLayout text) :
      Inside verbose place depth parts → Inside verbose place depth (.layout text :: parts)
  | opening {place : ClassPlace} {depth : Nat} {parts : List ClassPart} :
      Inside verbose .start (depth + 1) parts → Inside verbose place depth (.opening :: parts)
  | innerClosing {place : ClassPlace} {depth : Nat} {parts : List ClassPart}
      (hplace : place = .hyphen ∨ place = .inside) :
      Inside verbose .inside depth parts →
        Inside verbose place (depth + 1) (.closing :: parts)
  | closing {place : ClassPlace} (hplace : place = .hyphen ∨ place = .inside) :
      Inside verbose place 0 [.closing]

/-- What is written in a mode inside of groups, each of which had its own mode in front of it. A
plain group has no sign of another group behind its parenthesis. -/
inductive IsWritten : Bool → List Bool → List Part → Prop
  | nil {verbose : Bool} : IsWritten verbose [] []
  | char {verbose : Bool} {outer : List Bool} {parts : List Part} {c : Char}
      (hc : c ∉ ['\\', '[', '(', ')']) (hv : IsVisible verbose c) :
      IsWritten verbose outer parts → IsWritten verbose outer (.char c :: parts)
  | escape {verbose : Bool} {outer : List Bool} {parts : List Part} (c : Char) :
      IsWritten verbose outer parts → IsWritten verbose outer (.escape c :: parts)
  | chars {verbose : Bool} {outer : List Bool} {parts : List Part} {inside : List ClassPart}
      (hinside : Inside verbose .start 0 inside) :
      IsWritten verbose outer parts → IsWritten verbose outer (.chars inside :: parts)
  | layout {outer : List Bool} {parts : List Part} {text : List Char} (htext : IsLayout text) :
      IsWritten true outer parts → IsWritten true outer (.layout text :: parts)
  /-- A comment in the last line of an expression. -/
  | remark {text : List Char} (htext : '\n' ∉ text) : IsWritten true [] [.layout ('#' :: text)]
  | opening {verbose : Bool} {outer : List Bool} {parts : List Part} {gap : List Char}
      {header : Header} (hgap : IsGap verbose gap) (hheader : header.IsWritten)
      (hplain : header = .plain →
        parts.head? ≠ some (.char '?') ∧ ∀ text, parts.head? ≠ some (.layout text)) :
      IsWritten (header.verbose verbose) (verbose :: outer) parts →
        IsWritten verbose outer (.opening gap header :: parts)
  | switch {verbose : Bool} {outer : List Bool} {parts : List Part} {gap letters : List Char}
      (hgap : IsGap verbose gap) (hne : letters ≠ []) (hletters : AreFlags letters) :
      IsWritten (verboseUnder verbose letters) outer parts →
        IsWritten verbose outer (.switch gap letters :: parts)
  | closing {verbose inner : Bool} {outer : List Bool} {parts : List Part} :
      IsWritten verbose outer parts → IsWritten inner (verbose :: outer) (.closing :: parts)

/-- The parts are those of a whole pattern. An expression does not begin in verbose mode. -/
structure IsReading (parts : List Part) (pattern : String) : Prop where
  text : pattern.toList = parts.flatMap Part.text
  written : IsWritten false [] parts

/-! ### Groups -/

def Part.name? : Part → Option String
  | .opening _ (.named _ name) => some (String.ofList name)
  | _ => none

/-- The names of the groups, in the order in which they open. -/
def names (parts : List Part) : List String := parts.filterMap Part.name?

/-- What opens where a part stands. Flags in parentheses of their own count as a group that does
not capture. -/
def Part.openings (index : Nat) : Part → List GroupOpening
  | .opening _ .plain => [⟨index, 0, .plain⟩]
  | .opening gap (.named sign name) =>
    [⟨index, gap.length + sign.length + name.length + 1, .named (String.ofList name)⟩]
  | .opening _ (.flags _) | .switch _ _ => [⟨index, 0, .nonCapturing⟩]
  | _ => []

/-- The groups that open in an expression that stands at an index. -/
def openings (index : Nat) : List Part → List GroupOpening
  | [] => []
  | part :: parts => part.openings index ++ openings (index + part.text.length) parts

/-! ### Parts that are read differently where classes cannot stand inside of classes -/

/-- A parenthesis stands in a class behind a class inside, and no other class has opened between
them. -/
def Part.Exposes : Part → Prop
  | .chars inside => ∃ before between behind,
      inside = before ++ .closing :: (between ++ .char '(' :: behind) ∧ .opening ∉ between
  | _ => False

/-- Nothing in the text begins or ends an escape, a class or a group. -/
def Unmarked (text : List Char) : Prop := ∀ c ∈ text, c ∉ ['\\', '[', ']', '(']

instance (text : List Char) : Decidable (Unmarked text) := List.decidableBAll _ text

/-- Behind the last opening bracket of the name there is a closing one, but not directly. -/
def ClosesBrackets (name : List Char) : Prop :=
  ∀ before behind, name = before ++ '[' :: behind → '[' ∉ behind →
    ∃ c more, behind = c :: more ∧ ']' ∈ more

/-- A part without what is rare: a class in which no bracket ends a range and a closing bracket
stands for itself only where the class begins, layout with nothing in it that could be code and not
in front of the sign of a group, and a name that closes its brackets. -/
def Part.IsOrdinary : Part → Prop
  | .chars inside => .char '[' ∉ inside ∧ (∀ text, .layout text ∈ inside → Unmarked text) ∧
      ∀ before behind, inside = before ++ .first :: behind → before = [] ∨ before = [.caret]
  | .layout text | .opening text .plain => Unmarked text
  | .opening gap (.named _ name) => gap = [] ∧ ClosesBrackets name
  | .opening gap (.flags _) | .switch gap _ => gap = []
  | _ => True

/-- What is documented of a library: it accepts no pattern that is not written part by part, and
finds the names of the groups that open in it. -/
structure IsDocumented [Libraries] (parts : String → List Part)
    (captureNames : String → List String) : Prop where
  reads {pattern : String} (h : Libraries.isPattern pattern = true) :
    IsReading (parts pattern) pattern
  names {pattern : String} (h : Libraries.isPattern pattern = true) :
    captureNames pattern = names (parts pattern)

end LogQuery.Pattern
