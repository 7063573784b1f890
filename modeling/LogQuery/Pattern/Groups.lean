namespace LogQuery.Pattern

inductive GroupKind where
  | named (name : String)
  | plain
  | nonCapturing
  deriving DecidableEq, Repr

/-- A place where a group opens: the index of its parenthesis, and the length of the header with
its name behind the parenthesis. -/
structure GroupOpening where
  start : Nat
  headerLength : Nat
  kind : GroupKind
  deriving DecidableEq, Repr

/-- Where a scan stands: outside of classes, behind the bracket of a class, behind its bracket and
caret, or further inside. -/
inductive ScanState where
  | outside | classStart | classCaret | inside
  deriving DecidableEq, Repr

namespace ScanState

/-- The state behind something that cannot end a class. -/
def behindItem : ScanState → ScanState
  | .outside => .outside
  | _ => .inside

/-- The state behind a character that is not escaped. A closing bracket that comes first in a
class stands for itself. -/
def next (s : ScanState) (c : Char) : ScanState :=
  match s with
  | .outside => if c = '[' then .classStart else .outside
  | .classStart => if c = '^' then .classCaret else .inside
  | .classCaret => .inside
  | .inside => if c = ']' then .outside else .inside

end ScanState

/-- The name in a header behind a parenthesis, with the length of the sign in front of it. -/
def headerName? : List Char → Option (Nat × List Char)
  | '?' :: 'P' :: '<' :: rest => some (3, rest)
  | '?' :: '<' :: '=' :: _ => none
  | '?' :: '<' :: '!' :: _ => none
  | '?' :: '<' :: rest => some (2, rest)
  | _ => none

/-- The group that opens at an index, given the text behind its parenthesis. -/
def openingAt (start : Nat) (rest : List Char) : GroupOpening :=
  let unnamed : GroupOpening := ⟨start, 0, if rest.head? = some '?' then .nonCapturing else .plain⟩
  match headerName? rest with
  | none => unnamed
  | some (sign, after) =>
    if after.contains '>' then
      let name := after.takeWhile (· != '>')
      ⟨start, sign + name.length + 1, .named (String.ofList name)⟩
    else unnamed

/-- The groups that open in a text that stands at an index. -/
def scanFrom (state : ScanState) (index : Nat) : List Char → List GroupOpening
  | [] => []
  | '\\' :: _ :: rest => scanFrom state.behindItem (index + 2) rest
  | c :: rest =>
    let later := scanFrom (state.next c) (index + 1) rest
    if state = .outside ∧ c = '(' then openingAt index rest :: later else later

/-- The groups that open in a pattern, whose text is scanned and not read: a parenthesis counts
unless it is escaped or stands in brackets. -/
def scan (pattern : String) : List GroupOpening := scanFrom .outside 0 pattern.toList

/-- The names of the named groups in the order in which they open. -/
def namedGroups (pattern : String) : List String :=
  (scan pattern).filterMap fun g =>
    match g.kind with
    | .named name => some name
    | _ => none

/-- What stands for a group's parenthesis and header when one group alone captures. -/
def isolatedOpening (name : String) : GroupKind → Option (List Char)
  | .named n => some (if n = name then ['('] else ['(', '?', ':'])
  | .plain => some ['(', '?', ':']
  | .nonCapturing => none

/-- The text from an index on, with the openings of groups replaced. -/
def spliceFrom (pattern : List Char) (name : String) (done : Nat) : List GroupOpening → List Char
  | [] => pattern.drop done
  | g :: rest =>
    match isolatedOpening name g.kind with
    | none => spliceFrom pattern name done rest
    | some opening =>
      (pattern.drop done).take (g.start - done) ++ opening
        ++ spliceFrom pattern name (g.start + 1 + g.headerLength) rest

/-- The pattern in which the group of a name alone captures. -/
def isolateGroup (pattern name : String) : String :=
  String.ofList (spliceFrom pattern.toList name 0 (scan pattern))

/-- The groups from an index on follow one another: none of those that are replaced opens inside
the header of the one before. -/
def followFrom (done : Nat) : List GroupOpening → Bool
  | [] => true
  | g :: rest =>
    if g.kind = .nonCapturing then followFrom done rest
    else done ≤ g.start && followFrom (g.start + 1 + g.headerLength) rest

/-- No group opens inside the header of another. Only then can the groups be replaced one by
one. -/
def headersAreApart (pattern : String) : Bool := followFrom 0 (scan pattern)

end LogQuery.Pattern
