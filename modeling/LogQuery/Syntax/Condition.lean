import LogQuery.Number.Text

namespace LogQuery

inductive Value where
  | string (text : String)
  | number (value : Binary64)
  | regex (pattern : String)
  | null
  | list (items : List Value)
  deriving Repr, Inhabited

inductive Comparison where
  | eq | notEq | lt | ltEq | gt | gtEq | contains | isIn | notIn
  deriving DecidableEq, Repr, Inhabited

namespace Comparison

def all : List Comparison := [.eq, .notEq, .lt, .ltEq, .gt, .gtEq, .contains, .isIn, .notIn]

def isRelational : Comparison → Bool
  | .lt | .ltEq | .gt | .gtEq => true
  | _ => false

def display : Comparison → String
  | .eq => "="
  | .notEq => "!="
  | .lt => "<"
  | .ltEq => "<="
  | .gt => ">"
  | .gtEq => ">="
  | .contains => "~"
  | .isIn => "IN"
  | .notIn => "NOT IN"

end Comparison

inductive Connective where
  | and | or
  deriving DecidableEq, Repr

def Connective.display : Connective → String
  | .and => "AND"
  | .or => "OR"

/-- A condition on rows. -/
inductive Condition where
  | compare (field : String) (comparison : Comparison) (value : Value) (negated : Bool)
  | group (logic : Connective) (members : List Condition) (negated : Bool)
  deriving Repr, Inhabited

namespace Value

/-- The text of a string literal, with its quotes escaped. -/
def quote (s : String) : String :=
  "\"" ++ String.ofList (s.toList.flatMap fun c => if c = '"' then ['\\', '"'] else [c]) ++ "\""

mutual

def display : Value → String
  | .string s => quote s
  | .number x => x.plain
  | .regex p => "/" ++ p ++ "/"
  | .null => "null"
  | .list items => "(" ++ String.intercalate ", " (displayAll items) ++ ")"

def displayAll : List Value → List String
  | [] => []
  | v :: rest => v.display :: displayAll rest

end

end Value

namespace Condition

/-- The opposite condition: a second negation cancels the first. -/
def negate : Condition → Condition
  | .compare field comparison value negated => .compare field comparison value !negated
  | .group logic members negated => .group logic members !negated

/-- The word in front of a negated condition. -/
def displayNegation (negated : Bool) : String := if negated then "NOT " else ""

mutual

def display : Condition → String
  | .compare field comparison value negated =>
    let gap :=
      match comparison with
      | .isIn | .notIn => " "
      | _ => ""
    displayNegation negated ++ field ++ gap ++ comparison.display ++ gap ++ value.display
  | .group logic members negated =>
    displayNegation negated ++
      "(" ++ String.intercalate (" " ++ logic.display ++ " ") (displayAll members) ++ ")"

def displayAll : List Condition → List String
  | [] => []
  | c :: rest => c.display :: displayAll rest

end

end Condition

end LogQuery
