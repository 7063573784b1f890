import LogQuery.Number.Binary64

namespace LogQuery

/-- A JSON value. Whole numbers and fractions are kept apart, since a count is never written as a
fraction, and the fields of an object keep their order. -/
inductive Json where
  | null
  | bool (value : Bool)
  | int (value : Int)
  | float (value : Binary64)
  | string (value : String)
  | array (items : List Json)
  | object (fields : List (String × Json))
  deriving Repr, Inhabited

namespace Json

def nat (n : Nat) : Json := .int n

def strings (items : List String) : Json := .array (items.map .string)

def optionalString (s : Option String) : Json := s.elim .null .string

/-- The value of an object's field; the last of several fields of one name counts. -/
def field? (key : String) : Json → Option Json
  | .object fields => (fields.reverse.find? (·.1 == key)).map (·.2)
  | _ => none

/-- A whole number from zero to the largest one of 64 bits. -/
def nat? : Json → Option Nat
  | .int (.ofNat n) => if n < twoTo 64 then some n else none
  | _ => none

def number? : Json → Option Binary64
  | .int n => some (.ofInt n)
  | .float x => some x
  | _ => none

def string? : Json → Option String
  | .string s => some s
  | _ => none

def bool? : Json → Option Bool
  | .bool b => some b
  | _ => none

def array? : Json → Option (List Json)
  | .array items => some items
  | _ => none

def strings? (j : Json) : Option (List String) := do (← j.array?).mapM string?

/-- The text of a field that may be missing or `null`. -/
def optionalString? (key : String) (j : Json) : Option (Option String) :=
  match j.field? key with
  | none | some .null => some none
  | some (.string s) => some (some s)
  | some _ => none

/-- The truth value of a field that may be missing, which means `false`. -/
def flag? (key : String) (j : Json) : Option Bool :=
  match j.field? key with
  | none => some false
  | some (.bool b) => some b
  | some _ => none

end Json

end LogQuery
