import LogQuery.Json.Basic
import LogQuery.Number.Text

namespace LogQuery.Json

/-- The four hexadecimal digits of a number below `2 ^ 16`. -/
def hex4 (n : Nat) : String :=
  let digits := Nat.toDigits 16 n
  String.ofList (List.replicate (4 - digits.length) '0' ++ digits)

/-- The escape of a code point by one unit, or by two surrogates beyond `0xFFFF`. -/
def unicodeEscape (n : Nat) : String :=
  if n < 0x10000 then "\\u" ++ hex4 n
  else
    "\\u" ++ hex4 (0xD800 + (n - 0x10000) / 0x400) ++ "\\u" ++ hex4 (0xDC00 + (n - 0x10000) % 0x400)

/-- A character inside a JSON string. Control characters are always escaped, characters beyond
ASCII only if `ascii` is asked for. -/
def escapeChar (ascii : Bool) (c : Char) : String :=
  if c = '"' then "\\\""
  else if c = '\\' then "\\\\"
  else if c = '\n' then "\\n"
  else if c = '\r' then "\\r"
  else if c = '\t' then "\\t"
  else if c.toNat = 8 then "\\b"
  else if c.toNat = 12 then "\\f"
  else if c.toNat < 32 ∨ (ascii ∧ 126 < c.toNat) then unicodeEscape c.toNat
  else c.toString

def quote (ascii : Bool) (s : String) : String :=
  "\"" ++ String.join (s.toList.map (escapeChar ascii)) ++ "\""

/-- A line break and the indentation of a level. -/
def newline (level : Nat) : String := "\n" ++ String.ofList (List.replicate (2 * level) ' ')

mutual

/-- The value in the pretty layout, as it stands at a level of indentation. -/
def prettyAt (level : Nat) : Json → String
  | .null => "null"
  | .bool b => if b then "true" else "false"
  | .int n => toString n
  | .float x => x.json
  | .string s => quote false s
  | .array [] => "[]"
  | .array items =>
    "[" ++ String.intercalate "," (prettyItems (level + 1) items) ++ newline level ++ "]"
  | .object [] => "\x7b\x7d"
  | .object fields =>
    "\x7b" ++ String.intercalate "," (prettyFields (level + 1) fields) ++ newline level ++ "\x7d"

/-- The items of an array, each behind a line break. -/
def prettyItems (level : Nat) : List Json → List String
  | [] => []
  | v :: rest => (newline level ++ prettyAt level v) :: prettyItems level rest

/-- The fields of an object, each behind a line break. -/
def prettyFields (level : Nat) : List (String × Json) → List String
  | [] => []
  | (k, v) :: rest =>
    (newline level ++ quote false k ++ ": " ++ prettyAt level v) :: prettyFields level rest

end

def pretty (v : Json) : String := prettyAt 0 v

mutual

/-- The value without layout, in ASCII. -/
def compact : Json → String
  | .null => "null"
  | .bool b => if b then "true" else "false"
  | .int n => toString n
  | .float x => x.json
  | .string s => quote true s
  | .array items => "[" ++ String.intercalate "," (compactItems items) ++ "]"
  | .object fields => "\x7b" ++ String.intercalate "," (compactFields fields) ++ "\x7d"

/-- The items of an array without layout. -/
def compactItems : List Json → List String
  | [] => []
  | v :: rest => compact v :: compactItems rest

/-- The fields of an object without layout. -/
def compactFields : List (String × Json) → List String
  | [] => []
  | (k, v) :: rest => (quote true k ++ ":" ++ compact v) :: compactFields rest

end

end LogQuery.Json
