import LogQuery.Json.Basic
import LogQuery.Number.Reading

/-!
# Reading JSON

A reader of one JSON value that takes a whole text. Nesting is bounded by the length of the text,
which is what the recursion counts down.

A number without a point and without an exponent is whole if it fits into 64 bits. Any other
number is a fraction: the nearest number to its digits, of which only as many count as fit into
64 bits, multiplied or divided by a power of ten, each step rounded.
-/

namespace LogQuery.Json

/-- The text without the JSON blanks in front. -/
def skipBlanks (cs : List Char) : List Char :=
  cs.dropWhile fun c => c = ' ' || c = '\n' || c = '\r' || c = '\t'

def hexDigit? (c : Char) : Option Nat :=
  if c.isDigit then some (c.toNat - '0'.toNat)
  else if 'a' ≤ c ∧ c ≤ 'f' then some (c.toNat - 'a'.toNat + 10)
  else if 'A' ≤ c ∧ c ≤ 'F' then some (c.toNat - 'A'.toNat + 10)
  else none

/-- The number that four hexadecimal digits write. -/
def hexUnit? (a b c d : Char) : Option Nat := do
  return (((← hexDigit? a) * 16 + (← hexDigit? b)) * 16 + (← hexDigit? c)) * 16 + (← hexDigit? d)

/-- The character of a one-letter escape. -/
def escaped? (c : Char) : Option Char :=
  match c with
  | '"' => some '"'
  | '\\' => some '\\'
  | '/' => some '/'
  | 'b' => some (Char.ofNat 8)
  | 'f' => some (Char.ofNat 12)
  | 'n' => some '\n'
  | 'r' => some '\r'
  | 't' => some '\t'
  | _ => none

/-- The rest of a string literal after its opening quote, with what follows the literal. Of the
two halves of a surrogate pair, `high` is the one already read. -/
def readString (high : Option Nat) : List Char → Option (List Char × List Char)
  | [] => none
  | '"' :: rest => if high.isSome then none else some ([], rest)
  | '\\' :: 'u' :: a :: b :: c :: d :: rest => do
    let unit ← hexUnit? a b c d
    match high with
    | some h =>
      if 0xDC00 ≤ unit ∧ unit < 0xE000 then
        let char := Char.ofNat (0x10000 + (h - 0xD800) * 0x400 + (unit - 0xDC00))
        (readString none rest).map fun (cs, after) => (char :: cs, after)
      else none
    | none =>
      if 0xD800 ≤ unit ∧ unit < 0xDC00 then readString (some unit) rest
      else if 0xDC00 ≤ unit ∧ unit < 0xE000 then none
      else (readString none rest).map fun (cs, after) => (Char.ofNat unit :: cs, after)
  | '\\' :: c :: rest => do
    if high.isSome then none
    else
      let char ← escaped? c
      (readString none rest).map fun (cs, after) => (char :: cs, after)
  | c :: rest =>
    if high.isSome || c.toNat < 32 || c = '\\' then none
    else (readString none rest).map fun (cs, after) => (c :: cs, after)

/-- The digits that count, as a number below `2 ^ 64`, and how many digits are left over. -/
def leadingDigits : Nat → List Char → Nat × Nat
  | n, [] => (n, 0)
  | n, d :: rest =>
    let next := 10 * n + (d.toNat - '0'.toNat)
    if next < twoTo 64 then leadingDigits next rest else (n, rest.length + 1)

/-- A number multiplied or divided by a power of ten, each step rounded. -/
def scaleByTen (x : Binary64) (exponent : Int) : Binary64 :=
  if 308 < exponent then (if x.magnitude = 0 then x else .infinity false)
  else if 0 ≤ exponent then x.mul (.ofNat (tenTo exponent.toNat))
  else if -308 ≤ exponent then x.div (.ofNat (tenTo (-exponent).toNat))
  else if -616 ≤ exponent then
    (x.div (.ofNat (tenTo 308))).div (.ofNat (tenTo (-exponent - 308).toNat))
  else .zero

/-- The number that a fraction's digits and exponent write. -/
def fraction (whole fractional : List Char) (exponent : Int) : Binary64 :=
  let (significand, dropped) := leadingDigits 0 (whole ++ fractional)
  let counted : Int := fractional.length - dropped
  scaleByTen (.ofNat significand) (exponent - counted)

def readNumber (cs : List Char) : Option (Json × List Char) :=
  let (negative, cs) :=
    match cs with
    | '-' :: rest => (true, rest)
    | _ => (false, cs)
  let (whole, cs) := cs.span Char.isDigit
  let (fractional, afterPoint) :=
    match cs with
    | '.' :: rest => rest.span Char.isDigit
    | _ => ([], cs)
  let (exponent, rest) :=
    match afterPoint with
    | e :: rest =>
      if e = 'e' ∨ e = 'E' then rest.span fun (c : Char) => c.isDigit || c = '+' || c = '-'
      else ([], afterPoint)
    | [] => ([], [])
  let hasPoint := cs.head? == some '.'
  let hasExponent := afterPoint.length != rest.length
  if whole.isEmpty || (1 < whole.length && whole.head? == some '0') then none
  else if hasPoint && fractional.isEmpty then none
  else
    let signed (x : Binary64) : Json := .float (if negative then x.neg else x)
    if !hasPoint && !hasExponent then
      let n := Numeral.digitsValue whole
      if negative then
        some (if n = 0 ∨ twoTo 63 < n then signed (fraction whole [] 0) else .int (-n), rest)
      else some (if n < twoTo 64 then .int n else signed (fraction whole [] 0), rest)
    else if !hasExponent then some (signed (fraction whole fractional 0), rest)
    else
      (Numeral.exponentOf? ('e' :: exponent)).map fun e =>
        (signed (fraction whole fractional e), rest)

mutual

/-- A value at the start of a text, nested at most `fuel` deep, and what follows it. -/
def readValue (fuel : Nat) (cs : List Char) : Option (Json × List Char) :=
  match fuel with
  | 0 => none
  | fuel + 1 =>
    match skipBlanks cs with
    | '\x7b' :: rest => readFields fuel [] rest
    | '[' :: rest => readItems fuel [] rest
    | '"' :: rest => (readString none rest).map fun (s, rest) => (.string (String.ofList s), rest)
    | 't' :: 'r' :: 'u' :: 'e' :: rest => some (.bool true, rest)
    | 'f' :: 'a' :: 'l' :: 's' :: 'e' :: rest => some (.bool false, rest)
    | 'n' :: 'u' :: 'l' :: 'l' :: rest => some (.null, rest)
    | cs => readNumber cs

/-- The rest of an array after its opening bracket or after a comma. -/
def readItems (fuel : Nat) (done : List Json) (cs : List Char) : Option (Json × List Char) :=
  match fuel with
  | 0 => none
  | fuel + 1 =>
    match done, skipBlanks cs with
    | [], ']' :: rest => some (.array [], rest)
    | _, _ => do
      let (item, rest) ← readValue fuel cs
      match skipBlanks rest with
      | ',' :: rest => readItems fuel (item :: done) rest
      | ']' :: rest => some (.array (item :: done).reverse, rest)
      | _ => none

/-- The rest of an object after its opening brace or after a comma. -/
def readFields (fuel : Nat) (done : List (String × Json)) (cs : List Char) :
    Option (Json × List Char) :=
  match fuel with
  | 0 => none
  | fuel + 1 =>
    match done, skipBlanks cs with
    | [], '\x7d' :: rest => some (.object [], rest)
    | _, '"' :: rest => do
      let (key, rest) ← readString none rest
      match skipBlanks rest with
      | ':' :: rest =>
        let (item, rest) ← readValue fuel rest
        match skipBlanks rest with
        | ',' :: rest => readFields fuel ((String.ofList key, item) :: done) rest
        | '\x7d' :: rest =>
          some (.object ((String.ofList key, item) :: done).reverse, rest)
        | _ => none
      | _ => none
    | _, _ => none

end

/-- The value that a whole text writes. -/
def parse? (text : String) : Option Json :=
  let cs := text.toList
  match readValue (2 * cs.length + 2) cs with
  | some (value, rest) => if (skipBlanks rest).isEmpty then some value else none
  | none => none

end LogQuery.Json
