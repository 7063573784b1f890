import LogQuery.Number.Binary64

namespace LogQuery

/-- A decimal numeral taken apart: its sign, its digits without the point, and the power of ten
by which they count. -/
structure Numeral where
  negative : Bool
  digits : List Char
  exponent : Int
  deriving DecidableEq, Repr

namespace Numeral

/-- The number that a row of ASCII digits writes in base ten. -/
def digitsValue (ds : List Char) : Nat :=
  ds.foldl (fun n d => 10 * n + (d.toNat - '0'.toNat)) 0

/-- The sign in front of a numeral, and the text after it. -/
def splitSign : List Char → Bool × List Char
  | '-' :: rest => (true, rest)
  | '+' :: rest => (false, rest)
  | rest => (false, rest)

/-- The exponent that follows the digits: nothing at all, or `e`, an optional sign and digits. -/
def exponentOf? : List Char → Option Int
  | [] => some 0
  | e :: rest =>
    if e = 'e' ∨ e = 'E' then
      let (negative, digits) := splitSign rest
      if digits.isEmpty || !digits.all Char.isDigit then none
      else if negative then some (-(digitsValue digits : Int))
      else some (digitsValue digits)
    else none

/-- A numeral that takes the whole text. -/
def ofText? (text : List Char) : Option Numeral :=
  let (negative, rest) := splitSign text
  let (whole, rest) := rest.span Char.isDigit
  let (fraction, rest) :=
    match rest with
    | '.' :: rest => rest.span Char.isDigit
    | rest => ([], rest)
  if whole.isEmpty && fraction.isEmpty then none
  else
    (exponentOf? rest).map fun e => ⟨negative, whole ++ fraction, e - fraction.length⟩

/-- The nearest number to a numeral. An exponent far beyond the range is cut off before any
power of ten is formed. -/
def nearest (n : Numeral) : Binary64 :=
  let digits := n.digits.dropWhile (· = '0')
  let size := digits.length + n.exponent
  if digits.isEmpty || size < -400 then ⟨n.negative, 0⟩
  else if 400 < size then .infinity n.negative
  else
    let value := digitsValue digits
    .ofRatio n.negative (value * tenTo n.exponent.toNat) (tenTo (-n.exponent).toNat)

end Numeral

namespace Binary64

/-- The word that names an infinity or what is not a number, in any case of letters. -/
def named? (word : List Char) : Option Binary64 :=
  let lower := String.ofList (word.map Char.toLower)
  if lower = "inf" ∨ lower = "infinity" then some (infinity false)
  else if lower = "nan" then some nan
  else none

/-- A number that takes the whole text: a decimal numeral, or the name of an infinity or of what
is not a number, with an optional sign. -/
def ofText? (text : String) : Option Binary64 :=
  let (negative, word) := Numeral.splitSign text.toList
  match named? word with
  | some x => some (if negative then x.neg else x)
  | none => (Numeral.ofText? text.toList).map Numeral.nearest

end Binary64

end LogQuery
