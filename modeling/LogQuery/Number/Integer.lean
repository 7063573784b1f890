import LogQuery.Number.Reading

namespace LogQuery.Numeral

/-- The natural number below a bound that a text writes, with an optional plus sign. -/
def natBelow? (bound : Nat) (text : String) : Option Nat :=
  let (negative, digits) := splitSign text.toList
  if negative || digits.isEmpty || !digits.all Char.isDigit then none
  else
    let value := digitsValue digits
    if value < bound then some value else none

/-- The whole number of 64 bits that a text writes, with an optional sign. -/
def int64? (text : String) : Option Int :=
  let (negative, digits) := splitSign text.toList
  if digits.isEmpty || !digits.all Char.isDigit then none
  else
    let value : Int := digitsValue digits
    let signed := if negative then -value else value
    if -(twoTo 63 : Int) ≤ signed ∧ signed < twoTo 63 then some signed else none

end LogQuery.Numeral
