import LogQuery.Number.Shortest

namespace LogQuery.Binary64

def zeros (n : Nat) : String := String.ofList (List.replicate n '0')

/-- The digits with a point after the first `n` of them. -/
def pointAfter (digits : String) (n : Nat) : String :=
  String.ofList (digits.toList.take n) ++ "." ++ String.ofList (digits.toList.drop n)

/-- The decimal in positional notation: no exponent, no point in a whole number. -/
def positional (d : Decimal) : String :=
  let digits := toString d.digits
  let whole := digits.length + d.exponent
  if 0 ≤ d.exponent then digits ++ zeros d.exponent.toNat
  else if 0 < whole then pointAfter digits whole.toNat
  else "0." ++ zeros (-whole).toNat ++ digits

/-- The text of a number in queries and in SQL. A tie between two shortest decimals goes up. -/
def plain (x : Binary64) : String :=
  if x.isNaN then "NaN"
  else
    (if x.negative then "-" else "") ++
      (if !x.isFinite then "inf"
      else if x.magnitude = 0 then "0"
      else positional (x.shortest .up))

/-- The decimal in JSON: positional from five zeros after the point to sixteen whole digits, else
with one digit before the point and an exponent that has a sign. -/
def jsonDecimal (d : Decimal) : String :=
  let digits := toString d.digits
  let whole := digits.length + d.exponent
  if 0 ≤ d.exponent ∧ whole ≤ 16 then digits ++ zeros d.exponent.toNat ++ ".0"
  else if -5 < whole ∧ whole ≤ 16 then positional d
  else
    let power := whole - 1
    (if digits.length = 1 then digits else pointAfter digits 1) ++ (if 0 ≤ power then "e+" else "e")
      ++ toString power

/-- The text of a finite number in JSON; what is no finite number has none but `null`. A tie
between two shortest decimals goes to the even digit. -/
def json (x : Binary64) : String :=
  if !x.isFinite then "null"
  else
    (if x.negative then "-" else "") ++
      (if x.magnitude = 0 then "0.0" else jsonDecimal (x.shortest .toEven))

end LogQuery.Binary64
