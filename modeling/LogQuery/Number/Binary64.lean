import LogQuery.Number.Power

/-!
# Binary64 numbers

The numbers of queries and expressions, as binary floating point numbers of 64 bits. A number is
its sign together with the bits below the sign read as a natural number, the *magnitude*. Equal
numbers have equal fields, apart from the texts of values that are not numbers, and among
numbers of one sign a larger magnitude is a larger value.

All arithmetic is exact on natural numbers and rounds once, at the end, to the nearest
representable value, a tie going to the even significand.
-/

namespace LogQuery

/-- A binary floating point number: a sign, and the 63 bits below it. -/
structure Binary64 where
  negative : Bool
  magnitude : Nat
  deriving DecidableEq, Repr, Inhabited

namespace Binary64

/-- The first magnitude that is no finite number; it stands for infinity. -/
def infiniteMagnitude : Nat := 2047 * twoTo 52

def zero : Binary64 := ⟨false, 0⟩

def infinity (negative : Bool) : Binary64 := ⟨negative, infiniteMagnitude⟩

def nan : Binary64 := ⟨false, infiniteMagnitude + twoTo 51⟩

/-- Neither an infinity nor the value that is not a number. -/
def isFinite (x : Binary64) : Bool := x.magnitude < infiniteMagnitude

def isNaN (x : Binary64) : Bool := infiniteMagnitude < x.magnitude

/-- The whole number `m` of a finite value `m * 2 ^ e`. -/
def significand (x : Binary64) : Nat :=
  let fraction := x.magnitude % twoTo 52
  if x.magnitude / twoTo 52 = 0 then fraction else twoTo 52 + fraction

/-- The exponent `e` of a finite value `m * 2 ^ e`, shifted up by 1074 so that it is natural. -/
def shiftedExponent (x : Binary64) : Nat := x.magnitude / twoTo 52 - 1

/-- A finite absolute value as a fraction of natural numbers. -/
def ratio (x : Binary64) : Nat × Nat :=
  if 1074 ≤ x.shiftedExponent then (x.significand * twoTo (x.shiftedExponent - 1074), 1)
  else (x.significand, twoTo (1074 - x.shiftedExponent))

def isPositive (x : Binary64) : Bool := !x.negative && x.magnitude != 0 && !x.isNaN

/-- The quotient rounded to a whole number, a tie going to the even one. -/
def divNearestEven (num den : Nat) : Nat :=
  let quotient := num / den
  let twice := 2 * (num % den)
  if twice < den then quotient
  else if den < twice then quotient + 1
  else quotient + quotient % 2

/-- The least shifted exponent at which `num / den` has a significand below `2 ^ 53`, before
rounding. -/
def exponentFor (num den : Nat) : Nat :=
  let estimate := num.log2 + 1074 - den.log2 - 52
  if num * twoTo 1074 < den * twoTo 52 * twoTo estimate then estimate - 1 else estimate

/-- The nearest number to a fraction. A significand that rounds up to `2 ^ 53` carries into the
exponent, as both are digits of one magnitude. -/
def ofRatio (negative : Bool) (num den : Nat) : Binary64 :=
  if num = 0 ∨ den = 0 then ⟨negative, 0⟩
  else
    let exponent := exponentFor num den
    let significand := divNearestEven (num * twoTo 1074) (den * twoTo exponent)
    ⟨negative, min infiniteMagnitude (exponent * twoTo 52 + significand)⟩

/-- The nearest number to a natural number. -/
def ofNat (n : Nat) : Binary64 := ofRatio false n 1

/-- The nearest number to a whole number. -/
def ofInt (n : Int) : Binary64 := ofRatio (n < 0) n.natAbs 1

/-- The product of two finite numbers, rounded once. -/
def mul (x y : Binary64) : Binary64 :=
  ofRatio (x.negative != y.negative) (x.ratio.1 * y.ratio.1) (x.ratio.2 * y.ratio.2)

/-- The quotient of two finite numbers, the second not zero, rounded once. -/
def div (x y : Binary64) : Binary64 :=
  ofRatio (x.negative != y.negative) (x.ratio.1 * y.ratio.2) (x.ratio.2 * y.ratio.1)

def neg (x : Binary64) : Binary64 := { x with negative := !x.negative }

/-- The absolute value of a finite number rounded to a whole number, a half going up. -/
def roundHalfUp (x : Binary64) : Nat :=
  let (num, den) := x.ratio
  (2 * num + den) / (2 * den)

end Binary64

end LogQuery
