import LogQuery.Number.Binary64

/-!
# The shortest decimal of a binary64 number

A finite number stands for all reals that round to it, an interval around its value. Its shortest
decimal has the fewest significant digits of all decimals in that interval, and among those is
the nearest to the value.

On the grid of decimals with `n` significant digits, if any point lies in the interval then one
of the two grid points next to the value does. So it is enough to test these two, for
`n = 1, 2, …`; seventeen digits always suffice.
-/

namespace LogQuery

/-- The decimal number `digits * 10 ^ exponent`. -/
structure Decimal where
  digits : Nat
  exponent : Int
  deriving DecidableEq, Repr, Inhabited

/-- Which of two decimals equally far from the value is taken. -/
inductive Tie where
  | up
  | toEven
  deriving DecidableEq, Repr

namespace Binary64

/-- The interval of reals that round to a finite number, in units of `4 * ratio.2`, as the two
ends and whether the ends belong to it. Below a power of two the gap is half as wide. -/
structure Neighbourhood where
  low : Nat
  value : Nat
  high : Nat
  unit : Nat
  closed : Bool

/-- The interval of reals that round to `x`. -/
def neighbourhood (x : Binary64) : Neighbourhood :=
  let (num, den) := x.ratio
  let step := if 1074 ≤ x.shiftedExponent then twoTo (x.shiftedExponent - 1074) else 1
  let below := if x.significand = twoTo 52 ∧ 0 < x.shiftedExponent then step else 2 * step
  { low := 4 * num - below, value := 4 * num, high := 4 * num + 2 * step, unit := 4 * den,
    closed := x.significand % 2 = 0 }

/-- The position of the first digit of `num / den`, zero for the units. -/
def leadingPosition (num den : Nat) : Int :=
  let gap := (toString num).length - ((toString den).length : Int)
  if den * tenTo gap.toNat ≤ num * tenTo (-gap).toNat then gap else gap - 1

/-- The decimal with the units digit at `position` that lies in the interval and next to the
value, if there is one. -/
def Neighbourhood.nearestAt (i : Neighbourhood) (tie : Tie) (position : Int) : Option Decimal :=
  let scale := i.unit * tenTo position.toNat
  let shift := tenTo (-position).toNat
  let inside (n : Nat) : Bool :=
    let point := n * scale
    if i.closed then i.low * shift ≤ point && point ≤ i.high * shift
    else i.low * shift < point && point < i.high * shift
  let below := i.value * shift / scale
  let twice := 2 * (i.value * shift % scale)
  let upward := scale < twice || (scale == twice && (tie == .up || below % 2 == 1))
  match inside below, inside (below + 1) with
  | true, true => some ⟨if upward then below + 1 else below, position⟩
  | true, false => some ⟨below, position⟩
  | false, true => some ⟨below + 1, position⟩
  | false, false => none

/-- The digits without zeros at the end, at most `fuel` of which are removed. -/
def stripZeros : Nat → Decimal → Decimal
  | 0, d => d
  | fuel + 1, d =>
    if d.digits % 10 = 0 then stripZeros fuel ⟨d.digits / 10, d.exponent + 1⟩ else d

/-- The shortest decimal of the absolute value of a finite number other than zero. -/
def shortest (x : Binary64) (tie : Tie) : Decimal :=
  let interval := x.neighbourhood
  let first := leadingPosition interval.value interval.unit
  let found := (List.range 17).findSome? fun n : Nat => interval.nearestAt tie (first - n)
  stripZeros 20 (found.getD ⟨0, 0⟩)

end Binary64

end LogQuery
