import Metrology.Scalar

/-!
Rational numbers as scalars: arithmetic without rounding. Only integer powers are rational.
-/

namespace Metrology

namespace Exact

def power (x r : Rat) : Except ArithmeticFault (Option Rat) :=
  if r.den ≠ 1 then .ok none
  else if x = 0 ∧ r < 0 then .error .zeroToNegativePower
  else .ok (some (x ^ r.num))

-- The integer nearest to a number, a half going to the even neighbour.
def round (x : Rat) : Int :=
  let size : Int := Binary64.roundDiv x.num.natAbs x.den
  if x < 0 then -size else size

end Exact

instance : Scalar Rat where
  zero := 0
  one := 1
  eqv x y := x == y
  quotient x y := if y = 0 then .error .divisionByZero else .ok (x / y)
  power := Exact.power
  powerOfTen e := (10 : Rat) ^ e
  ofInt n := .ok n
  ofText? s := (readFraction s).toOption
  toRat := .ok
  roundTo places x := Exact.round (x * (10 : Rat) ^ (places : Int)) / (10 : Rat) ^ (places : Int)
  text := Error.ratText

end Metrology
