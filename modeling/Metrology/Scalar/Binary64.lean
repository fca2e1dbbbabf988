import Metrology.Decimal.Notation
import Metrology.Decimal.Places
import Metrology.Scalar

/-!
The 64 bit binary numbers as scalars. Sums, differences and products overflow to infinity; a division by zero
and a power of finite numbers that is too large are faults.
-/

namespace Metrology

namespace Binary64

def isOddInteger (x : Float) : Bool :=
  match (ofFloat x).toRat? with
  | some r => r.den = 1 ∧ r.num % 2 = 1
  | none => false

def isInteger (x : Float) : Bool :=
  match (ofFloat x).toRat? with
  | some r => r.den = 1
  | none => false

-- The number nearest to an exact one, unless that is infinity.
def ofRat? (r : Rat) : Option Float :=
  let x := ofRat r
  if x.isInf then none else some x

def quotient (x y : Float) : Except ArithmeticFault Float :=
  if y == 0 then .error .divisionByZero else .ok (x / y)

-- The power of two finite positive numbers.
def finitePower (x y : Float) : Except ArithmeticFault Float :=
  let z := Float.pow x y
  if z.isInf then .error .powerTooLarge else .ok z

-- A power with a finite exponent. The first power of a number is the number itself.
def power (x y : Float) : Except ArithmeticFault (Option Float) :=
  if y == 0 then .ok (some 1)
  else if y == 1 then .ok (some x)
  else if x.isNaN then .ok (some x)
  else if x.isInf then
    if y > 0 then .ok (some (if isOddInteger y then x else x.abs))
    else .ok (some (if isOddInteger y ∧ x < 0 then -0.0 else 0))
  else if x == 0 then
    if y < 0 then .error .zeroToNegativePower
    else .ok (some (if isOddInteger y then x else 0))
  else if x < 0 then
    if isInteger y then
      let sign : Float := if isOddInteger y then -1 else 1
      if x == -1 then .ok (some sign) else (finitePower (-x) y).map fun z => some (sign * z)
    else if (Float.pow (-x) y).isInf then .error .notRealTooLarge
    else .ok none
  else if x == 1 then .ok (some 1)
  else (finitePower x y).map some

end Binary64

instance Binary64.instZero : Zero Float := ⟨0⟩
instance Binary64.instOne : One Float := ⟨1⟩

instance : Scalar Float where
  eqv x y := x == y
  quotient := Binary64.quotient
  power x r :=
    match Binary64.ofRat? r with
    | some y => Binary64.power x y
    | none => .error .quotientTooLarge
  powerOfTen e := Binary64.nearest false (Nat.pow 10 e.toNat) (Nat.pow 10 (-e).toNat)
  ofInt n :=
    match Binary64.ofRat? n with
    | some x => .ok x
    | none => .error .integerTooLarge
  ofText? := readFloat?
  toRat x :=
    match Binary64.ofFloat x with
    | .nan => .error .noNumber
    | .infinite _ => .error .noFiniteNumber
    | b => .ok (b.toRat?.getD 0)
  roundTo := Binary64.roundPlaces
  text x := (Binary64.ofFloat x).render

-- A power is that of the nearest number to the exponent.
theorem Binary64.scalarPower_eq (x : Float) (r : Rat) : Scalar.power x r =
    match Binary64.ofRat? r with
    | some y => Binary64.power x y
    | none => .error .quotientTooLarge :=
  rfl

end Metrology
