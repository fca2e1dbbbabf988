/-!
The 64 bit binary numbers as exact values: what the bits of a number stand for, and the number nearest to a
quotient of naturals.
-/

namespace Metrology

-- The value that 64 bits encode: `significand * 2 ^ exponent` with a sign, an infinity or no number.
inductive Binary64
  | nan
  | infinite (negative : Bool)
  | finite (negative : Bool) (significand : Nat) (exponent : Int)
  deriving DecidableEq, Repr

namespace Binary64

-- The leading bit of a full significand, which is not stored.
def hiddenBit : Nat :=
  1 <<< 52

def ofFloat (x : Float) : Binary64 :=
  let bits := x.toBits.toNat
  let negative : Bool := bits >>> 63 == 1
  let field : Nat := (bits >>> 52) % 2048
  let fraction : Nat := bits % hiddenBit
  if field = 2047 then
    if fraction = 0 then infinite negative else nan
  else if field = 0 then finite negative fraction (-1074)
  else finite negative (hiddenBit + fraction) (field - 1075)

-- The exact value, where there is one.
def toRat? : Binary64 → Option Rat
  | nan | infinite _ => none
  | finite negative significand exponent =>
    let size : Rat := significand * (2 : Rat) ^ exponent
    some (if negative then -size else size)

-- The natural number nearest to `n / d`, a half going to the even neighbour.
def roundDiv (n d : Nat) : Nat :=
  let quotient := n / d
  let twice := 2 * (n % d)
  if twice > d ∨ (twice = d ∧ quotient % 2 = 1) then quotient + 1 else quotient

-- The largest `e` with `2 ^ e ≤ n / d`, for positive `n` and `d`.
def binaryExponent (n d : Nat) : Int :=
  let guess : Int := Nat.log2 n - Nat.log2 d
  if n <<< (-guess).toNat < d <<< guess.toNat then guess - 1 else guess

-- The bits, sign apart, of the number nearest to `n / d`; from `2 ^ 1024 - 2 ^ 970` on that is infinity.
def magnitudeBits (n d : Nat) : Nat :=
  if n = 0 then 0 else
  let exponent := binaryExponent n d
  if exponent > 1023 then 2047 * hiddenBit
  else if exponent < -1075 then 0
  else
    -- Spacing of the numbers around the quotient; a carry out of the significand moves into the exponent field.
    let spacing := max (exponent - 52) (-1074)
    let significand := roundDiv (n <<< (-spacing).toNat) (d <<< spacing.toNat)
    (spacing + 1074).toNat * hiddenBit + significand

def nearest (negative : Bool) (n d : Nat) : Float :=
  let bits := magnitudeBits n d
  Float.ofBits (UInt64.ofNat (if negative then (1 <<< 63) + bits else bits))

def ofRat (r : Rat) : Float :=
  nearest (r.num < 0) r.num.natAbs r.den

end Binary64

end Metrology
