import Metrology.Binary64

/-!
The shortest decimal that reads back as a given number, and the nearest of those to it.
-/

namespace Metrology

-- The decimal number `digits * 10 ^ exponent`.
structure Decimal where
  digits : Nat
  exponent : Int
  deriving DecidableEq, Repr

namespace Decimal

-- Moves trailing zeros into the exponent; there are at most `fuel` of them.
def stripZeros : Nat → Decimal → Decimal
  | 0, d => d
  | fuel + 1, d =>
    if d.digits ≠ 0 ∧ d.digits % 10 = 0 then stripZeros fuel ⟨d.digits / 10, d.exponent + 1⟩ else d

-- The positive binary number `significand * 2 ^ exponent`, measured on the decimal grid of spacing
-- `10 ^ grid`: the grid point `k` stands at `k * step`, the number at `4 * significand * unit`.
structure Grid where
  significand : Nat
  unit : Nat
  step : Nat
  -- Whether the numbers below lie half as dense as the numbers above.
  narrow : Bool

namespace Grid

def of (significand : Nat) (exponent grid : Int) : Grid where
  significand := significand
  unit := Nat.pow 10 (-grid).toNat <<< (exponent - 2).toNat
  step := Nat.pow 10 grid.toNat <<< (2 - exponent).toNat
  narrow := significand == Binary64.hiddenBit && exponent > -1074

def value (g : Grid) : Nat :=
  4 * g.significand * g.unit

-- Whether the grid point lies between the midpoints to both neighbours; these belong to the number if its
-- significand is even.
def readsBack (g : Grid) (point : Nat) : Bool :=
  let low := g.value - (if g.narrow then 1 else 2) * g.unit
  let high := g.value + 2 * g.unit
  let position := point * g.step
  if g.significand % 2 = 0 then low ≤ position && position ≤ high else low < position && position < high

-- The grid point next to the number that reads back: the nearer one of two, the even one at a tie.
def nearest? (g : Grid) : Option Nat :=
  let below := g.value / g.step
  let rest := g.value % g.step
  match g.readsBack below, g.readsBack (below + 1) with
  | true, true =>
    if 2 * rest < g.step ∨ (2 * rest = g.step ∧ below % 2 = 0) then some below else some (below + 1)
  | true, false => some below
  | false, true => some (below + 1)
  | false, false => none

end Grid

-- The power of ten of the leading digit of `significand * 2 ^ exponent`.
def leadingExponent (significand : Nat) (exponent : Int) : Int :=
  let guess := (Nat.log2 significand + exponent) * 30103 / 100000
  -- The guess is at most one off.
  let reaches (e : Int) : Bool :=
    Nat.pow 10 e.toNat <<< (-exponent).toNat ≤ (significand * Nat.pow 10 (-e).toNat) <<< exponent.toNat
  if reaches (guess + 1) then guess + 1 else if reaches guess then guess else guess - 1

-- Tries one digit, two digits, up to seventeen, which always suffice.
def shortest (significand : Nat) (exponent : Int) : Decimal :=
  let leading := leadingExponent significand exponent
  let found := (List.range 17).findSome? fun (places : Nat) =>
    let grid := leading - places
    (Grid.of significand exponent grid).nearest?.map fun digits => Decimal.mk digits grid
  stripZeros 17 (found.getD ⟨significand, exponent⟩)

end Decimal

end Metrology
