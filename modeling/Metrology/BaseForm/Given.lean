import Metrology.BaseForm

/-!
Base forms made from numbers as callers give them, and values taken to base units and back.
-/

namespace Metrology

variable {α : Type} [Scalar α]

namespace Dimensions

-- Dimensions from their exponents in order. All exponents are read before they are counted.
def ofGiven (exponents : List (Given α)) : Except Error Dimensions := do
  let exponents ← exponents.mapM Given.toExponent
  match ofList? exponents with
  | some v => return v
  | none => throw (.wrongLength exponents.length)

-- Dimensions from exponents by name. All names are looked up before the first exponent is read.
def ofGivenTerms (terms : List (String × Given α)) : Except Error Dimensions := do
  let terms ← terms.mapM fun (name, g) => return (← BaseDimension.ofName name, g)
  return ofTerms (← terms.mapM fun (d, g) => return (d, ← g.toExponent))

-- The exponents in order with one of them replaced. Negative places count from the end.
def replaceAt (v : Dimensions) (place : Int) (r : Rat) : Except Error (List Rat) :=
  let size := v.toList.length
  let index := if place < 0 then place + size else place
  if 0 ≤ index ∧ index < size then .ok (v.toList.set index.toNat r) else .error (.outOfBounds place size)

end Dimensions

namespace BaseForm

def make (origin : Origin) (dimensions : Dimensions) (factor offset : Given α) (symbol : String) :
    Except Error (BaseForm α) := do
  return ⟨dimensions, ← factor.toScalar, ← offset.toScalar, symbol, origin⟩

def refusedValue (kind : String) : Error :=
  if kind = "str" then .textAsFactor else .unsupportedOperands "*" kind "float"

-- The value in base units.
def givenToBase (u : BaseForm α) (value : Given α) : Except Error α := do
  return u.toBase (← value.toOperand refusedValue)

-- The value in the unit of a value in base units.
def givenFromBase (u : BaseForm α) (value : Given α) : Except Error α := do
  let x ← value.toOperand fun kind => .unsupportedOperands "-" kind "float"
  (u.fromBase x).mapError .arithmetic

end BaseForm

end Metrology
