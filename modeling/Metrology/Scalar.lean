import Metrology.Decimal.Fraction
import Metrology.Dimension.Signature

/-!
Scalars: the numbers that factors, offsets and converted values are made of. Conversions are written once
over this interface, for the 64 bit numbers that programs run on and for exact ones.
-/

namespace Metrology

class Scalar (α : Type) extends Zero α, One α, Add α, Sub α, Mul α where
  -- Equality of values.
  eqv : α → α → Bool
  quotient : α → α → Except ArithmeticFault α
  -- A rational power; `none` is a power that is no real number.
  power : α → Rat → Except ArithmeticFault (Option α)
  powerOfTen : Int → α
  ofInt : Int → Except ArithmeticFault α
  ofText? : String → Option α
  toRat : α → Except ArithmeticFault Rat
  -- Rounds to a number of decimal places.
  roundTo : Nat → α → α
  text : α → String

def Scalar.isZero {α : Type} [Scalar α] (x : α) : Bool :=
  eqv x 0

-- A number as a caller gave it. The operation that uses it converts it, messages repeat it unchanged.
inductive Given (α : Type)
  | integer (n : Int)
  | scalar (x : α)
  | text (s : String)
  | missing
  | emptyList

namespace Given

variable {α : Type} [Scalar α]

def render : Given α → String
  | integer n => toString n
  | scalar x => Scalar.text x
  | text s => s
  | missing => "None"
  | emptyList => "[]"

-- The number as part of a list, where texts stand in quotes.
def quoted : Given α → String
  | text s => Text.quoted s
  | g => g.render

def kind : Given α → String
  | integer _ => "int"
  | scalar _ => "float"
  | text _ => "str"
  | missing => "NoneType"
  | emptyList => "list"

-- Reads a value, factor or offset.
def toScalar : Given α → Except Error α
  | integer n => (Scalar.ofInt n).mapError .arithmetic
  | scalar x => .ok x
  | text s =>
    match Scalar.ofText? s with
    | some x => .ok x
    | none => .error (.unreadableNumber s)
  | g => .error (.notANumber g.kind)

-- Reads an exponent, which is exact.
def toExponent : Given α → Except Error Rat
  | integer n => .ok n
  | scalar x => (Scalar.toRat x).mapError .arithmetic
  | text s => readFraction s
  | _ => .error .missingFraction

-- A number that is only a number: texts are refused, not read.
def toOperand (refusal : String → Error) : Given α → Except Error α
  | integer n => (Scalar.ofInt n).mapError .arithmetic
  | scalar x => .ok x
  | g => .error (refusal g.kind)

def refusedFactor (kind : String) : Error :=
  if kind = "str" then .textAsFactor else .unsupportedOperands "*" "float" kind

-- Multiplies a scalar by a given number.
def times (x : α) (g : Given α) : Except Error α := do
  return x * (← g.toOperand refusedFactor)

-- Adds a given number to a scalar.
def plus (x : α) (g : Given α) : Except Error α := do
  return x + (← g.toOperand (.unsupportedOperands "+" "float"))

-- Whether the number is zero without being read.
def isZero : Given α → Bool
  | integer n => n == 0
  | scalar x => Scalar.isZero x
  | _ => false

-- The kind of number that an operation makes of two numbers: an integer only of two integers.
def jointKind (operator : String) (g h : Given α) : Except Error String :=
  match g, h with
  | integer _, integer _ => .ok "int"
  | integer _, scalar _ | scalar _, integer _ | scalar _, scalar _ => do
    let _ ← g.toScalar
    let _ ← h.toScalar
    return "float"
  | _, _ => .error (.unsupportedOperands operator g.kind h.kind)

-- The kind of number that a power of a number is.
def powerKind (g h : Given α) : Except Error String := do
  let kind ← g.jointKind "** or pow()" h
  match h with
  | integer n => if kind = "int" ∧ 0 ≤ n then return kind
  | _ => pure ()
  match (← (Scalar.power (← g.toScalar) (← h.toExponent)).mapError .arithmetic) with
  | some _ => return "float"
  | none => return "complex"

-- Equality of values; an integer equals the scalar that has exactly its value.
def equal : Given α → Given α → Bool
  | integer m, integer n => m == n
  | scalar x, scalar y => Scalar.eqv x y
  | integer n, scalar x | scalar x, integer n =>
    match Scalar.toRat x with
    | .ok r => r == n
    | .error _ => false
  | text s, text t => s == t
  | missing, missing | emptyList, emptyList => true
  | _, _ => false

end Given

-- The signature of dimensions given as they come; a term that is zero as given is left out, and the others
-- must not be too long to be written.
def Dimensions.formatGiven {α : Type} [Scalar α] (terms : List (BaseDimension × Given α)) : Except Error String := do
  let terms ← (terms.filter (!·.2.isZero)).mapM fun (d, g) => return (d, ← g.toExponent)
  Error.requireWritable (terms.map (·.2))
  return format terms

namespace BaseDimension

def ofName (name : String) : Except Error BaseDimension :=
  match ofName? name with
  | some d => .ok d
  | none => .error (.unknownDimension name)

end BaseDimension

-- Dimensions from named exponents. Each exponent is read before its name is looked up, and of two terms for
-- one dimension the last counts.
def Dimensions.ofNamed {α : Type} [Scalar α] (terms : List (String × Given α)) : Except Error Dimensions :=
  terms.foldlM (fun v (name, g) => do
    let r ← g.toExponent
    return v.set (← BaseDimension.ofName name) r) 0

end Metrology
