import Metrology.Scalar

/-!
Base forms: what a unit is in terms of the base units. A value in the unit times `factor` plus `offset` is the
value in base units. A form with an offset is an absolute scale: it stands alone and with exponent one.
-/

namespace Metrology

-- How a form came about: put together from others, or by reducing an expression.
inductive BaseForm.Origin
  | composed
  | reduced
  deriving DecidableEq, Repr

structure BaseForm (α : Type) where
  dimensions : Dimensions
  factor : α
  offset : α
  symbol : String
  origin : BaseForm.Origin

namespace BaseForm

variable {α : Type} [Scalar α]

def isAffine (u : BaseForm α) : Bool :=
  !Scalar.isZero u.offset

def isDimensionless (u : BaseForm α) : Bool :=
  u.dimensions == 0

def signature (u : BaseForm α) : String :=
  u.dimensions.signature

-- Forms are compatible if their dimensions agree; values convert between compatible forms only.
def compatible (u v : BaseForm α) : Bool :=
  u.dimensions == v.dimensions

-- Equality of what the forms mean, whatever their symbols.
def equal (u v : BaseForm α) : Bool :=
  u.compatible v && Scalar.eqv u.factor v.factor && Scalar.eqv u.offset v.offset

def toBase (u : BaseForm α) (x : α) : α :=
  x * u.factor + u.offset

def fromBase (u : BaseForm α) (x : α) : Except ArithmeticFault α :=
  Scalar.quotient (x - u.offset) u.factor

-- How many of `v` make up one of `u`; offsets do not count.
def ratio (u v : BaseForm α) : Except ArithmeticFault α :=
  Scalar.quotient u.factor v.factor

-- The value in `v` of a value in `u`.
def convert (u v : BaseForm α) (x : α) : Except ArithmeticFault α :=
  v.fromBase (u.toBase x)

def requireLinear (u : BaseForm α) (exponent : Rat) (misuse : Misuse) : Except Error Unit :=
  if u.isAffine then .error (.affineMisuse u.symbol exponent misuse) else .ok ()

-- The form with its factor multiplied.
def scaled (u : BaseForm α) (scale : Given α) (symbol : String) : Except Error (BaseForm α) := do
  u.requireLinear 1 .exponent
  return { u with factor := ← Given.times u.factor scale, offset := 0, symbol }

def mul (u v : BaseForm α) : Except Error (BaseForm α) := do
  u.requireLinear 1 .compound
  v.requireLinear 1 .compound
  return ⟨u.dimensions + v.dimensions, u.factor * v.factor, 0, u.symbol ++ "*" ++ v.symbol, .composed⟩

def div (u v : BaseForm α) : Except Error (BaseForm α) := do
  u.requireLinear 1 .compound
  v.requireLinear (-1) .compound
  let factor ← (Scalar.quotient u.factor v.factor).mapError .arithmetic
  return ⟨u.dimensions - v.dimensions, factor, 0, u.symbol ++ "/" ++ v.symbol, .composed⟩

-- A factor that has to be a real number.
def realFactor : Option α → Except Error α
  | some x => .ok x
  | none => .error (.arithmetic .notReal)

def pow (u : BaseForm α) (r : Rat) : Except Error (BaseForm α) := do
  if r ≠ 1 then u.requireLinear r .exponent
  let factor ← (Scalar.power u.factor r).mapError .arithmetic
  if u.symbol ≠ "" then Error.requireWritable [r]
  return {
    dimensions := u.dimensions.scale r
    factor := ← realFactor factor
    offset := if r = 1 then u.offset else 0
    symbol := if u.symbol = "" then "" else u.symbol ++ "^" ++ Error.ratText r
    origin := .composed
  }

def kind (u : BaseForm α) : String :=
  match u.origin with
  | .composed => "UnitDecomposition"
  | .reduced => "ReducedUnit"

-- Fails if a signature with these dimensions would be too long to be written.
def requireSignature (u : BaseForm α) : Except Error Unit :=
  Error.requireWritable u.dimensions.toList

-- The symbol, or the signature of a form without one.
def label (u : BaseForm α) : String :=
  if u.symbol = "" then u.signature else u.symbol

-- A description that shows factor, offset and dimensions.
def describe (u : BaseForm α) : String :=
  s!"{u.kind}(factor={Scalar.text u.factor}, offset={Scalar.text u.offset}, dimensions={u.signature})"

end BaseForm

end Metrology
