import Metrology.BaseForm.Given
import Metrology.Definition

/-!
Operands: what products, quotients and powers are taken of. A definition stands for its base form; a number is
no unit.
-/

namespace Metrology

inductive Operand (α : Type) [Scalar α]
  | form (unit : BaseForm α)
  | definition (d : Definition α)
  | number (x : Given α)

namespace Operand

variable {α : Type} [Scalar α]

def kind : Operand α → String
  | form u => u.kind
  | definition d => d.family.title
  | number g => g.kind

-- The base form that a unit stands for.
def unit : Operand α → Except Error (BaseForm α)
  | form u => .ok u
  | definition d => .ok d.form
  | number g => .error (.notAUnit g.kind)

-- The base form of an operand that has to be one itself.
def asForm (operation : String) : Operand α → Except Error (BaseForm α)
  | form u => .ok u
  | o => .error (.lacks o.kind operation)

def asDefinition (operation : String) : Operand α → Except Error (Definition α)
  | definition d => .ok d
  | o => .error (.lacks o.kind operation)

-- The base forms of two operands. Forms do not combine with numbers at all.
def units (operator : String) : Operand α → Operand α → Except Error (BaseForm α × BaseForm α)
  | form u, number g => .error (.unsupportedOperands operator u.kind g.kind)
  | number g, form u => .error (.unsupportedOperands operator g.kind u.kind)
  | a, b => return (← a.unit, ← b.unit)

-- Two numbers combine to a number, which is refused for having no factor.
def refuseNumber {β : Type} (kind : String) : Except Error β :=
  .error (.lacks kind "factor")

def mul : Operand α → Operand α → Except Error (BaseForm α)
  | number x, number y => do refuseNumber (← x.jointKind "*" y)
  | a, b => do
    let (u, v) ← units "*" a b
    u.mul v

def div : Operand α → Operand α → Except Error (BaseForm α)
  | number x, number y => do
    let kind ← x.jointKind "/" y
    if y.isZero then
      throw (.arithmetic (if kind = "int" then .integerDivisionByZero else .divisionByZero))
    refuseNumber "float"
  | a, b => do
    let (u, v) ← units "/" a b
    u.div v

def pow : Operand α → Given α → Except Error (BaseForm α)
  | number x, exponent => do refuseNumber (← x.powerKind exponent)
  | a, exponent => do (← a.unit).pow (← exponent.toExponent)

-- A definition that is a multiple of a unit.
def derive (symbol : String) (base : Operand α) (scale : Given α) (naming : Definition.Naming α) :
    Except Error (Definition α) := do
  Definition.derive symbol (← base.unit) scale naming

def describe : Operand α → Except Error String
  | form u => do
    u.requireSignature
    return u.describe
  | definition d => .ok d.describe
  | number g => .ok g.render

-- Equality of operands, of which the caller knows whether they are one and the same. Forms are equal by what
-- they mean, definitions only if they are the same.
def equal (same : Bool) : Operand α → Operand α → Bool
  | form u, form v => u.equal v
  | definition _, definition _ => same
  | number x, number y => x.equal y
  | _, _ => false

-- How many different operands there are among some that are told apart by a mark.
def distinct (operands : List (Nat × Operand α)) : Nat :=
  (operands.foldl (fun kept (mark, o) =>
    if kept.any fun (other, p) => mark == other || equal false o p then kept else (mark, o) :: kept) []).length

end Operand

end Metrology
