import Std.Data.TreeMap
import Metrology.Action
import Metrology.Definition
import Metrology.Expression.Parser

/-!
Registries: unit names with their base forms. Every change of a registry makes a new version of it; a frozen
registry never changes again.
-/

namespace Metrology

abbrev UnitTable (α : Type) := Std.TreeMap String (BaseForm α)

structure Registry (α : Type) where
  units : UnitTable α
  version : Nat
  frozen : Bool

namespace Registry

variable {α : Type} [Scalar α]

def empty : Registry α :=
  ⟨∅, 0, false⟩

def find? (r : Registry α) (name : String) : Option (BaseForm α) :=
  r.units[name]?

def lookup (r : Registry α) (name : String) : Except Error (BaseForm α) :=
  match r.find? name with
  | some unit => .ok unit
  | none => .error (.unknownUnit name)

def contains (r : Registry α) (name : String) : Bool :=
  (r.find? name).isSome

def size (r : Registry α) : Nat :=
  r.units.size

-- All names, in order.
def names (r : Registry α) : List String :=
  r.units.keys

-- Enters one name; a name that stands for something else already is only entered as a replacement.
def enter (symbol : String) (replace : Bool) (units : UnitTable α) (entry : String × BaseForm α) :
    Except Error (UnitTable α) :=
  if replace ∨ (units[entry.1]?).all (·.equal entry.2) then .ok (units.insert entry.1 entry.2)
  else .error (.conflict entry.1 symbol)

-- Enters all names of a definition.
def enterAll (units : UnitTable α) (d : Definition α) (replace : Bool) : Except Error (UnitTable α) :=
  d.expand.foldlM (enter d.symbol replace) units

def build (definitions : List (Definition α)) (frozen : Bool) : Except Error (Registry α) := do
  return ⟨← definitions.foldlM (enterAll · · false) ∅, 0, frozen⟩

-- A registry of its own with the same units.
def copy (r : Registry α) : Registry α :=
  ⟨r.units, 0, false⟩

def freeze (r : Registry α) : Registry α :=
  { r with frozen := true }

-- The next version, with other units.
def commit (r : Registry α) (units : UnitTable α) : Registry α :=
  { r with units, version := r.version + 1 }

def requireMutable (r : Registry α) : Except Error Unit :=
  if r.frozen then .error .frozen else .ok ()

def describe (r : Registry α) : String :=
  let state := if r.frozen then "frozen" else s!"version={r.version}"
  s!"UnitRegistry({r.size} units, {state})"

-- Factor, offset and dimensions of the terms of a product so far; a factor that is no real number is kept
-- as such.
structure Total (α : Type) where
  factor : Option α
  offset : α
  dimensions : Dimensions

def Total.start : Total α :=
  ⟨some 1, 0, 0⟩

-- Takes one more term into a total. An absolute scale has to be the whole expression, which is what `single`
-- says of it.
def addTerm (r : Registry α) (single : Bool) (t : Total α) (term : Component) : Except Error (Total α) := do
  let unit ← r.lookup term.1
  let power ← (Scalar.power unit.factor term.2).mapError .arithmetic
  if unit.isAffine ∧ !single then
    throw (.affineMisuse term.1 term.2 (if term.2 = 1 then .compound else .exponent))
  return {
    factor := do return (← t.factor) * (← power)
    offset := if unit.isAffine then unit.offset else t.offset
    dimensions := t.dimensions + unit.dimensions.scale term.2
  }

-- Multiplies out an expression, its terms in the order of their names. The result is written down, so neither
-- the expression nor the dimensions may have integers that are too long.
def reduce (r : Registry α) (e : Expression) : Except Error (BaseForm α) := do
  let t ← e.components.foldlM (r.addTerm e.isSingle) .start
  Error.requireWritable e.exponents
  let unit : BaseForm α := ⟨t.dimensions, ← BaseForm.realFactor t.factor, t.offset, e.render, .reduced⟩
  unit.requireSignature
  return unit

def reduceText (r : Registry α) (text : String) : Except Error (BaseForm α) := do
  r.reduce (← Expression.parse text)

-- Reduces a text and reports the result.
def reducing {σ : Type} (r : Registry α) (text : String) : Action α σ (BaseForm α) := do
  let unit ← Action.ofExcept (r.reduceText text)
  Action.report (.reduced text unit)
  return unit

-- A name is neither empty nor made with operators, signs, parentheses, digits or blanks.
def isValidName (name : String) : Bool :=
  name != "" && name.toList.all fun c => !"*/^()+-0123456789".toList.contains c && !Text.isBlank c

-- What a new unit is defined by: an expression over the registry or a ready form.
inductive Meaning (α : Type)
  | text (t : String)
  | form (unit : BaseForm α)

namespace Meaning

def label : Meaning α → String
  | text t => t
  | form unit => unit.label

-- Fails if the label is too long to be written.
def requireLabel : Meaning α → Except Error Unit
  | text _ => .ok ()
  | form unit => if unit.symbol = "" then unit.requireSignature else .ok ()

def resolve {σ : Type} (r : Registry α) : Meaning α → Action α σ (BaseForm α)
  | text t => r.reducing t
  | form unit => return unit

end Meaning

-- One of the new unit is `factor` of its meaning, shifted by `offset` base units.
def definedForm (name : String) (base : BaseForm α) (factor offset : Given α) : Except Error (BaseForm α) := do
  return ⟨base.dimensions, ← Given.times base.factor factor, ← Given.plus base.offset offset, name, .composed⟩

-- Defines a unit. The name is entered before the report of it is written, so it stays even if that fails.
def define (name : String) (meaning : Meaning α) (factor offset : Given α) (replace : Bool) :
    Action α (Registry α) (BaseForm α) := do
  if !isValidName name then Action.fail (.invalidName name) else
  let r ← Action.get
  Action.ofExcept r.requireMutable
  if r.contains name ∧ !replace then Action.fail (.alreadyDefined name) else
  let base ← meaning.resolve r
  let form ← Action.ofExcept (definedForm name base factor offset)
  Action.modify fun r => r.commit (r.units.insert name form)
  Action.ofExcept meaning.requireLabel
  Action.report (.defined name factor meaning.label)
  return form

def register (d : Definition α) (replace : Bool) : Action α (Registry α) Unit := do
  let r ← Action.get
  Action.ofExcept r.requireMutable
  let units ← Action.ofExcept (enterAll r.units d replace)
  Action.modify (·.commit units)
  Action.report (.registered d.symbol)

end Registry

end Metrology
