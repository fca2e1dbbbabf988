import Metrology.BaseForm
import Metrology.SiPrefix

/-!
Unit definitions: a base form with all of its names, and the prefixed forms that go with them.
-/

namespace Metrology

-- The kind of quantity that a definition is for; definitions outside of the catalog are general or derived.
inductive Definition.Family
  | length
  | mass
  | time
  | current
  | temperature
  | amount
  | luminousIntensity
  | ratio
  | area
  | volume
  | velocity
  | acceleration
  | frequency
  | force
  | energy
  | power
  | pressure
  | electricity
  | general
  | derived
  deriving DecidableEq, Repr

def Definition.Family.title : Definition.Family → String
  | length => "SpatialUnit"
  | mass => "MassUnit"
  | time => "TemporalUnit"
  | current => "CurrentUnit"
  | temperature => "ThermalUnit"
  | amount => "AmountUnit"
  | luminousIntensity => "LuminousUnit"
  | ratio => "DimensionlessUnit"
  | area => "AreaUnit"
  | volume => "VolumeUnit"
  | velocity => "VelocityUnit"
  | acceleration => "AccelerationUnit"
  | frequency => "FrequencyUnit"
  | force => "ForceUnit"
  | energy => "EnergyUnit"
  | power => "PowerUnit"
  | pressure => "PressureUnit"
  | electricity => "ElectricUnit"
  | general => "UnitDefinition"
  | derived => "DerivedUnit"

-- A unit with all of its names. It has a symbol, and it takes prefixes only if it is no absolute scale.
structure Definition (α : Type) [Scalar α] where
  family : Definition.Family
  symbol : String
  form : BaseForm α
  aliases : List String
  longNames : List String
  siPrefixes : List (SiPrefix α)
  named : symbol ≠ ""
  linear : siPrefixes = [] ∨ !form.isAffine

namespace Definition

-- The names of a unit besides its symbol, and the prefixes it takes.
structure Naming (α : Type) where
  aliases : List String := []
  longNames : List String := []
  siPrefixes : List (SiPrefix α) := []

variable {α : Type} [Scalar α]

-- A definition from its parts. It needs a symbol, and an absolute scale takes no prefixes.
def make (family : Family) (dimensions : Dimensions) (factor offset : Given α) (symbol : String)
    (naming : Naming α) : Except Error (Definition α) :=
  if named : symbol = "" then .error .nameless
  else do
    let form : BaseForm α := ⟨dimensions, ← factor.toScalar, ← offset.toScalar, symbol, .composed⟩
    if linear : naming.siPrefixes = [] ∨ !form.isAffine then
      return ⟨family, symbol, form, naming.aliases, naming.longNames, naming.siPrefixes, named, linear⟩
    else throw (.prefixedScale symbol)

-- A multiple of a form, always without an offset.
def derive (symbol : String) (base : BaseForm α) (scale : Given α) (naming : Naming α) :
    Except Error (Definition α) := do
  let factor ← Given.times base.factor scale
  make .derived base.dimensions (.scalar factor) (.scalar 0) symbol naming

def names (d : Definition α) : List String :=
  d.symbol :: d.aliases ++ d.longNames

-- The form with a prefix, for a definition without offset.
def prefixed (d : Definition α) (p : SiPrefix α) : BaseForm α :=
  { d.form with
    factor := d.form.factor * p.factor
    offset := 0
    symbol := p.symbol ++ d.symbol }

def withPrefix (d : Definition α) (p : SiPrefix α) : Except Error (BaseForm α) := do
  d.form.requireLinear 1 .exponent
  return d.prefixed p

-- All names of the unit with their forms: short names take the symbols of a prefix, long names its name.
def expand (d : Definition α) : List (String × BaseForm α) :=
  (d.names.map fun name => (name, d.form)) ++ d.siPrefixes.flatMap fun p =>
    ((p.symbols.flatMap fun symbol => (d.symbol :: d.aliases).map (symbol ++ ·)) ++
      d.longNames.map (p.name ++ ·)).map fun name => (name, d.prefixed p)

def describe (d : Definition α) : String :=
  s!"{d.family.title}({d.symbol}, scale={Scalar.text d.form.factor})"

end Definition

end Metrology
