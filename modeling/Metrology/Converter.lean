import Metrology.Converter.Memo
import Metrology.Converter.Settings
import Metrology.Registry

/-!
Converters: conversions between expressions over a registry. A converter remembers what expressions reduced to
for as long as the registry stays the same version.
-/

namespace Metrology

structure Converter (α : Type) where
  settings : Settings
  memo : Memo α
  -- The version of the registry that the memory belongs to.
  version : Nat

namespace Converter

variable {α : Type} [Scalar α]

def create (settings : Settings) (r : Registry α) : Converter α :=
  ⟨settings, [], r.version⟩

def forget (c : Converter α) : Converter α :=
  { c with memo := [] }

-- Forgets everything if the registry has changed.
def refresh (c : Converter α) (r : Registry α) : Converter α :=
  if c.version = r.version then c else { c with memo := [], version := r.version }

def touch (c : Converter α) (text : String) : Converter α :=
  { c with memo := c.memo.touch text }

def remember (c : Converter α) (text : String) (unit : BaseForm α) : Converter α :=
  { c with memo := c.memo.insert c.settings.cacheSize text unit }

def reduce (r : Registry α) (text : String) : Action α (Converter α) (BaseForm α) := do
  if (← Action.get).settings.cacheSize = 0 then r.reducing text else
  Action.modify (·.refresh r)
  match (← Action.get).memo.find? text with
  | some unit =>
    Action.modify (·.touch text)
    return unit
  | none =>
    let unit ← r.reducing text
    Action.modify (·.remember text unit)
    return unit

-- Refuses something that is no text. It is looked up in the memory like a text, which lists and mappings cannot be.
def refuse {β : Type} (r : Registry α) (kind : String) : Action α (Converter α) β := do
  if (← Action.get).settings.cacheSize = 0 then Action.fail (.notAnExpression kind) else
  Action.modify (·.refresh r)
  Action.fail (if kind = "list" ∨ kind = "dict" then .notAKey kind else .notAnExpression kind)

-- Reduces source and target, which have to be compatible.
def reduceBoth (r : Registry α) (source target : String) :
    Action α (Converter α) (BaseForm α × BaseForm α) := do
  let u ← reduce r source
  let v ← reduce r target
  if !u.compatible v then Action.fail (.incompatible source target u.signature v.signature) else
  return (u, v)

def rounded (s : Settings) (x : α) : α :=
  match s.rounding with
  | none => x
  | some places => Scalar.roundTo places x

def conversionFactor (r : Registry α) (source target : String) : Action α (Converter α) α := do
  let (u, v) ← reduceBoth r source target
  let ratio ← Action.ofExcept ((u.ratio v).mapError .arithmetic)
  let factor := rounded (← Action.get).settings ratio
  Action.report (.foundFactor source target factor)
  return factor

def convertValue (r : Registry α) (value : Given α) (source target : String) : Action α (Converter α) α := do
  let (u, v) ← reduceBoth r source target
  let x ← Action.ofExcept value.toScalar
  let y ← Action.ofExcept ((u.convert v x).mapError .arithmetic)
  let result := rounded (← Action.get).settings y
  Action.report (.converted value source result target)
  return result

def isCompatible (r : Registry α) (first second : String) : Action α (Converter α) Bool := do
  let u ← reduce r first
  let v ← reduce r second
  return u.compatible v

def dimensions (r : Registry α) (text : String) : Action α (Converter α) String := do
  return (← reduce r text).signature

end Converter

end Metrology
