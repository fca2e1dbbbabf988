import Metrology.Converter

/-!
Sessions: a converter and its registry over time. Calls of the converter and changes of the registry come in any
order. Beside the converter stands what its calls answer without a memory, each from the registry as it is.
-/

namespace Metrology

variable {α : Type}

-- What changes a registry.
inductive Registry.Change (α : Type) [Scalar α]
  | define (name : String) (meaning : Registry.Meaning α) (factor offset : Given α) (replace : Bool)
  | register (definition : Definition α) (replace : Bool)
  | freeze

-- The registry after a change, whether that succeeds or fails.
def Registry.Change.apply [Scalar α] (r : Registry α) : Registry.Change α → Registry α
  | define name meaning factor offset replace => (Registry.define name meaning factor offset replace r).state
  | register definition replace => (Registry.register definition replace r).state
  | freeze => r.freeze

namespace Converter

-- What a converter can be asked for.
inductive Call (α : Type)
  | reduce (text : String)
  | conversionFactor (source target : String)
  | convertValue (value : Given α) (source target : String)
  | isCompatible (first second : String)
  | dimensions (text : String)
  | forget

inductive Answer (α : Type)
  | unit (u : BaseForm α)
  | scalar (x : α)
  | truth (b : Bool)
  | signature (s : String)
  | done

namespace Call

variable [Scalar α]

def run (r : Registry α) : Call α → Action α (Converter α) (Answer α)
  | reduce text => return .unit (← Converter.reduce r text)
  | conversionFactor source target => return .scalar (← Converter.conversionFactor r source target)
  | convertValue value source target => return .scalar (← Converter.convertValue r value source target)
  | isCompatible first second => return .truth (← Converter.isCompatible r first second)
  | dimensions text => return .signature (← Converter.dimensions r text)
  | forget => do
    Action.modify Converter.forget
    return .done

end Call

end Converter

/-
Conversions without a memory: the settings and the registry as it is are all that an answer depends on.
-/
namespace Converter.Fresh

variable [Scalar α]

def reduceBoth (r : Registry α) (source target : String) : Except Error (BaseForm α × BaseForm α) := do
  let u ← r.reduceText source
  let v ← r.reduceText target
  if !u.compatible v then .error (.incompatible source target u.signature v.signature) else
  return (u, v)

def conversionFactor (s : Settings) (r : Registry α) (source target : String) : Except Error α := do
  let (u, v) ← reduceBoth r source target
  let ratio ← (u.ratio v).mapError .arithmetic
  return rounded s ratio

def convertValue (s : Settings) (r : Registry α) (value : Given α) (source target : String) : Except Error α := do
  let (u, v) ← reduceBoth r source target
  let x ← value.toScalar
  let y ← (u.convert v x).mapError .arithmetic
  return rounded s y

def isCompatible (r : Registry α) (first second : String) : Except Error Bool := do
  let u ← r.reduceText first
  let v ← r.reduceText second
  return u.compatible v

def dimensions (r : Registry α) (text : String) : Except Error String := do
  return (← r.reduceText text).signature

end Converter.Fresh

namespace Converter

variable [Scalar α]

-- What a call answers without a memory.
def Call.fresh (s : Settings) (r : Registry α) : Call α → Except Error (Answer α)
  | reduce text => return .unit (← r.reduceText text)
  | conversionFactor source target => return .scalar (← Fresh.conversionFactor s r source target)
  | convertValue value source target => return .scalar (← Fresh.convertValue s r value source target)
  | isCompatible first second => return .truth (← Fresh.isCompatible r first second)
  | dimensions text => return .signature (← Fresh.dimensions r text)
  | forget => return .done

end Converter

structure Session (α : Type) where
  registry : Registry α
  converter : Converter α

namespace Session

inductive Step (α : Type) [Scalar α]
  | call (c : Converter.Call α)
  | change (c : Registry.Change α)

variable [Scalar α]

-- A session with a new converter.
def start (settings : Settings) (r : Registry α) : Session α :=
  ⟨r, .create settings r⟩

def step (s : Session α) : Step α → Session α
  | .call c => { s with converter := (c.run s.registry s.converter).state }
  | .change c => { s with registry := c.apply s.registry }

-- The answers to the calls of a run, in order.
def answers (s : Session α) : List (Step α) → List (Except Error (Converter.Answer α))
  | [] => []
  | .call c :: rest => (c.run s.registry s.converter).result :: (s.step (.call c)).answers rest
  | .change c :: rest => (s.step (.change c)).answers rest

-- The answers to the same calls without a memory, each from the registry at that moment.
def freshAnswers (settings : Settings) (r : Registry α) : List (Step α) → List (Except Error (Converter.Answer α))
  | [] => []
  | .call c :: rest => c.fresh settings r :: freshAnswers settings r rest
  | .change c :: rest => freshAnswers settings (c.apply r) rest

end Session

end Metrology
