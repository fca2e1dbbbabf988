import Metrology.BaseForm
import Metrology.Text.Uppercase

/-!
What operations report: events with a level, and the threshold below which they are not shown.
-/

namespace Metrology

inductive Level
  | debug
  | info
  | warning
  | error
  | critical
  deriving DecidableEq, Repr

namespace Level

def name : Level → String
  | debug => "DEBUG"
  | info => "INFO"
  | warning => "WARNING"
  | error => "ERROR"
  | critical => "CRITICAL"

def severity : Level → Int
  | debug => 10
  | info => 20
  | warning => 30
  | error => 40
  | critical => 50

-- The severities that can be asked for by name.
def named : List (String × Int) :=
  [("CRITICAL", 50), ("FATAL", 50), ("ERROR", 40), ("WARN", 30), ("WARNING", 30), ("INFO", 20), ("DEBUG", 10),
    ("NOTSET", 0)]

end Level

-- The lowest severity that is shown; zero leaves the decision to the surroundings, which show warnings.
structure Threshold where
  severity : Int
  deriving DecidableEq, Repr

namespace Threshold

def unset : Threshold := ⟨0⟩

def effective (t : Threshold) : Int :=
  if t.severity = 0 then Level.warning.severity else t.severity

def shows (t : Threshold) (l : Level) : Bool :=
  t.effective ≤ l.severity

-- The threshold with a name, in any letter case.
def ofName (name : String) : Except Error Threshold :=
  match Level.named.lookup (Text.uppercase name) with
  | some severity => .ok ⟨severity⟩
  | none => .error (.unknownThreshold (Text.uppercase name))

-- A threshold given by its severity or its name.
def ofGiven {α : Type} [Scalar α] : Given α → Except Error Threshold
  | .integer n => .ok ⟨n⟩
  | .text name => ofName name
  | g => .error (.notAThreshold g.render)

end Threshold

inductive Event (α : Type)
  | built (units : Nat)
  | registered (symbol : String)
  | defined (name : String) (factor : Given α) (definition : String)
  | reduced (text : String) (unit : BaseForm α)
  | foundFactor (source target : String) (factor : α)
  | converted (value : Given α) (source : String) (result : α) (target : String)

namespace Event

variable {α : Type} [Scalar α]

def level : Event α → Level
  | registered _ | defined .. => .info
  | _ => .debug

def message : Event α → String
  | built units => s!"Unit registry built with {units} units"
  | registered symbol => s!"Registered unit '{symbol}'"
  | defined name factor definition => s!"Defined unit '{name}' as {factor.render} {definition}"
  | reduced _ unit => s!"Reduced '{unit.symbol}' to {unit.describe}"
  | foundFactor source target factor => s!"1 {source} = {Scalar.text factor} {target}"
  | converted value source result target => s!"{value.render} {source} = {Scalar.text result} {target}"

end Event

end Metrology
