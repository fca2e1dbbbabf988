import Metrology.Catalog
import Metrology.CommandLine.Arguments
import Metrology.Converter

/-!
The command line: prints a conversion factor, a converted value, the dimensions of an expression or the names
of all units. Usage errors end with status 2, failed conversions with status 1.
-/

namespace Metrology.CommandLine

-- What a run leaves behind: its exit status and the lines it prints.
structure Report where
  status : Nat
  out : List String
  err : List String
  deriving DecidableEq, Repr

inductive Request
  | names
  | dimensions (unit : Supplied String)
  | factor (source target : String)
  | value (x : Supplied Float) (source target : String)

-- What the arguments ask for; a list of names comes before all else, dimensions before conversions.
def Arguments.request? (a : Arguments) : Option Request :=
  if a.list then some .names else
  match a.dimensions, a.source, a.target, a.value with
  | some unit, _, _, _ => some (.dimensions unit)
  | none, some source, some target, none => some (.factor source target)
  | none, some source, some target, some x => some (.value x source target)
  | _, _, _, _ => none

def Arguments.settings (a : Arguments) (environment : Settings.Environment) : Except Error Settings := do
  let settings ← Settings.ofEnvironment environment
  match a.logLevel.filter (· ≠ "") with
  | none => return settings
  | some level => settings.withLogLevel level

def Supplied.given : Supplied Float → Given Float
  | value x => .scalar x
  | emptyList => .emptyList

def Request.answer (r : Registry Float) : Request → Action Float (Converter Float) (List String)
  | names => return r.names
  | dimensions (.value text) => return [← Converter.dimensions r text]
  | dimensions .emptyList => Converter.refuse r "list"
  | factor source target => return [Scalar.text (← Converter.conversionFactor r source target)]
  | value x source target => return [Scalar.text (← Converter.convertValue r x.given source target)]

def programName : String :=
  "unitconverter"

def usageError (message : String) : Report :=
  ⟨2, [], [s!"{programName}: error: {message}"]⟩

-- The events from a severity on, a line for each.
def logLines (severity : Int) (events : List (Event Float)) : List String :=
  (events.filter (severity ≤ ·.level.severity)).map fun e => s!"{e.level.name}:{programName}:{e.message}"

-- The report of a request. Only conversions fail with a report.
def Request.report (r : Registry Float) (settings : Settings) (q : Request) : Except Error Report :=
  let o := q.answer r (.create settings r)
  let log := logLines ((Level.named.lookup settings.logLevel).getD 0) o.events
  match o.result with
  | .ok out => .ok ⟨0, out, log⟩
  | .error e =>
    if e.written.isConversion then .ok ⟨1, [], log ++ ["error: " ++ e.message]⟩ else .error e.written

def run (r : Registry Float) (environment : Settings.Environment) (arguments : List String) :
    Except Error Report :=
  match read arguments with
  | .error .help => .ok ⟨0, [], []⟩
  | .error stop => .ok (usageError stop.message)
  | .ok a =>
    match a.settings environment with
    | .error e => .ok (usageError e.message)
    | .ok settings =>
      match a.request? with
      | none => .ok (usageError "FROM and TO unit expressions are required")
      | some q => q.report r settings

end Metrology.CommandLine
