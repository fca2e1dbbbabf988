import Metrology.Decimal.Numeral
import Metrology.Text.Quoted

/-!
Command line arguments. Long options may be shortened and take a value behind `=` or as the next argument,
short options may be bundled, and everything behind `--` is no option. A separator that is attached to an option as
its argument is dropped, which leaves the option with an empty list.
-/

namespace Metrology.CommandLine

inductive Flag
  | help
  | value
  | dimensions
  | list
  | logLevel
  deriving DecidableEq, Repr

namespace Flag

def all : List Flag :=
  [help, value, dimensions, list, logLevel]

def spellings : Flag → List String
  | help => ["-h", "--help"]
  | value => ["-v", "--value"]
  | dimensions => ["-d", "--dimensions"]
  | list => ["-l", "--list"]
  | logLevel => ["--log-level"]

def takesArgument : Flag → Bool
  | help | list => false
  | _ => true

-- The option as messages name it.
def title (f : Flag) : String :=
  "/".intercalate f.spellings

def ofSpelling? (spelling : String) : Option Flag :=
  all.find? (·.spellings.contains spelling)

-- All spellings, in the order in which messages list them.
def spelled : List (String × Flag) :=
  all.flatMap fun f => f.spellings.map (·, f)

end Flag

-- Why reading the arguments ends early.
inductive Stop
  | help
  | ambiguous (argument : String) (candidates : List String)
  | expectedArgument (flag : Flag)
  | ignoredArgument (flag : Flag) (argument : String)
  | invalidNumber (flag : Flag) (argument : String)
  | unrecognized (arguments : List String)
  deriving DecidableEq, Repr

def Stop.message : Stop → String
  | help => ""
  | ambiguous argument candidates =>
    s!"ambiguous option: {argument} could match " ++ ", ".intercalate candidates
  | expectedArgument flag => s!"argument {flag.title}: expected one argument"
  | ignoredArgument flag argument =>
    s!"argument {flag.title}: ignored explicit argument " ++ Text.quoted argument
  | invalidNumber flag argument => s!"argument {flag.title}: invalid float value: " ++ Text.quoted argument
  | unrecognized arguments => "unrecognized arguments: " ++ " ".intercalate arguments

inductive Token
  | plain
  | separator
  | unknown
  -- An option with the argument that is attached to it; it is `bundled` if it is written with one dash.
  | option (flag : Flag) (bundled : Bool) (attached : Option (List Char))
  deriving DecidableEq, Repr

def isNegativeNumber (argument : List Char) : Bool :=
  match argument with
  | '-' :: rest =>
    let body := if rest.getLast? = some '\n' then rest.dropLast else rest
    let digits (text : List Char) := text ≠ [] ∧ text.all Text.isDigit
    decide (digits body) ||
      match body.dropWhile Text.isDigit with
      | '.' :: places => decide (digits places)
      | _ => false
  | _ => false

-- The text in front of the first equals sign, and the one behind it if there is one.
def splitEquals (text : List Char) : List Char × Option (List Char) :=
  match text.dropWhile (· != '=') with
  | _ :: rest => (text.takeWhile (· != '='), some rest)
  | [] => (text, none)

-- The options that an argument can stand for, by their spellings.
def candidates (argument : List Char) : List (String × Token) :=
  match argument with
  | '-' :: '-' :: _ =>
    let (stem, attached) := splitEquals argument
    (Flag.spelled.filter fun (spelling, _) => stem.isPrefixOf spelling.toList).map fun (spelling, flag) =>
      (spelling, .option flag false attached)
  | _ =>
    (Flag.spelled.filter fun (spelling, _) => spelling.toList = argument.take 2).map fun (spelling, flag) =>
      (spelling, .option flag true (some (argument.drop 2)))

def classify (argument : String) : Except Stop Token :=
  let text := argument.toList
  if text.head? ≠ some '-' then .ok .plain else
  match Flag.ofSpelling? argument with
  | some flag => .ok (.option flag (text[1]? != some '-') none)
  | none =>
    if text.length = 1 then .ok .plain else
    let (stem, attached) := splitEquals text
    match attached, Flag.ofSpelling? (String.ofList stem) with
    | some attached, some flag => .ok (.option flag (text[1]? != some '-') (some attached))
    | _, _ =>
      match candidates text with
      | [(_, token)] => .ok token
      | [] => .ok (if isNegativeNumber text || text.contains ' ' then .plain else .unknown)
      | several => .error (.ambiguous argument (several.map (·.1)))

-- Classifies arguments up to a separator; everything behind it is plain.
def tokens : List String → Except Stop (List (Token × String))
  | [] => .ok []
  | argument :: rest =>
    if argument = "--" then .ok ((.separator, argument) :: rest.map (.plain, ·))
    else do
      let token ← classify argument
      return (token, argument) :: (← tokens rest)

-- What an option holds once its argument is read: a value, or an empty list if the argument was dropped.
inductive Supplied (α : Type)
  | value (x : α)
  | emptyList
  deriving DecidableEq, Repr

namespace Supplied

variable {α : Type}

-- Reads the argument of an option, unless it is a separator.
def read {ε : Type} (argument : String) (f : String → Except ε α) : Except ε (Supplied α) :=
  if argument = "--" then .ok emptyList else (f argument).map value

def value? : Supplied α → Option α
  | value x => some x
  | emptyList => none

end Supplied

structure Arguments where
  source : Option String
  target : Option String
  value : Option (Supplied Float)
  dimensions : Option (Supplied String)
  list : Bool
  logLevel : Option String

-- What has been read so far. Source and target are read together, where the first plain argument stands.
structure Reading where
  arguments : Arguments
  unitsRead : Bool
  extras : List String

namespace Reading

def start : Reading where
  arguments := ⟨none, none, none, none, false, none⟩
  unitsRead := false
  extras := []

def addExtra (r : Reading) (argument : String) : Reading :=
  { r with extras := r.extras ++ [argument] }

-- Enters an option with its argument.
def enter (r : Reading) (use : Flag × String) : Except Stop Reading := do
  let a := r.arguments
  match use.1 with
  | .help => throw .help
  | .value =>
    let number ← Supplied.read use.2 fun text => (readFloat? text).elim (.error (.invalidNumber .value text)) .ok
    return { r with arguments := { a with value := some number } }
  | .dimensions =>
    let unit ← Supplied.read use.2 .ok
    return { r with arguments := { a with dimensions := some unit } }
  | .list => return { r with arguments := { a with list := true } }
  | .logLevel =>
    let level ← Supplied.read use.2 .ok
    return { r with arguments := { a with logLevel := level.value? } }

end Reading

-- Takes the arguments that one unit covers: a plain one and the separator next to it.
def takeUnit (rest : List (Token × String)) : List String × List (Token × String) :=
  let isSeparator (t : Token × String) := t.1 == .separator
  let front := rest.takeWhile isSeparator
  let rest := rest.dropWhile isSeparator
  let unit := rest.take (if rest.head?.any (·.1 == .plain) then 1 else 0)
  let rest := rest.drop unit.length
  ((front ++ unit ++ rest.takeWhile isSeparator).map (·.2), rest.dropWhile isSeparator)

-- The unit among the arguments it covers, one separator left aside.
def unitAmong (covered : List String) : Option String :=
  (covered.erase "--").head?

-- The options that one argument holds, with their arguments.
structure Bundle where
  uses : List (Flag × String)
  -- Whether the argument of the last option was the next one on the command line.
  tookNext : Bool

-- An option without an attached argument.
def detached (flag : Flag) (next : Option (Token × String)) : Except Stop Bundle :=
  if !flag.takesArgument then .ok ⟨[(flag, "")], false⟩ else
  match next with
  | some (.plain, argument) => .ok ⟨[(flag, argument)], true⟩
  | _ => .error (.expectedArgument flag)

-- Takes a bundle of short options apart. What is attached to an option without argument are further options.
def unbundle (flag : Flag) (next : Option (Token × String)) (attached : List Char) : Except Stop Bundle :=
  if flag.takesArgument then .ok ⟨[(flag, String.ofList attached)], false⟩ else
  match attached with
  | [] => .error (.ignoredArgument flag "")
  | c :: rest =>
    match Flag.ofSpelling? (String.ofList ['-', c]) with
    | none => .error (.ignoredArgument flag (String.ofList (c :: rest)))
    | some following => do
      let bundle ← if rest = [] then detached following next else unbundle following next rest
      return { bundle with uses := (flag, "") :: bundle.uses }

def readOption (flag : Flag) (bundled : Bool) (attached : Option (List Char)) (next : Option (Token × String)) :
    Except Stop Bundle :=
  match attached with
  | none => detached flag next
  | some text =>
    if flag.takesArgument ∨ bundled then unbundle flag next text
    else .error (.ignoredArgument flag (String.ofList text))

theorem takeUnit_length (rest : List (Token × String)) : (takeUnit rest).2.length ≤ rest.length := by
  unfold takeUnit
  simp only
  refine Nat.le_trans (List.dropWhile_suffix _).length_le ?_
  rw [List.length_drop]
  exact Nat.le_trans (Nat.sub_le ..) (List.dropWhile_suffix _).length_le

-- Reads source and target off the front.
def readUnits (r : Reading) (rest : List (Token × String)) : Reading × List (Token × String) :=
  let source := takeUnit rest
  let target := takeUnit source.2
  ({ r with
      arguments := { r.arguments with source := unitAmong source.1, target := unitAmong target.1 }
      unitsRead := true }, target.2)

theorem readUnits_length (r : Reading) (rest : List (Token × String)) :
    (readUnits r rest).2.length ≤ rest.length :=
  Nat.le_trans (takeUnit_length _) (takeUnit_length _)

theorem readUnits_unitsRead (r : Reading) (rest : List (Token × String)) :
    (readUnits r rest).1.unitsRead = true :=
  rfl

def readFrom (r : Reading) : List (Token × String) → Except Stop Reading
  | [] => .ok r
  | (.unknown, argument) :: rest => readFrom (r.addExtra argument) rest
  | (.option flag bundled attached, _) :: rest => do
    let bundle ← readOption flag bundled attached rest.head?
    let r ← bundle.uses.foldlM Reading.enter r
    readFrom r (rest.drop (if bundle.tookNext then 1 else 0))
  | (token, argument) :: rest =>
    if _h : r.unitsRead then readFrom (r.addExtra argument) rest
    else readFrom (readUnits r ((token, argument) :: rest)).1 (readUnits r ((token, argument) :: rest)).2
  termination_by tokens => 2 * tokens.length + if r.unitsRead then 0 else 1
  decreasing_by
    · simp only [List.length_cons]
      split <;> split <;> omega
    · simp only [List.length_cons, List.length_drop]
      split <;> split <;> omega
    · simp only [List.length_cons]
      split <;> omega
    · have := readUnits_length r ((token, argument) :: rest)
      rw [if_pos (readUnits_unitsRead ..), if_neg _h]
      omega

def read (arguments : List String) : Except Stop Arguments := do
  let r ← readFrom .start (← tokens arguments)
  if r.extras ≠ [] then throw (.unrecognized r.extras)
  return r.arguments

end Metrology.CommandLine
