import Metrology.Log

/-!
Converter settings, given directly or by the environment.
-/

namespace Metrology

structure Settings where
  -- How many reduced expressions are remembered; zero turns the memory off.
  cacheSize : Nat
  -- How many decimal places results are rounded to, if at all.
  rounding : Option Nat
  logLevel : String
  deriving DecidableEq, Repr

namespace Settings

def standard : Settings :=
  ⟨256, none, "WARNING"⟩

-- Checks settings one after the other. The level is kept in upper case.
def make (cacheSize : Int) (rounding : Option Int) (logLevel : String) : Except Error Settings := do
  if cacheSize < 0 then throw .negativeCacheSize
  if rounding.any (· < 0) then throw .negativeRounding
  let level := Text.uppercase logLevel
  if (Level.named.lookup level).isNone then throw (.unknownLogLevel level)
  return ⟨cacheSize.toNat, rounding.map Int.toNat, level⟩

def withLogLevel (s : Settings) (logLevel : String) : Except Error Settings :=
  make s.cacheSize (s.rounding.map Int.ofNat) logLevel

-- The variables of an environment; one that is empty counts as not set.
abbrev Environment := String → Option String

def variableName (name : String) : String :=
  "UNITCONVERTER_" ++ name

def variableNames : List String :=
  ["CACHE_SIZE", "ROUNDING", "LOG_LEVEL"].map variableName

def integer? (environment : Environment) (name : String) : Except Error (Option Int) :=
  match (environment (variableName name)).filter (· ≠ "") with
  | none => .ok none
  | some text =>
    match readInteger? text with
    | some n => .ok (some n)
    | none => .error (.notAnInteger (variableName name) text)

def ofEnvironment (environment : Environment) : Except Error Settings := do
  let cacheSize ← integer? environment "CACHE_SIZE"
  let rounding ← integer? environment "ROUNDING"
  let logLevel := (environment (variableName "LOG_LEVEL")).filter (· ≠ "")
  make (cacheSize.getD standard.cacheSize) rounding (logLevel.getD standard.logLevel)

end Settings

end Metrology
