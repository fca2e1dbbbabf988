import Metrology.Scalar

/-!
Conversion errors made from their kind and from what they are about, as a caller gives it.
-/

namespace Metrology.Error

variable {α : Type} [Scalar α]

-- The error for a misuse given by its name, which is looked up before the exponent is read.
def ofMisuse (unit : String) (exponent : Given α) (misuse : String) : Except Error Error :=
  match Misuse.ofName? misuse with
  | some m => return .affineMisuse unit (← exponent.toExponent) m
  | none => .error (.unknownMisuse misuse)

-- What a general error says: nothing, the one thing it was given, or all of them as a list.
def describe : List (Given α) → String
  | [] => ""
  | [g] => g.render
  | several => "(" ++ ", ".intercalate (several.map Given.quoted) ++ ")"

-- The fault of a number of arguments that does not fit the kind of error.
def ofCount (kind : Kind) (given : Nat) : Error :=
  let names := kind.parameters.getD []
  if given < names.length then .missingArguments kind (names.drop given)
  else .surplusArguments kind (names.length + 1) (given + 1)

def ofArguments (kind : Kind) (arguments : List (Given α)) : Except Error Error :=
  match kind, arguments with
  | .general, arguments => .ok (.general (describe arguments))
  | .unknownUnit, [unit] => .ok (.unknownUnit unit.render)
  | .malformed, [text, reason] => .ok (.malformed ⟨text.render, .stated reason.render⟩)
  | .incompatible, [source, target, sourceSignature, targetSignature] =>
    .ok (.incompatible source.render target.render sourceSignature.render targetSignature.render)
  | .affineMisuse, [unit, exponent, misuse] => ofMisuse unit.render exponent misuse.render
  | kind, arguments => .error (ofCount kind arguments.length)

end Metrology.Error
