import Metrology.Decimal.Length
import Metrology.Text.Quoted

/-!
What can go wrong, by cause, and how each cause is worded.
-/

namespace Metrology

-- Arithmetic on factors that has no result.
inductive ArithmeticFault
  | divisionByZero
  | integerDivisionByZero
  | zeroToNegativePower
  | powerTooLarge
  | notReal
  | notRealTooLarge
  | integerTooLarge
  | quotientTooLarge
  | noNumber
  | noFiniteNumber
  deriving DecidableEq, Repr

namespace ArithmeticFault

def message : ArithmeticFault → String
  | divisionByZero => "float division by zero"
  | integerDivisionByZero => "division by zero"
  | zeroToNegativePower => "0.0 cannot be raised to a negative power"
  | powerTooLarge => "(34, 'Numerical result out of range')"
  | notReal => "float() argument must be a string or a real number, not 'complex'"
  | notRealTooLarge => "complex exponentiation"
  | integerTooLarge => "int too large to convert to float"
  | quotientTooLarge => "integer division result too large for a float"
  | noNumber => "cannot convert NaN to integer ratio"
  | noFiniteNumber => "cannot convert Infinity to integer ratio"

end ArithmeticFault

-- Why a text is no unit expression.
inductive SyntaxFault
  | unbalanced
  | emptyOperand
  | repeatedExponent
  | missingUnit
  | missingExponent
  | badExponent (text : String)
  | zeroDenominator
  | strayParenthesis
  | numericFactor
  -- A reason given in words.
  | stated (reason : String)
  deriving DecidableEq, Repr

namespace SyntaxFault

def reason : SyntaxFault → String
  | unbalanced => "unbalanced parentheses"
  | emptyOperand => "empty operand"
  | repeatedExponent => "multiple '^' operators"
  | missingUnit => "missing unit before '^'"
  | missingExponent => "missing exponent after '^'"
  | badExponent text => s!"exponent '{text}' is not an integer or a fraction"
  | zeroDenominator => "exponent has a zero denominator"
  | strayParenthesis => "unexpected parenthesis in unit name"
  | numericFactor => "numeric factors are not supported"
  | stated reason => reason

end SyntaxFault

-- A text, or the part of a longer one, that is no unit expression.
structure SyntaxError where
  text : String
  fault : SyntaxFault
  deriving DecidableEq, Repr

-- How an absolute scale was misused: with an exponent other than one, or together with other units.
inductive Misuse
  | exponent
  | compound
  deriving DecidableEq, Repr

namespace Misuse

def name : Misuse → String
  | exponent => "exponent"
  | compound => "compound"

def ofName? (name : String) : Option Misuse :=
  [exponent, compound].find? (·.name == name)

end Misuse

-- The kinds of errors about units and conversions; the first one is for causes that are none of the others.
inductive Error.Kind
  | general
  | unknownUnit
  | malformed
  | incompatible
  | affineMisuse
  deriving DecidableEq, Repr

namespace Error.Kind

def all : List Kind :=
  [general, unknownUnit, malformed, incompatible, affineMisuse]

def title : Kind → String
  | general => "UnitConversionError"
  | unknownUnit => "UnknownUnitError"
  | malformed => "InvalidUnitSyntaxError"
  | incompatible => "DimensionalMismatchError"
  | affineMisuse => "AffineUnitMisuseError"

def ofTitle? (title : String) : Option Kind :=
  all.find? (·.title == title)

-- What an error of the kind is about, in the order in which it is given; a general error is about anything.
def parameters : Kind → Option (List String)
  | general => none
  | unknownUnit => some ["unit"]
  | malformed => some ["unit_string", "reason"]
  | incompatible => some ["from_unit", "to_unit", "from_dimensions", "to_dimensions"]
  | affineMisuse => some ["unit", "exponent", "reason"]

end Error.Kind

inductive Error
  -- A conversion error described in words.
  | general (description : String)
  | unknownUnit (name : String)
  | malformed (error : SyntaxError)
  | incompatible (source target sourceSignature targetSignature : String)
  | affineMisuse (unit : String) (exponent : Rat) (misuse : Misuse)
  | arithmetic (fault : ArithmeticFault)
  | unreadableNumber (text : String)
  | unreadableFraction (text : String)
  | zeroDenominator (numerator : Int)
  -- An integer that has too many digits to be read, and one that has too many to be written.
  | numeralTooLong (digits : Nat)
  | integerTooLong
  | unreadableInteger (text : String)
  | notANumber (kind : String)
  | missingFraction
  | textAsFactor
  | unsupportedOperands (operator left right : String)
  | notAUnit (kind : String)
  | notAnExpression (kind : String)
  | notAKey (kind : String)
  | missingArguments (kind : Error.Kind) (names : List String)
  | surplusArguments (kind : Error.Kind) (taken given : Nat)
  | lacks (kind operation : String)
  | unknownMisuse (name : String)
  | unknownDimension (name : String)
  | wrongLength (length : Nat)
  | outOfBounds (place : Int) (size : Nat)
  | unknownSiPrefix (symbol : String)
  | unknownDefinition (symbol : String)
  | nameless
  | prefixedScale (symbol : String)
  | invalidName (name : String)
  | alreadyDefined (name : String)
  | conflict (name symbol : String)
  | frozen
  | negativeCacheSize
  | negativeRounding
  | unknownLogLevel (name : String)
  | notAnInteger (setting text : String)
  | unknownThreshold (name : String)
  | notAThreshold (text : String)
  deriving DecidableEq

namespace Error

def ratText (r : Rat) : String :=
  if r.den = 1 then toString r.num else s!"{r.num}/{r.den}"

-- A list of names in words.
def enumeration : List String → String
  | [] => ""
  | [name] => name
  | [first, second] => first ++ " and " ++ second
  | names => ", ".intercalate names.dropLast ++ ", and " ++ names.getLastD ""

-- The front of a text, as much as a message about an unreadable integer shows of it.
def excerpt (text : String) : String :=
  String.ofList (text.toList.take 200)

def message : Error → String
  | general description => description
  | unknownUnit name => s!"Unknown unit: '{name}'"
  | malformed ⟨text, fault⟩ => s!"Invalid unit syntax in '{text}': {fault.reason}"
  | incompatible source target sourceSignature targetSignature =>
    s!"Cannot convert between incompatible units: '{source}' [{sourceSignature}] and '{target}' [{targetSignature}]"
  | affineMisuse unit exponent .exponent =>
    s!"Cannot use affine unit '{unit}' with exponent {ratText exponent}. " ++
      "Affine units (like absolute temperature scales) can only be used with exponent 1."
  | affineMisuse unit _ .compound =>
    s!"Cannot use affine unit '{unit}' in compound expressions. " ++
      "Affine units (like absolute temperature scales) must be used alone."
  | arithmetic fault => fault.message
  | unreadableNumber text => "could not convert string to float: " ++ Text.quoted text
  | unreadableFraction text => "Invalid literal for Fraction: " ++ Text.quoted text
  | zeroDenominator numerator => s!"Fraction({numerator}, 0)"
  | numeralTooLong digits =>
    s!"Exceeds the limit ({DigitBound.standardDigits} digits) for integer string conversion: " ++
      s!"value has {digits} digits; use sys.set_int_max_str_digits() to increase the limit"
  | integerTooLong =>
    s!"Exceeds the limit ({DigitBound.standardDigits} digits) for integer string conversion; " ++
      "use sys.set_int_max_str_digits() to increase the limit"
  | unreadableInteger text => "invalid literal for int() with base 10: " ++ excerpt (Text.quoted text)
  | notANumber kind => s!"float() argument must be a string or a real number, not '{kind}'"
  | missingFraction => "argument should be a string or a Rational instance"
  | textAsFactor => "can't multiply sequence by non-int of type 'float'"
  | unsupportedOperands operator left right =>
    s!"unsupported operand type(s) for {operator}: '{left}' and '{right}'"
  | notAUnit kind => s!"Expected a unit, got {kind}"
  | notAnExpression kind => s!"Unit expression must be a string, got {kind}"
  | notAKey kind => s!"unhashable type: '{kind}'"
  | missingArguments kind names =>
    s!"{kind.title}.__init__() missing {names.length} required positional " ++
      (if names.length = 1 then "argument: " else "arguments: ") ++ enumeration (names.map Text.quoted)
  | surplusArguments kind taken given =>
    s!"{kind.title}.__init__() takes {taken} positional arguments but {given} were given"
  | lacks kind operation => s!"'{kind}' object has no attribute '{operation}'"
  | unknownMisuse name => s!"Unknown affine misuse reason: {name}"
  | unknownDimension name => Text.quoted name
  | wrongLength length => s!"Dimension vector must have 7 entries, got {length}"
  | outOfBounds place size => s!"index {place} is out of bounds for axis 0 with size {size}"
  | unknownSiPrefix symbol => Text.quoted symbol
  | unknownDefinition symbol => Text.quoted symbol
  | nameless => "A unit definition needs a symbol"
  | prefixedScale symbol => s!"Affine unit '{symbol}' cannot take SI prefixes"
  | invalidName name => s!"'{name}' is not a valid unit name"
  | alreadyDefined name => s!"Unit '{name}' is already defined"
  | conflict name symbol => s!"Unit '{name}' from '{symbol}' conflicts with an existing definition"
  | frozen => "This unit registry is frozen; use copy() to obtain a mutable registry"
  | negativeCacheSize => "cache_size must be non-negative"
  | negativeRounding => "rounding must be non-negative"
  | unknownLogLevel name => s!"Unknown log level: {name}"
  | notAnInteger setting text => s!"{setting} must be an integer, got '{text}'"
  | unknownThreshold name => "Unknown level: " ++ Text.quoted name
  | notAThreshold text => s!"Level not an integer or a valid string: {text}"

-- Errors about units and conversions, as opposed to arithmetic, settings and misuse of the library.
def isConversion : Error → Bool
  | general _ | unknownUnit _ | malformed _ | incompatible .. | affineMisuse .. => true
  | _ => false

-- A text that is no unit expression.
def syntaxAt (text : List Char) (fault : SyntaxFault) : Error :=
  malformed ⟨String.ofList text, fault⟩

-- Fails if one of some numbers is too long to be written.
def requireWritable (numbers : List Rat) : Except Error Unit :=
  if numbers.all DigitBound.standard.admitsRat then .ok () else .error integerTooLong

-- The error that remains when this one is written down: its own exponent may be too long for that.
def written : Error → Error
  | affineMisuse unit exponent misuse =>
    if DigitBound.standard.admitsRat exponent then affineMisuse unit exponent misuse else integerTooLong
  | e => e

end Error

end Metrology
