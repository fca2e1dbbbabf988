import Metrology.Binary64
import Metrology.Decimal.Length
import Metrology.Text.Blank
import Metrology.Text.Digit

/-!
Numbers as users write them: integers and decimals with an optional power of ten. Digits of every script count,
and single underscores may stand between digits.
-/

namespace Metrology

open Text

-- Takes a sign off the front; the first component says whether it was a minus.
def takeSign : List Char → Bool × List Char
  | '-' :: rest => (true, rest)
  | '+' :: rest => (false, rest)
  | text => (false, text)

-- The digits that continue a group.
def takeDigits : List Char → List Nat × List Char
  | [] => ([], [])
  | '_' :: c :: rest =>
    match digitValue? c with
    | some d =>
      let (digits, rest) := takeDigits rest
      (d :: digits, rest)
    | none => ([], '_' :: c :: rest)
  | c :: rest =>
    match digitValue? c with
    | some d =>
      let (digits, rest) := takeDigits rest
      (d :: digits, rest)
    | none => ([], c :: rest)

-- A group of digits; empty if the text does not start with a digit.
def takeGroup (text : List Char) : List Nat × List Char :=
  if (text.head?.any isDigit) then takeDigits text else ([], text)

-- Gives a size its sign.
def signed (negative : Bool) (size : Nat) : Int :=
  if negative then -size else size

-- A decimal as written: its sign, the digits on both sides of the point, and the sign and the digits of the
-- power of ten.
structure Numeral where
  negative : Bool
  whole : List Nat
  places : List Nat
  powerNegative : Bool
  power : List Nat

namespace Numeral

def digits (n : Numeral) : List Nat :=
  n.whole ++ n.places

def significand (n : Numeral) : Nat :=
  ofDigits n.digits

def exponent (n : Numeral) : Int :=
  signed n.powerNegative (ofDigits n.power) - n.places.length

def toRat (n : Numeral) : Rat :=
  let size : Rat := n.significand * (10 : Rat) ^ n.exponent
  if n.negative then -size else size

-- Beyond these powers of ten the nearest number is infinity or zero, whatever the digits.
def powerBounds (digits : Nat) : Int × Int :=
  (-400 - digits, 400)

def toFloat (n : Numeral) : Float :=
  let (low, high) := powerBounds n.digits.length
  let e := max low (min high n.exponent)
  Binary64.nearest n.negative (n.significand * Nat.pow 10 e.toNat) (Nat.pow 10 (-e).toNat)

-- A fraction part, present only behind a point.
def takePlaces : List Char → List Nat × List Char
  | '.' :: rest => takeGroup rest
  | text => ([], text)

-- A power of ten, present only if `e` and an integer follow.
def takePower (text : List Char) : (Bool × List Nat) × List Char :=
  match text with
  | c :: rest =>
    if c = 'e' ∨ c = 'E' then
      let (negative, unsigned) := takeSign rest
      match takeGroup unsigned with
      | ([], _) => ((false, []), text)
      | (digits, rest) => ((negative, digits), rest)
    else ((false, []), text)
  | [] => ((false, []), [])

-- Reads a whole text as a decimal; there must be a digit on one side of the point.
def read? (text : List Char) : Option Numeral :=
  let (negative, unsigned) := takeSign text
  let (whole, rest) := takeGroup unsigned
  let (places, rest) := takePlaces rest
  let ((powerNegative, power), rest) := takePower rest
  if rest = [] ∧ whole ++ places ≠ [] then some { negative, whole, places, powerNegative, power } else none

end Numeral

-- The blanks that may surround a number read on its own.
def isMargin (c : Char) : Bool :=
  isBlank c && !isSeparator c

-- Reads an integer that is not too long.
def readInteger? (text : String) : Option Int :=
  let (negative, unsigned) := takeSign (trim isMargin text.toList)
  match takeGroup unsigned with
  | (d :: digits, []) =>
    if DigitBound.standard.admits (digits.length + 1) then some (signed negative (ofDigits (d :: digits))) else none
  | _ => none

-- Names of the values that are no finite number, in any letter case.
def readSpecial? (text : List Char) : Option Float :=
  let (negative, unsigned) := takeSign text
  let sign : Float := if negative then -1 else 1
  match String.ofList (unsigned.map Char.toLower) with
  | "inf" | "infinity" => some (sign * (1 / 0))
  | "nan" => some (0 / 0)
  | _ => none

def readFloat? (text : String) : Option Float :=
  let body := trim isMargin text.toList
  match readSpecial? body with
  | some x => some x
  | none => (Numeral.read? body).map Numeral.toFloat

end Metrology
