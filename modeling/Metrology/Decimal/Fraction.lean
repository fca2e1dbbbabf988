import Metrology.Decimal.Numeral
import Metrology.Error

/-!
Fractions as users write them: a quotient of two integers, or a decimal. Their value is exact, and each of the
integers that they are written with may have only so many digits.
-/

namespace Metrology

open Text

-- The value of some digits, if there are not too many of them.
def boundedValue (digits : List Nat) : Except Error Nat :=
  if DigitBound.standard.admits digits.length then .ok (ofDigits digits) else .error (.numeralTooLong digits.length)

-- A quotient of the digits on both sides of a slash.
def readQuotient (negative : Bool) (numerator denominator : List Nat) : Except Error Rat := do
  let n := signed negative (← boundedValue numerator)
  let d ← boundedValue denominator
  if d = 0 then throw (.zeroDenominator n)
  return mkRat n d

-- The exact value of a decimal, its parts read from left to right.
def Numeral.readRat (n : Numeral) : Except Error Rat := do
  let _ ← [n.whole, n.places, n.power].mapM boundedValue
  return n.toRat

-- The letters d behind a point that stand where decimals are expected, if nothing but a power of ten follows.
def misplacedLetters? : List Char → Option (List Char)
  | '.' :: rest =>
    let letters := rest.takeWhile fun c => c == 'd' || c == 'D'
    if letters ≠ [] ∧ (Numeral.takePower (rest.drop letters.length)).2 = [] then some letters else none
  | _ => none

def readFraction (text : String) : Except Error Rat :=
  let body := trim isBlank text.toList
  let (negative, unsigned) := takeSign body
  let malformed := Except.error (.unreadableFraction text)
  match takeGroup unsigned with
  | ([], _) => (Numeral.read? body).elim malformed Numeral.readRat
  | (whole, '/' :: rest) =>
    match takeGroup rest with
    | (d :: denominator, []) => readQuotient negative whole (d :: denominator)
    | _ => malformed
  | (whole, rest) =>
    match misplacedLetters? rest with
    | some letters => do
      let _ ← boundedValue whole
      throw (.unreadableInteger (String.ofList letters))
    | none => (Numeral.read? body).elim malformed Numeral.readRat

end Metrology
