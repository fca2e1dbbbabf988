import Metrology.Decimal.Numeral
import Metrology.Expression.Cut
import Metrology.Expression.Group
import Metrology.Error

/-!
Exponents in expression text: where an explicit one ends, which digits are an implicit one, and the number
that an exponent stands for.
-/

namespace Metrology.Expression

open Text

-- Takes characters off the front until `depth` more parentheses are closed than opened.
def takeWrapped (depth : Nat) : List Char → List Char × List Char
  | [] => ([], [])
  | c :: rest =>
    if c = ')' ∧ depth = 1 then ([c], rest)
    else
      let depth := if c = '(' then depth + 1 else if c = ')' then depth - 1 else depth
      let (wrapped, tail) := takeWrapped depth rest
      (c :: wrapped, tail)

-- Takes digits and a denominator. A slash counts if it has digits on both sides.
def takeUnsigned (text : List Char) : List Char × List Char :=
  match text.takeWhile isAsciiDigit, text.dropWhile isAsciiDigit with
  | d :: digits, '/' :: c :: rest =>
    if isAsciiDigit c then
      (d :: digits ++ '/' :: c :: rest.takeWhile isAsciiDigit, rest.dropWhile isAsciiDigit)
    else (d :: digits, '/' :: c :: rest)
  | digits, rest => (digits, rest)

def takeBare : List Char → List Char × List Char
  | [] => ([], [])
  | c :: rest =>
    if isSign c then
      let (taken, tail) := takeUnsigned rest
      (c :: taken, tail)
    else takeUnsigned (c :: rest)

-- Splits the text behind a caret into the exponent and what follows it.
def takeExponent : List Char → List Char × List Char
  | '(' :: rest =>
    let (wrapped, tail) := takeWrapped 1 rest
    ('(' :: wrapped, tail)
  | text => takeBare text

theorem takeWrapped_append (depth : Nat) (text : List Char) :
    (takeWrapped depth text).1 ++ (takeWrapped depth text).2 = text := by
  fun_induction takeWrapped depth text <;> simp_all

theorem takeUnsigned_append (text : List Char) : (takeUnsigned text).1 ++ (takeUnsigned text).2 = text := by
  have h := List.takeWhile_append_dropWhile (p := isAsciiDigit) (l := text)
  unfold takeUnsigned
  split
  · rename_i hd hr
    rw [hd, hr] at h
    split
    · simpa [List.append_assoc, List.takeWhile_append_dropWhile] using h
    · exact h
  · exact h

theorem takeBare_append (text : List Char) : (takeBare text).1 ++ (takeBare text).2 = text := by
  fun_cases takeBare text with
  | case1 => rfl
  | case2 c rest h taken tail ht =>
    have := takeUnsigned_append rest
    simp_all
  | case3 c rest h => exact takeUnsigned_append _

theorem takeExponent_append (text : List Char) : (takeExponent text).1 ++ (takeExponent text).2 = text := by
  unfold takeExponent
  split
  · simp only [List.cons_append, takeWrapped_append]
  · exact takeBare_append _

theorem takeExponent_length (text : List Char) : (takeExponent text).2.length ≤ text.length := by
  have := congrArg List.length (takeExponent_append text)
  simp only [List.length_append] at this
  omega

-- Whether digits behind this character are an exponent: it ends a name or closes a group.
def carriesExponent (previous : Option Char) : Bool :=
  previous.any fun c => c != '*' && c != '/' && c != '^' && c != '+' && c != '-' && c != '('

-- Writes a caret in front of every implicit exponent.
def markFrom (previous : Option Char) : List Char → List Char
  | [] => []
  | c :: rest =>
    if c = '^' then
      let taken := takeExponent rest
      '^' :: taken.1 ++ markFrom (some (taken.1.getLast?.getD '^')) taken.2
    else if isAsciiDigit c then
      let digits := c :: rest.takeWhile isAsciiDigit
      (if carriesExponent previous then '^' :: digits else digits) ++
        markFrom digits.getLast? (rest.dropWhile isAsciiDigit)
    else c :: markFrom (some c) rest
  termination_by text => text.length
  decreasing_by
    · have := takeExponent_length rest
      simp only [List.length_cons]
      omega
    · have := (List.dropWhile_suffix isAsciiDigit (l := rest)).length_le
      simp only [List.length_cons]
      omega
    · simp

def markImplicit (text : List Char) : List Char :=
  markFrom none text

-- Digits, possibly with a sign in front.
def isInteger (text : List Char) : Bool :=
  let digits := (takeSign text).2
  digits ≠ [] ∧ digits.all isDigit

-- The value of an integer, if it has no more digits than allowed.
def integerValue (bound : DigitBound) (text : List Char) : Except Error Int :=
  let (negative, digits) := takeSign text
  if bound.admits digits.length then .ok (signed negative (naturalValue digits))
  else .error (.numeralTooLong digits.length)

-- Numerator and denominator of a quotient of two integers.
def quotient? (text : List Char) : Option (List Char × List Char) :=
  match text.dropWhile (· != '/') with
  | '/' :: denominator =>
    let numerator := text.takeWhile (· != '/')
    if isInteger numerator ∧ isInteger denominator then some (numerator, denominator) else none
  | _ => none

-- The number that the text behind a caret stands for; syntax errors name the whole term.
def exponentValue (bound : DigitBound) (term text : List Char) : Except Error Rat :=
  if text = [] then .error (.syntaxAt term .missingExponent) else
  let inner := unwrap text
  if isInteger inner then (integerValue bound inner).map fun n => (n : Rat) else
  match quotient? inner with
  | some (numerator, denominator) => do
    let n ← integerValue bound numerator
    let d ← integerValue bound denominator
    if d = 0 then throw (.syntaxAt term .zeroDenominator)
    return n / d
  | none => .error (.syntaxAt term (.badExponent (String.ofList text)))

end Metrology.Expression
