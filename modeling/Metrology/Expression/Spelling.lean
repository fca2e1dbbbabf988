import Metrology.Expression.Exponent
import Metrology.Text.Blank

/-!
The plain spelling of an expression: one sign for each operator, no superscripts, no blanks, a caret in front of
every exponent and no parentheses around the whole.
-/

namespace Metrology.Expression

open Text

def plainOperator : Char → Char
  | '·' | '⋅' | '×' => '*'
  | '−' => '-'
  | c => c

def plainSuperscript? : Char → Option Char
  | '⁰' => some '0'
  | '¹' => some '1'
  | '²' => some '2'
  | '³' => some '3'
  | '⁴' => some '4'
  | '⁵' => some '5'
  | '⁶' => some '6'
  | '⁷' => some '7'
  | '⁸' => some '8'
  | '⁹' => some '9'
  | '⁻' => some '-'
  | '⁺' => some '+'
  | _ => none

-- Writes each run of superscripts as a caret with plain characters.
def lowerFrom (inRun : Bool) : List Char → List Char
  | [] => []
  | c :: rest =>
    match plainSuperscript? c with
    | some plain => if inRun then plain :: lowerFrom true rest else '^' :: plain :: lowerFrom true rest
    | none => c :: lowerFrom false rest

def plainSymbols (text : List Char) : List Char :=
  lowerFrom false (text.map plainOperator)

-- The text with all exponents marked, before parentheses are looked at.
def marked (text : List Char) : List Char :=
  markImplicit (withoutBlanks (plainSymbols text))

def plain (text : List Char) : Except Error (List Char) :=
  if !isBalanced 0 (marked text) then .error (.syntaxAt text .unbalanced)
  else if marked text ≠ [] ∧ unwrap (marked text) = [] then .error (.syntaxAt text .emptyOperand)
  else .ok (unwrap (marked text))

end Metrology.Expression
