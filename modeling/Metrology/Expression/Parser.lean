import Metrology.Expression
import Metrology.Expression.Spelling

/-!
Reading expressions. Products and quotients are read from left to right, so each term takes its sign from the
operator directly in front of it; the exponent of a group applies to all of its terms. The integers in exponents
may be bounded in length.
-/

namespace Metrology.Expression

open Text

-- A term in front of its exponent, and the exponent.
def splitTerm (bound : DigitBound) (term : List Char) : Except Error (List Char × Rat) :=
  match cut (· == '^') false term with
  | [base] => .ok (base.text, 1)
  | [base, exponent] =>
    if base.text = [] then .error (.syntaxAt term .missingUnit)
    else (exponentValue bound term exponent.text).map (base.text, ·)
  | _ => .error (.syntaxAt term .repeatedExponent)

theorem splitTerm_length_le {bound : DigitBound} {term base : List Char} {r : Rat}
    (h : splitTerm bound term = .ok (base, r)) :
    base.length ≤ term.length := by
  unfold splitTerm at h
  split at h
  · rename_i p hp
    have := cut_length_le (hp ▸ List.mem_singleton_self p)
    simp_all
  · rename_i p q hp
    have := cut_length_le (hp ▸ List.mem_cons_self : p ∈ cut (· == '^') false term)
    split at h
    · contradiction
    · cases hq : exponentValue bound term q.text <;> simp_all [Except.map]
  · contradiction

-- A base that is no group: a unit name, or the number one.
def atomTerms (term base : List Char) (r : Rat) : Except Error (List Component) :=
  if base.any (fun c => c == '(' || c == ')') then .error (.syntaxAt term .strayParenthesis)
  else if base.head?.any isAsciiDigit then
    if base = ['1'] then .ok [] else .error (.syntaxAt term .numericFactor)
  else .ok [(String.ofList base, r)]

def isProductOperator (c : Char) : Bool :=
  c == '*' || c == '/'

def signOf (delimiter : Option Char) : Rat :=
  if delimiter = some '/' then -1 else 1

-- The powers of unit names in a product, in the order of the text.
def terms (bound : DigitBound) (text : List Char) : Except Error (List Component) :=
  if unwrap text = [] then .ok [] else do
    let parts ← (cut isProductOperator true (unwrap text)).attach.mapM fun ⟨piece, _hp⟩ =>
      if piece.text = [] then .error (.syntaxAt (unwrap text) .emptyOperand) else
      match _hs : splitTerm bound piece.text with
      | .error e => .error e
      | .ok (base, r) =>
        if _hb : unwrap base = base then atomTerms piece.text base (signOf piece.delimiter * r)
        else if unwrap base = [] then .error (.syntaxAt piece.text .emptyOperand)
        else (terms bound (unwrap base)).map fun inner =>
          inner.map fun (name, s) => (name, signOf piece.delimiter * (s * r))
    return parts.flatten
  termination_by text.length
  decreasing_by
    have h1 := unwrap_length text
    have h2 := cut_length_le _hp
    have h3 := splitTerm_length_le _hs
    have h4 := unwrap_length_lt _hb
    omega

def parseWithin (bound : DigitBound) (text : String) : Except Error Expression := do
  return ofComponents (← terms bound (← plain text.toList))

def parse (text : String) : Except Error Expression :=
  parseWithin .standard text

end Metrology.Expression
