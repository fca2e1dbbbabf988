import Metrology.Text.Digit

/-!
Cutting expression text at delimiters outside of all parentheses.
-/

namespace Metrology.Expression

open Text

-- A part of a text together with the delimiter in front of it; the first part has none.
structure Piece where
  delimiter : Option Char
  text : List Char
  deriving DecidableEq, Repr

def isSign (c : Char) : Bool :=
  c == '+' || c == '-'

-- Whether a text, given back to front, ends in a caret with an integer, apart from one final line end.
def endsInExponent (reversed : List Char) : Bool :=
  let body :=
    match reversed with
    | '\n' :: rest => rest
    | _ => reversed
  body.head?.any isDigit &&
    match body.dropWhile isDigit with
    | '^' :: _ => true
    | c :: '^' :: _ => isSign c
    | _ => false

-- Whether a delimiter belongs to an explicit exponent such as `^1/2`: a slash between an exponent that is
-- already complete and a digit.
def isProtected (c : Char) (reversed rest : List Char) : Bool :=
  c == '/' && rest.head?.any isAsciiDigit && endsInExponent reversed

-- Cuts the rest of a text. `depth` counts the parentheses that are open so far, `reversed` is the piece read
-- so far, back to front.
def cutFrom (delimiters : Char → Bool) (protect : Bool) (delimiter : Option Char) :
    Int → List Char → List Char → List Piece
  | _, reversed, [] => [⟨delimiter, reversed.reverse⟩]
  | depth, reversed, c :: rest =>
    if c = '(' then cutFrom delimiters protect delimiter (depth + 1) (c :: reversed) rest
    else if c = ')' then cutFrom delimiters protect delimiter (depth - 1) (c :: reversed) rest
    else if delimiters c ∧ depth = 0 ∧ ¬(protect ∧ isProtected c reversed rest) then
      ⟨delimiter, reversed.reverse⟩ :: cutFrom delimiters protect (some c) depth [] rest
    else cutFrom delimiters protect delimiter depth (c :: reversed) rest

-- Cuts a text at the delimiters that stand outside of parentheses.
def cut (delimiters : Char → Bool) (protect : Bool) (text : List Char) : List Piece :=
  cutFrom delimiters protect none 0 [] text

theorem cutFrom_length_le {delimiters : Char → Bool} {protect : Bool} {delimiter : Option Char} {depth : Int}
    {reversed text : List Char} {p : Piece}
    (h : p ∈ cutFrom delimiters protect delimiter depth reversed text) :
    p.text.length ≤ reversed.length + text.length := by
  fun_induction cutFrom delimiters protect delimiter depth reversed text with
  | case1 =>
    simp only [List.mem_singleton] at h
    simp [h]
  | case2 _ _ _ _ ih =>
    have := ih h
    simp only [List.length_cons] at this ⊢
    omega
  | case3 _ _ _ _ _ ih =>
    have := ih h
    simp only [List.length_cons] at this ⊢
    omega
  | case4 _ _ _ _ _ _ _ _ ih =>
    rcases List.mem_cons.mp h with rfl | h
    · simp
    · have := ih h
      simp only [List.length_cons, List.length_nil] at this ⊢
      omega
  | case5 _ _ _ _ _ _ _ _ ih =>
    have := ih h
    simp only [List.length_cons] at this ⊢
    omega

theorem cut_length_le {delimiters : Char → Bool} {protect : Bool} {text : List Char} {p : Piece}
    (h : p ∈ cut delimiters protect text) : p.text.length ≤ text.length := by
  simpa using cutFrom_length_le h

end Metrology.Expression
