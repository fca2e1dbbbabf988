/-!
Blank characters: the spaces, tabs, line ends and separators that may stand anywhere in a unit expression.
-/

namespace Metrology.Text

-- The information separators U+001C to U+001F: blank in an expression, not around a number.
def isSeparator (c : Char) : Bool :=
  0x1c ≤ c.toNat && c.toNat ≤ 0x1f

def isBlank (c : Char) : Bool :=
  let n := c.toNat
  (0x09 ≤ n && n ≤ 0x0d) || isSeparator c || n == 0x20 || n == 0x85 || n == 0xa0 || n == 0x1680 ||
    (0x2000 ≤ n && n ≤ 0x200a) || n == 0x2028 || n == 0x2029 || n == 0x202f || n == 0x205f || n == 0x3000

def withoutBlanks (text : List Char) : List Char :=
  text.filter (!isBlank ·)

-- Drops the characters of a class from both ends.
def trim (drop : Char → Bool) (text : List Char) : List Char :=
  ((text.dropWhile drop).reverse.dropWhile drop).reverse

theorem mem_withoutBlanks_iff {c : Char} {text : List Char} :
    c ∈ withoutBlanks text ↔ c ∈ text ∧ isBlank c = false := by
  simp [withoutBlanks]

theorem withoutBlanks_append (s t : List Char) :
    withoutBlanks (s ++ t) = withoutBlanks s ++ withoutBlanks t :=
  List.filter_append s t

end Metrology.Text
