import Metrology.Decimal.Shortest

/-!
How numbers are written: as few digits as read back, positional for leading digits of `10 ^ -4` to
`10 ^ 15` with at least one decimal, with a signed exponent of at least two digits otherwise.
-/

namespace Metrology

namespace Decimal

def exponentText (e : Int) : String :=
  let size := toString e.natAbs
  (if e < 0 then "e-" else "e+") ++ (if size.length < 2 then "0" ++ size else size)

def render (d : Decimal) : String :=
  let digits := (toString d.digits).toList
  -- The power of ten of the leading digit.
  let leading := d.exponent + digits.length - 1
  if leading < -4 ∨ 16 ≤ leading then
    let point := if digits.length = 1 then digits else digits.take 1 ++ '.' :: digits.drop 1
    String.ofList point ++ exponentText leading
  else if leading < 0 then
    String.ofList ('0' :: '.' :: List.replicate (-leading - 1).toNat '0' ++ digits)
  else if d.exponent < 0 then
    let whole := leading.toNat + 1
    String.ofList (digits.take whole ++ '.' :: digits.drop whole)
  else
    String.ofList (digits ++ List.replicate d.exponent.toNat '0' ++ ['.', '0'])

end Decimal

namespace Binary64

def render : Binary64 → String
  | nan => "nan"
  | infinite negative => if negative then "-inf" else "inf"
  | finite negative significand exponent =>
    let size := if significand = 0 then "0.0" else (Decimal.shortest significand exponent).render
    if negative then "-" ++ size else size

end Binary64

end Metrology
