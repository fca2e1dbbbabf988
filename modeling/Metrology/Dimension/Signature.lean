import Metrology.Dimension

/-!
The signature of a unit: its dimensions written as a quotient of products of base unit symbols.
-/

namespace Metrology

namespace Dimensions

-- An exponent, in parentheses if it is not an integer.
def exponentText (r : Rat) : String :=
  if r.den = 1 then toString r.num else s!"({r.num}/{r.den})"

def powerText (d : BaseDimension) (r : Rat) : String :=
  if r = 1 then d.symbol else d.symbol ++ "^" ++ exponentText r

-- Writes each listed dimension once, ordered by symbol; a term whose exponent is not positive goes below the
-- line with the opposite sign.
def format (terms : List (BaseDimension × Rat)) : String :=
  let ordered := BaseDimension.bySymbol.filterMap fun d => (terms.lookup d).map (d, ·)
  if ordered = [] then "dimensionless" else
  let above := (ordered.filter (0 < ·.2)).map fun (d, r) => powerText d r
  let below := (ordered.filter (¬ 0 < ·.2)).map fun (d, r) => powerText d (-r)
  let numerator := if above = [] then "1" else "*".intercalate above
  if below = [] then numerator else numerator ++ "/" ++ "*".intercalate below

def signature (v : Dimensions) : String :=
  format v.terms

end Dimensions

end Metrology
