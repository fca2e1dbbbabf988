import Metrology.Binary64

/-!
Rounding to a number of decimal places: the decimal nearest to the exact value, a half going to the even
neighbour, and then the number nearest to that decimal.
-/

namespace Metrology.Binary64

-- With more than 323 places every number is its own rounding.
def maxPlaces : Nat := 323

def roundPlaces (places : Nat) (x : Float) : Float :=
  match ofFloat x with
  | finite negative significand exponent =>
    if places > maxPlaces then x else
      let scaled := significand * Nat.pow 10 places
      nearest negative (roundDiv (scaled <<< exponent.toNat) (1 <<< (-exponent).toNat)) (Nat.pow 10 places)
  | _ => x

end Metrology.Binary64
