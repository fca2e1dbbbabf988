import Metrology.Catalog
import Metrology.Proofs.Registry.Entries

/-!
Factors of the built-in units. They are finite positive numbers, so a power of one of them is a real number unless its
exponent or its result is too large.
-/

namespace Metrology

namespace Binary64

variable {x : Float}

-- Whether a number is finite and greater than zero.
def isOrdinary (x : Float) : Bool :=
  !x.isNaN && !x.isInf && !(x == 0) && !decide (x < 0)

-- What a power of an ordinary number comes to.
inductive Raises (x : Float) (q : Rat) : Except ArithmeticFault (Option Float) → Prop
  | exponentTooLarge (h : ofRat? q = none) : Raises x q (.error .quotientTooLarge)
  | powerTooLarge {y : Float} (h : ofRat? q = some y) (hz : (Float.pow x y).isInf) : Raises x q (.error .powerTooLarge)
  | raised (z : Float) : Raises x q (.ok (some z))

theorem power_raises (h : isOrdinary x) (q : Rat) : Raises x q (Scalar.power x q) := by
  simp only [isOrdinary, Bool.and_eq_true, Bool.not_eq_true', decide_eq_false_iff_not] at h
  obtain ⟨⟨⟨hnan, hinf⟩, hzero⟩, hneg⟩ := h
  rw [scalarPower_eq]
  cases hq : ofRat? q
  case none => exact .exponentTooLarge hq
  case some y =>
    -- of the cases of a power, those of a positive number are left
    simp only [power, hnan, hinf, hzero, hneg, Bool.false_eq_true, ↓reduceIte]
    split
    case isTrue => exact .raised 1
    case isFalse =>
      split
      case isTrue => exact .raised x
      case isFalse =>
        split
        case isTrue => exact .raised 1
        case isFalse =>
          rw [finitePower]
          split
          case isTrue hz => exact .powerTooLarge hq hz
          case isFalse => exact .raised _

end Binary64

-- Whether the factors of all names of a definition are ordinary.
def Definition.isOrdinary (d : Definition Float) : Bool :=
  Binary64.isOrdinary d.form.factor && d.siPrefixes.all fun p => Binary64.isOrdinary (d.prefixed p).factor

theorem Definition.isOrdinary_of_mem_expand {d : Definition Float} {n : String} {u : BaseForm Float}
    (hd : d.isOrdinary) (h : (n, u) ∈ d.expand) : Binary64.isOrdinary u.factor := by
  rw [isOrdinary, Bool.and_eq_true, List.all_eq_true] at hd
  rcases form_of_mem_expand h with rfl | ⟨p, hp, h⟩
  case inl => exact hd.1
  case inr =>
    rw [withPrefix_of_mem hp, Except.ok.injEq] at h
    exact h ▸ hd.2 p hp

theorem Catalog.isOrdinary_definitions : definitions.all Definition.isOrdinary := by
  decide +kernel

namespace Registry

-- A registry whose factors are ordinary.
def IsOrdinary (r : Registry Float) : Prop :=
  ∀ n u, r.find? n = some u → Binary64.isOrdinary u.factor

theorem build_standard : build Catalog.definitions true = .ok standard := by
  delta standard
  exact eq_ok_get Catalog.isSome_build

theorem standard_isOrdinary : standard.IsOrdinary := by
  intro n u hu
  obtain ⟨d, hd, hm⟩ := exists_of_build build_standard hu
  exact d.isOrdinary_of_mem_expand (List.all_eq_true.1 Catalog.isOrdinary_definitions d hd) hm

theorem standard_frozen : standard.frozen :=
  (build_ok build_standard).2.2

end Registry

end Metrology
