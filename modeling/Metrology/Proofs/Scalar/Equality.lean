import Metrology.Scalar.Binary64

/-!
Equality of the 64 bit numbers as values. It ignores the sign of a zero and refuses what is no number, so it is
symmetric and transitive, and reflexive for all that are numbers.
-/

namespace Metrology.Binary64

open Float.Model

-- Numbers of one value: the same number, or zeros with any signs.
inductive SameValue : UnpackedFloat → UnpackedFloat → Prop
  | refl (u : UnpackedFloat) (h : u.isNaN = false) : SameValue u u
  | zero (s t : UnpackedFloat.Sign) : SameValue (.zero s) (.zero t)

namespace SameValue

variable {u v w : UnpackedFloat}

theorem symm (h : SameValue u v) : SameValue v u := by
  cases h
  case refl h => exact .refl u h
  case zero s t => exact .zero t s

theorem trans (h : SameValue u v) (h' : SameValue v w) : SameValue u w := by
  cases h
  case refl => exact h'
  case zero s t =>
    cases h'
    case refl => exact .zero s t
    case zero t' => exact .zero s t'

end SameValue

variable {x y z : Float}

theorem sameValue_of_compare {u v : UnpackedFloat} (h : u.compare v = some .eq) : SameValue u v := by
  cases u <;> cases v
  case zero.zero s t => exact .zero s t
  case infinity.infinity s t =>
    have hs : s = t := by
      cases s <;> cases t <;> first | rfl | contradiction
    exact hs ▸ .refl _ rfl
  case finite.finite s m e hm t n f hn =>
    dsimp only [UnpackedFloat.compare] at h
    have hs : s = t := by
      cases s <;> cases t <;> first | rfl | simp at h
    subst hs
    have hvalue : e = f ∧ m = n := by
      cases s <;> simpa using h
    obtain ⟨rfl, rfl⟩ := hvalue
    exact .refl _ rfl
  -- numbers of different kinds compare by their signs
  case infinity.zero s t | zero.infinity s t => cases s <;> cases t <;> contradiction
  case infinity.finite s t _ _ _ | zero.finite s t _ _ _ =>
    cases s <;> cases t <;> (dsimp only [UnpackedFloat.compare] at h; contradiction)
  case finite.infinity s _ _ _ t | finite.zero s _ _ _ t =>
    cases s <;> cases t <;> (dsimp only [UnpackedFloat.compare] at h; contradiction)
  all_goals contradiction

theorem compare_of_sameValue {u v : UnpackedFloat} (h : SameValue u v) : u.compare v = some .eq := by
  cases h
  case zero => rfl
  case refl h =>
    cases u
    case notANumber => contradiction
    case zero => rfl
    case infinity s => cases s <;> rfl
    case finite s m e hm =>
      dsimp only [UnpackedFloat.compare]
      cases s <;> simp

theorem beq_iff : x == y ↔ SameValue x.toModel.unpack y.toModel.unpack := by
  have hb : (x == y) = (x.toModel.unpack.compare y.toModel.unpack == some .eq) := rfl
  rw [hb, beq_iff_eq]
  exact ⟨sameValue_of_compare, compare_of_sameValue⟩

theorem beq_symm (h : x == y) : y == x :=
  beq_iff.2 (beq_iff.1 h).symm

theorem beq_trans (h : x == y) (h' : y == z) : x == z :=
  beq_iff.2 ((beq_iff.1 h).trans (beq_iff.1 h'))

theorem beq_self (h : x.isNaN = false) : x == x :=
  beq_iff.2 (.refl _ h)

end Metrology.Binary64
