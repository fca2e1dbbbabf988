import Mathlib
import Metrology.Scalar.Binary64

/-!
One among the 64 bit numbers: a number times one is that number, bit for bit, and so is its first power.
-/

namespace Metrology.Binary64

open Float.Model Float.Model.UnpackedFloat

-- A shift that drops nothing but zeros leaves no residue.
theorem shiftRight_exact (m n : Nat) :
    (ExtendedMantissa.mk (m * 2 ^ n) false false) >>> n = ⟨m, false, false⟩ := by
  induction n generalizing m
  case zero =>
    rw [Nat.pow_zero, Nat.mul_one]
    rfl
  case succ n hi =>
    change ExtendedMantissa.shiftRightOne (ExtendedMantissa.mk (m * 2 ^ (n + 1)) false false >>> n) = _
    have hm : m * 2 ^ (n + 1) = m * 2 * 2 ^ n := by rw [Nat.pow_succ, Nat.mul_assoc, Nat.mul_comm 2]
    rw [hm, hi]
    simp [ExtendedMantissa.shiftRightOne]

-- A number with its exponent in place.
def IsCanonical : UnpackedFloat → Prop
  | .finite _ m e _ => Format.binary64.targetExponent (totalExponent m e) = e
  | _ => True

theorem targetExponent_eq (t : Int) : Format.binary64.targetExponent t = max (t - 53) (-1074) :=
  rfl

theorem unpack_isCanonical (x : Float.Model) : IsCanonical x.unpack := by
  rw [Float.Model.unpack, UnpackedFloat.unpack]
  have hbias : (Format.binary64.exponentBias : Int) = 1023 := rfl
  simp only
  split
  case isTrue => split <;> trivial
  case isFalse =>
    split
    case isTrue h =>
      split
      case isTrue => trivial
      case isFalse hne =>
        simp only [IsCanonical, targetExponent_eq, totalExponent, h, hbias]
        generalize @unpackMantissa .binary64 x.toBits.toBitVec = v at hne
        have hlog : v.toNat.log2 < 52 := (Nat.log2_lt (by simpa [← BitVec.toNat_inj] using hne)).2 v.isLt
        simp only [BitVec.toNat_zero]
        omega
    case isFalse h =>
      simp only [IsCanonical, targetExponent_eq, totalExponent, hbias]
      generalize @unpackMantissa .binary64 x.toBits.toBitVec = v
      generalize @unpackExponent .binary64 x.toBits.toBitVec = w at h
      have hlow : 2 ^ 52 ≤ (1#1 ++ v).toNat := by
        rw [BitVec.toNat_append]
        exact Nat.left_le_or
      have hhigh : (1#1 ++ v).toNat < 2 ^ 53 := (1#1 ++ v).isLt
      have hlog : (1#1 ++ v).toNat.log2 = 52 := by
        have := (Nat.log2_lt (by omega)).2 hhigh
        have := (Nat.le_log2 (by omega)).2 hlow
        omega
      have hpos : 0 < w.toNat := Nat.pos_of_ne_zero (by simpa [← BitVec.toNat_inj] using h)
      omega

theorem log2_mul_two_pow {m : Nat} (hm : 0 < m) (n : Nat) : (m * 2 ^ n).log2 = m.log2 + n := by
  induction n
  case zero => rw [Nat.pow_zero, Nat.mul_one, Nat.add_zero]
  case succ n hi =>
    have hm : m * 2 ^ (n + 1) = 2 * (m * 2 ^ n) := by rw [Nat.pow_succ, Nat.mul_comm 2, Nat.mul_assoc]
    rw [hm, Nat.log2_two_mul (by positivity), hi, Nat.add_assoc]

-- Rounding a number to its place takes off again what one as a factor puts behind it.
theorem roundWithAccuracy_canonical {m : Nat} {e : Int} (s : Sign) (hm : 0 < m)
    (h : Format.binary64.targetExponent (totalExponent m e) = e) :
    roundWithAccuracy .binary64 s (2 ^ 52 * m) (-52 + e) .exact = .finite s m e hm := by
  have htotal : totalExponent (m * 2 ^ 52) (-52 + e) = totalExponent m e := by
    simp only [totalExponent, log2_mul_two_pow hm]
    omega
  have hfirst : shiftToTargetExponent .binary64 (2 ^ 52 * m) (-52 + e) .exact = (⟨m, false, false⟩, e) := by
    have hshift : (e - (-52 + e)).toNat = 52 := by omega
    rw [Nat.mul_comm, shiftToTargetExponent, shiftToExponent, htotal, h, hshift,
      ExtendedMantissa.ofMantissaAndAccuracy, shiftRight_exact]
    congr 1
    omega
  have hsecond : shiftToTargetExponent .binary64 m e .exact = (⟨m, false, false⟩, e) := by
    rw [shiftToTargetExponent, shiftToExponent, h, Int.sub_self]
    exact congrArg _ (Int.add_zero e)
  have hrounded : (ExtendedMantissa.mk m false false).roundedMantissa = m := rfl
  simp only [roundWithAccuracy, hfirst, hrounded, hsecond, Nat.ne_of_gt hm, ↓reduceDIte]

theorem unpack_one : (1 : Float).toModel.unpack = .finite .positive (2 ^ 52) (-52) (by decide) :=
  rfl

theorem mul_one_unpack {u : UnpackedFloat} (h : IsCanonical u) :
    UnpackedFloat.mul .binary64 (.finite .positive (2 ^ 52) (-52) (by decide)) u = u := by
  cases u
  case finite s m e hm => cases s <;> exact roundWithAccuracy_canonical _ hm h
  case infinity s => cases s <;> rfl
  case zero s => cases s <;> rfl
  case notANumber => rfl

theorem one_mul (x : Float) : 1 * x = x := by
  obtain ⟨m⟩ := x
  change Float.ofModel (.pack (UnpackedFloat.mul .binary64 (1 : Float).toModel.unpack m.unpack)) = _
  rw [unpack_one, mul_one_unpack (unpack_isCanonical m)]
  obtain ⟨bits, valid⟩ := m
  have hpack := pack_unpack_of_valid valid
  simp only [Float.Model.pack, Float.Model.unpack, hpack]

theorem ofRat?_one : ofRat? 1 = some 1 := by
  decide +kernel

theorem power_one (x : Float) : Scalar.power x 1 = .ok (some x) := by
  rw [scalarPower_eq, ofRat?_one]
  have hzero : ((1 : Float) == 0) = false := by decide +kernel
  have hone : ((1 : Float) == 1) = true := by decide +kernel
  simp only [power, hzero, hone, Bool.false_eq_true, ↓reduceIte]

end Metrology.Binary64
