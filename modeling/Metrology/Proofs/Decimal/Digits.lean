import Mathlib.Algebra.Group.Nat.Defs
import Metrology.Decimal.Length
import Metrology.Text.Digit

/-!
Numbers written in decimal digits: their digits are read back as the number, and there are as many of them as a
bound on the number allows.
-/

namespace Metrology

open Text

variable {b : DigitBound} {c : Char} {d n : Nat} {ds : List Char}

theorem Text.isAsciiDigit_of_isDigit (h : c.isDigit) : isAsciiDigit c := by
  simp only [Char.isDigit, Bool.and_eq_true, decide_eq_true_eq] at h
  simp only [isAsciiDigit, Bool.and_eq_true, decide_eq_true_eq]
  exact ⟨UInt32.le_iff_toNat_le.mp h.1, UInt32.le_iff_toNat_le.mp h.2⟩

theorem isAsciiDigit_of_mem_toDigits (h : c ∈ Nat.toDigits 10 n) : isAsciiDigit c :=
  isAsciiDigit_of_isDigit <| Nat.isDigit_of_mem_toDigits (by decide) (by decide) h

theorem digitValue?_digitChar (h : d < 10) : digitValue? d.digitChar = some d := by
  have hall : ∀ d < 10, digitValue? (Nat.digitChar d) = some d := by decide
  exact hall d h

theorem naturalValue_concat (h : digitValue? c = some d) : naturalValue (ds ++ [c]) = 10 * naturalValue ds + d := by
  simp [naturalValue, h, ofDigits_concat]

theorem naturalValue_toDigits (n : Nat) : naturalValue (Nat.toDigits 10 n) = n := by
  induction n using Nat.strongRecOn
  case ind n hi =>
    rw [Nat.toDigits_eq_if (by decide)]
    split
    case isTrue h => simp [naturalValue, digitValue?_digitChar h, ofDigits]
    case isFalse h =>
      rw [naturalValue_concat (digitValue?_digitChar (Nat.mod_lt n (by decide))), hi (n / 10) (by omega)]
      omega

-- A number that is not too large is not too long.
theorem DigitBound.admits_toDigits (hn : n ≠ 0) (h : b.admitsNat n) : b.admits (Nat.toDigits 10 n).length := by
  cases b
  case none => rfl
  case some k =>
    simp only [admitsNat, admits, Option.all_some, decide_eq_true_eq] at h ⊢
    have hk : 0 < k := by
      apply Nat.pos_of_ne_zero
      intro hk
      have : n < 1 := by simpa [hk] using h
      omega
    exact Nat.length_toDigits_le_iff (by decide) hk |>.mpr h

theorem length_toDigits_pow (n : Nat) : (Nat.toDigits 10 (10 ^ n)).length = n + 1 := by
  have hle : (Nat.toDigits 10 (10 ^ n)).length ≤ n + 1 := by
    rw [Nat.length_toDigits_le_iff (by decide) (by omega)]
    exact Nat.pow_lt_pow_succ (by decide)
  cases n
  case zero => rfl
  case succ n =>
    have hlt : ¬(Nat.toDigits 10 (10 ^ (n + 1))).length ≤ n + 1 := by
      rw [Nat.length_toDigits_le_iff (by decide) (by omega)]
      exact Nat.lt_irrefl _
    omega

theorem toDigits_pow_pred (n : Nat) : Nat.toDigits 10 (10 ^ (n + 1) - 1) = List.replicate (n + 1) '9' := by
  induction n
  case zero => rfl
  case succ n hi =>
    have hp : 10 ^ (n + 2) = 10 * 10 ^ (n + 1) := Nat.pow_succ'
    have h10 : 10 ≤ 10 ^ (n + 1) := Nat.le_self_pow (by omega) 10
    have hdiv : (10 ^ (n + 2) - 1) / 10 = 10 ^ (n + 1) - 1 := by omega
    have hmod : (10 ^ (n + 2) - 1) % 10 = 9 := by omega
    rw [Nat.toDigits_eq_if (by decide), if_neg (by omega), hdiv, hmod, hi, List.replicate_succ' (n := n + 1)]
    rfl

end Metrology
