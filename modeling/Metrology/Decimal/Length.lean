/-!
How long integers may be. A bound on the number of digits holds where integers are read and where they are
written; the arithmetic in between has none.
-/

namespace Metrology

-- The most digits that an integer may have; `none` allows any number of them.
abbrev DigitBound := Option Nat

namespace DigitBound

def standardDigits : Nat :=
  4300

def standard : DigitBound :=
  some standardDigits

-- Whether an integer may be read from this many digits, leading zeros included.
def admits (b : DigitBound) (digits : Nat) : Bool :=
  b.all (digits ≤ ·)

-- Whether a number has few enough digits to be written.
def admitsNat (b : DigitBound) (n : Nat) : Bool :=
  b.all (n < Nat.pow 10 ·)

def admitsRat (b : DigitBound) (r : Rat) : Bool :=
  b.admitsNat r.num.natAbs && b.admitsNat r.den

theorem admits_none (digits : Nat) : admits none digits = true :=
  rfl

theorem admits_of_le {b : DigitBound} {m n : Nat} (h : m ≤ n) (hn : b.admits n = true) : b.admits m = true := by
  cases b with
  | none => rfl
  | some most =>
    simp only [admits, Option.all_some, decide_eq_true_eq] at hn ⊢
    exact Nat.le_trans h hn

end DigitBound

end Metrology
