import Metrology.Proofs.Expression.Canonical
import Metrology.Proofs.Expression.Grammar
import Metrology.Proofs.Expression.Symbols

/-!
Expressions as users write them: a tree of products, quotients, powers and groups, in which each exponent has one
of its spellings. The meaning of a tree is given without regard to its text.
-/

namespace Metrology.Expression

open Text

-- A character that has no meaning of its own, neither as it is nor after normalisation.
structure IsNameChar (c : Char) : Prop where
  unreserved : isReserved c = false
  sign : isSign c = false
  digit : isAsciiDigit c = false
  settled : IsSettled c

instance (c : Char) : Decidable (IsNameChar c) :=
  decidable_of_iff (isReserved c = false ∧ isSign c = false ∧ isAsciiDigit c = false ∧ IsSettled c)
    ⟨fun ⟨h₁, h₂, h₃, h₄⟩ => ⟨h₁, h₂, h₃, h₄⟩, fun ⟨h₁, h₂, h₃, h₄⟩ => ⟨h₁, h₂, h₃, h₄⟩⟩

structure UnitName where
  chars : List Char
  nonempty : chars ≠ []
  allowed : ∀ c ∈ chars, IsNameChar c

-- A run of the digits `0` to `9`.
structure Digits where
  chars : List Char
  nonempty : chars ≠ []
  ascii : ∀ c ∈ chars, isAsciiDigit c

def Digits.value (n : Digits) : Nat :=
  naturalValue n.chars

inductive Sign
  | none
  | plus
  | minus

namespace Sign

def chars : Sign → List Char
  | none => []
  | plus => ['+']
  | minus => ['-']

def apply : Sign → Nat → Int
  | none, n | plus, n => n
  | minus, n => -n

end Sign

-- An integer or a fraction, with a sign in front or without one.
inductive Number
  | integer (sign : Sign) (n : Digits)
  | fraction (sign : Sign) (p q : Digits) (hq : q.value ≠ 0)

namespace Number

def chars : Number → List Char
  | integer sign n => sign.chars ++ n.chars
  | fraction sign p q _ => sign.chars ++ p.chars ++ '/' :: q.chars

def value : Number → Rat
  | integer sign n => sign.apply n.value
  | fraction sign p q _ => sign.apply p.value / q.value

-- No run of digits is too long.
def Fits (b : DigitBound) : Number → Prop
  | integer _ n => b.admits n.chars.length
  | fraction _ p q _ => b.admits p.chars.length ∧ b.admits q.chars.length

end Number

def toSuperscript : Char → Char
  | '0' => '⁰'
  | '1' => '¹'
  | '2' => '²'
  | '3' => '³'
  | '4' => '⁴'
  | '5' => '⁵'
  | '6' => '⁶'
  | '7' => '⁷'
  | '8' => '⁸'
  | '9' => '⁹'
  | '+' => '⁺'
  | '-' => '⁻'
  | c => c

-- The spellings of an exponent: behind a caret and in any number of parentheses, as digits directly behind what is
-- raised, and as superscripts.
inductive Power
  | caret (parentheses : Nat) (x : Number)
  | digits (n : Digits)
  | superscripts (sign : Sign) (n : Digits)

namespace Power

def chars : Power → List Char
  | caret k x => '^' :: wrap k x.chars
  | digits n => n.chars
  | superscripts sign n => (sign.chars ++ n.chars).map toSuperscript

-- The number that is written.
def number : Power → Number
  | caret _ x => x
  | digits n => .integer .none n
  | superscripts sign n => .integer sign n

end Power

-- An expression and its spelling. Parentheses that change nothing are groups without an exponent.
inductive Spelled : Part → Type
  | one : Spelled .term
  | name (n : UnitName) : Spelled .base
  | group (p : Spelled .product) : Spelled .base
  | bare (x : Spelled .base) : Spelled .term
  | power (x : Spelled .base) (r : Power) : Spelled .term
  | single (t : Spelled .term) : Spelled .product
  | times (s : Spelled .product) (t : Spelled .term) : Spelled .product
  | per (s : Spelled .product) (t : Spelled .term) : Spelled .product

namespace Spelled

-- The text, with exponents written in a given way.
def print (exponent : Power → List Char) {p : Part} : Spelled p → List Char
  | one => ['1']
  | name n => n.chars
  | group p => Expression.group (p.print exponent)
  | bare x => x.print exponent
  | power x r => x.print exponent ++ exponent r
  | single t => t.print exponent
  | times s t => s.print exponent ++ '*' :: t.print exponent
  | per s t => s.print exponent ++ '/' :: t.print exponent

def chars {p : Part} (x : Spelled p) : List Char :=
  x.print Power.chars

-- Each occurrence of a name with its exponent, where `w` is the product of the exponents around it, with the other
-- sign for each division.
def occurrences (w : Rat) {p : Part} : Spelled p → List Component
  | one => []
  | name n => [(String.ofList n.chars, w)]
  | group p => p.occurrences w
  | bare x => x.occurrences w
  | power x r => x.occurrences (w * r.number.value)
  | single t => t.occurrences w
  | times s t => s.occurrences w ++ t.occurrences w
  | per s t => s.occurrences w ++ t.occurrences (-w)

-- The sum of the exponents of a name over all of its occurrences.
def exponentOf (name : String) {p : Part} (x : Spelled p) : Rat :=
  Expression.exponentOf name (x.occurrences 1)

-- No exponent has more digits than the bound allows.
def Fits (b : DigitBound) {p : Part} : Spelled p → Prop
  | one | name _ => True
  | group p => p.Fits b
  | bare x => x.Fits b
  | power x r => x.Fits b ∧ r.number.Fits b
  | single t => t.Fits b
  | times s t | per s t => s.Fits b ∧ t.Fits b

theorem raise_occurrences (r w : Rat) {p : Part} (x : Spelled p) :
    raise r (x.occurrences w) = x.occurrences (w * r) := by
  induction x generalizing w
  case one => rfl
  case name => rfl
  case group hi => exact hi w
  case bare hi => exact hi w
  case single hi => exact hi w
  case power hi => rw [occurrences, hi, occurrences, Rat.mul_assoc, Rat.mul_comm _ r, Rat.mul_assoc]
  case times hi hi' => rw [occurrences, raise_append, hi, hi', occurrences]
  case per hi hi' => rw [occurrences, raise_append, hi, hi', occurrences, Rat.neg_mul]

variable {p : Part} {f : Power → List Char}

theorem isBalanced_print (hf : ∀ r, isBalanced 0 (f r)) (x : Spelled p) : isBalanced 0 (x.print f) := by
  induction x
  case one => rfl
  case name n => exact IsBare.isBalanced <| .of_unreserved fun c hc => (n.allowed c hc).unreserved
  case group hi => exact isBalanced_group hi
  case bare hi => exact hi
  case single hi => exact hi
  case power r hi => exact isBalanced_append_zero hi (hf r)
  case times hi hi' => exact isBalanced_append_zero hi hi'
  case per hi hi' => exact isBalanced_append_zero hi hi'

theorem isSettled_print (hf : ∀ r, ∀ c ∈ f r, IsSettled c) (x : Spelled p) : ∀ c ∈ x.print f, IsSettled c := by
  induction x
  case one => exact List.forall_mem_singleton.mpr (by decide)
  case name n => exact fun c hc => (n.allowed c hc).settled
  case bare hi => exact hi
  case single hi => exact hi
  case power r hi => exact List.forall_mem_append.mpr ⟨hi, hf r⟩
  case times hi hi' => exact isSettled_joined hi (by decide) hi'
  case per hi hi' => exact isSettled_joined hi (by decide) hi'
  case group hi => exact isSettled_group hi

-- A base starts with a name or a parenthesis.
theorem head_print (x : Spelled .base) (t : List Char) : (x.print f ++ t).head?.any isAsciiDigit = false := by
  cases x
  case group p => rfl
  case name n =>
    obtain ⟨c, cs, hn⟩ := List.exists_cons_of_ne_nil n.nonempty
    have hc := (n.allowed c (hn ▸ List.mem_cons_self)).digit
    simp [print, hn, hc]

-- A term that starts with a digit is the number one.
theorem eq_one_or_head_print (x : Spelled .term) (f : Power → List Char) (t : List Char) :
    x = one ∨ (x.print f ++ t).head?.any isAsciiDigit = false := by
  cases x
  case one => exact .inl rfl
  case bare y => exact .inr <| head_print y t
  case power y r => exact .inr <| List.append_assoc _ (f r) t ▸ head_print y (f r ++ t)

end Spelled

end Metrology.Expression
