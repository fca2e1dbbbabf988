import Metrology.Expression.Parser
import Metrology.Proofs.Expression.Pieces

/-!
The grammar of plain expression text, as a relation between a text and the powers of names that it stands for.
-/

namespace Metrology.Expression

open Text

-- A run of digits that is not too long.
structure IsNumeral (b : DigitBound) (ds : List Char) : Prop where
  nonempty : ds ≠ []
  digits : ∀ c ∈ ds, isDigit c
  short : b.admits ds.length

-- Digits, possibly with a sign in front, and the integer that they stand for.
inductive IsInteger (b : DigitBound) : List Char → Int → Prop
  | unsigned (h : IsNumeral b ds) : IsInteger b ds (naturalValue ds)
  | plus (h : IsNumeral b ds) : IsInteger b ('+' :: ds) (naturalValue ds)
  | minus (h : IsNumeral b ds) : IsInteger b ('-' :: ds) (-naturalValue ds)

-- An integer, or a fraction of two.
inductive IsNumber (b : DigitBound) : List Char → Rat → Prop
  | integer (h : IsInteger b x n) : IsNumber b x n
  | fraction (hx : IsInteger b x n) (hy : IsInteger b y d) (hd : d ≠ 0) : IsNumber b (x ++ '/' :: y) (n / d)

-- The text behind a caret. Outside of parentheses a fraction needs a denominator without a sign that starts with
-- one of the digits `0` to `9`.
inductive IsExponent (b : DigitBound) : List Char → Rat → Prop
  | integer (h : IsInteger b x n) : IsExponent b x n
  | fraction (hx : IsInteger b x n) (hy : IsInteger b y d) (hd : d ≠ 0) (ha : y.head?.any isAsciiDigit) :
    IsExponent b (x ++ '/' :: y) (n / d)
  | wrapped (k : Nat) (h : IsNumber b x r) : IsExponent b (wrap (k + 1) x) r

-- The characters that no unit name contains.
def isReserved (c : Char) : Bool :=
  c == '*' || c == '/' || c == '^' || c == '(' || c == ')'

structure IsName (t : List Char) : Prop where
  nonempty : t ≠ []
  unreserved : ∀ c ∈ t, isReserved c = false
  head : t.head?.any isAsciiDigit = false

-- Raises a product to a power.
def raise (r : Rat) (cs : List Component) : List Component :=
  cs.map fun (name, s) => (name, s * r)

inductive Part
  | base
  | term
  | product

-- What a part of a text stands for. A slash between an integer exponent and a digit is no division.
inductive Reads (b : DigitBound) : Part → List Char → List Component → Prop
  | one : Reads b .base ['1'] []
  | name (h : IsName t) : Reads b .base t [(String.ofList t, 1)]
  | group (h : Reads b .product t cs) : Reads b .base (group t) cs
  | bare (h : Reads b .base t cs) : Reads b .term t cs
  | power (h : Reads b .base t cs) (hx : IsExponent b x r) : Reads b .term (t ++ '^' :: x) (raise r cs)
  | single (h : Reads b .term t cs) : Reads b .product t cs
  | times (hs : Reads b .product s cs) (ht : Reads b .term t cs') : Reads b .product (s ++ '*' :: t) (cs ++ cs')
  | per (hs : Reads b .product s cs) (ht : Reads b .term t cs')
    (hp : ¬(EndsInPower s ∧ t.head?.any isAsciiDigit)) : Reads b .product (s ++ '/' :: t) (cs ++ raise (-1) cs')

variable {b : DigitBound} {c : Char} {n d : Int} {q r : Rat} {ds s t x y : List Char} {cs cs' : List Component}

theorem raise_one (cs : List Component) : raise 1 cs = cs := by
  simp [raise]

theorem raise_append (r : Rat) (cs cs' : List Component) : raise r (cs ++ cs') = raise r cs ++ raise r cs' :=
  List.map_append

theorem raise_raise (q r : Rat) (cs : List Component) : raise q (raise r cs) = raise (q * r) cs := by
  simp only [raise, List.map_map]
  apply List.map_congr_left
  intro c _
  simp only [Function.comp, Rat.mul_assoc, Rat.mul_comm q r]

theorem isReserved_of_isDigit (h : isDigit c) : isReserved c = false := by
  simp only [isReserved, Bool.or_eq_false_iff, beq_eq_false_iff_ne]
  refine ⟨⟨⟨⟨?_, ?_⟩, ?_⟩, ?_⟩, ?_⟩
  all_goals
    intro hc
    exact absurd (hc ▸ h) (by decide)

theorem isReserved_of_isSign (h : isSign c) : isReserved c = false := by
  simp only [isSign, Bool.or_eq_true, beq_iff_eq] at h
  cases h
  case inl h => exact h ▸ by decide
  case inr h => exact h ▸ by decide

theorem IsSignPart.unreserved (h : IsSignPart s) : ∀ c ∈ s, isReserved c = false := by
  cases h
  case inl h => exact h ▸ List.forall_mem_nil _
  case inr h =>
    obtain ⟨c, hs, hc⟩ := h
    exact hs ▸ List.forall_mem_singleton.mpr (isReserved_of_isSign hc)

theorem unreserved_signed (hs : IsSignPart s) (hx : ∀ c ∈ x, isDigit c) : ∀ c ∈ s ++ x, isReserved c = false :=
  List.forall_mem_append.mpr ⟨hs.unreserved, fun c hc => isReserved_of_isDigit (hx c hc)⟩

-- A text that is free of parentheses and of all else with a meaning in expressions.
theorem IsBare.of_unreserved (h : ∀ c ∈ t, isReserved c = false) : IsBare t := by
  intro c hc
  have hr := h c hc
  simp only [isReserved, Bool.or_eq_false_iff, beq_eq_false_iff_ne] at hr
  exact ⟨hr.1.2, hr.2⟩

theorem IsName.bare (h : IsName t) : IsBare t :=
  .of_unreserved h.unreserved

namespace IsInteger

theorem parts (h : IsInteger b x n) : ∃ sign ds, x = sign ++ ds ∧ IsSignPart sign ∧ IsNumeral b ds := by
  cases h
  case unsigned h => exact ⟨[], x, rfl, .inl rfl, h⟩
  case plus ds h => exact ⟨['+'], ds, rfl, .inr ⟨'+', rfl, rfl⟩, h⟩
  case minus ds h => exact ⟨['-'], ds, rfl, .inr ⟨'-', rfl, rfl⟩, h⟩

theorem ne_nil (h : IsInteger b x n) : x ≠ [] := by
  obtain ⟨sign, ds, hx, _, hds⟩ := h.parts
  simp [hx, hds.nonempty]

theorem unreserved (h : IsInteger b x n) : ∀ c ∈ x, isReserved c = false := by
  obtain ⟨sign, ds, hx, hsign, hds⟩ := h.parts
  exact hx ▸ unreserved_signed hsign hds.digits

theorem bare (h : IsInteger b x n) : IsBare x :=
  .of_unreserved h.unreserved

theorem endsInPower (h : IsInteger b x n) (s : List Char) : EndsInPower (s ++ '^' :: x) := by
  obtain ⟨sign, ds, hx, hsign, hds⟩ := h.parts
  exact ⟨s, sign, ds, by simp [hx], hsign, hds.nonempty, hds.digits⟩

end IsInteger

theorem IsNumber.ne_nil (h : IsNumber b x r) : x ≠ [] := by
  cases h
  case integer h => exact h.ne_nil
  case fraction => simp

-- Of the characters with a meaning in expressions, only a slash occurs in a number.
theorem IsNumber.eq_slash (h : IsNumber b x r) (hc : c ∈ x) (hr : isReserved c) : c = '/' := by
  cases h
  case integer h => simp [h.unreserved c hc] at hr
  case fraction hx hy _ =>
    simp only [List.mem_append, List.mem_cons] at hc
    rcases hc with hc | hc | hc
    · simp [hx.unreserved c hc] at hr
    · exact hc
    · simp [hy.unreserved c hc] at hr

theorem IsNumber.bare (h : IsNumber b x r) : IsBare x := by
  intro c hc
  constructor
  all_goals
    intro hp
    exact absurd (h.eq_slash hc (hp ▸ by decide)) (hp ▸ by decide)

namespace IsExponent

-- An exponent is a number in some parentheses.
theorem eq_wrap (h : IsExponent b x r) : ∃ k y, x = wrap k y ∧ IsNumber b y r := by
  cases h
  case integer h => exact ⟨0, x, rfl, .integer h⟩
  case fraction hx hy hd _ => exact ⟨0, _, rfl, .fraction hx hy hd⟩
  case wrapped k h => exact ⟨k + 1, _, rfl, h⟩

theorem isBalanced (h : IsExponent b x r) : isBalanced 0 x := by
  obtain ⟨k, y, hx, hy⟩ := h.eq_wrap
  exact hx ▸ isBalanced_wrap hy.bare.isBalanced

theorem ne_nil (h : IsExponent b x r) : x ≠ [] := by
  obtain ⟨k, y, hx, hy⟩ := h.eq_wrap
  cases k
  case zero => exact hx ▸ hy.ne_nil
  case succ => simp [hx, wrap, group]

end IsExponent

namespace Reads

variable {p : Part}

theorem ne_nil (h : Reads b p t cs) : t ≠ [] := by
  induction h
  case name h => exact h.nonempty
  case bare hi => exact hi
  case single hi => exact hi
  all_goals simp [Expression.group]

theorem isBalanced (h : Reads b p t cs) : isBalanced 0 t := by
  induction h
  case one => rfl
  case name h => exact h.bare.isBalanced
  case group hi => exact isBalanced_group hi
  case bare hi => exact hi
  case single hi => exact hi
  case power hx hi => exact isBalanced_append_zero hi hx.isBalanced
  case times hi hi' => exact isBalanced_append_zero hi hi'
  case per hi hi' => exact isBalanced_append_zero hi hi'

end Reads

end Metrology.Expression
