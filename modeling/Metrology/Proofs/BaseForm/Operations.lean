import Metrology.BaseForm
import Metrology.Proofs.Fallible

/-!
What products, quotients, powers and multiples of forms do. An absolute scale is refused in all of them but its first
power; the other forms combine as their dimensions do, and what comes of them has no offset.
-/

namespace Metrology

variable {α : Type} [Scalar α] {u v w : BaseForm α} {q : Rat} {m : Misuse}

-- Whether a number was given as one.
def Given.isNumber : Given α → Bool
  | .integer _ | .scalar _ => true
  | _ => false

namespace BaseForm

theorem requireLinear_affine (ha : u.isAffine) : u.requireLinear q m = .error (.affineMisuse u.symbol q m) :=
  if_pos ha

theorem requireLinear_linear (hl : u.isAffine = false) : u.requireLinear q m = .ok () :=
  if_neg (hl ▸ Bool.false_ne_true)

-- A product with an absolute scale is refused, and so is a quotient.
theorem mul_misused (ha : u.isAffine ∨ v.isAffine) :
    ∃ unit q, u.mul v = .error (.affineMisuse unit q .compound) := by
  cases hu : u.isAffine
  case true =>
    refine ⟨u.symbol, 1, ?_⟩
    rw [mul, requireLinear_affine hu]
    rfl
  case false =>
    have hv : v.isAffine := ha.resolve_left (hu ▸ Bool.false_ne_true)
    refine ⟨v.symbol, 1, ?_⟩
    rw [mul, requireLinear_linear hu, requireLinear_affine hv]
    rfl

theorem div_misused (ha : u.isAffine ∨ v.isAffine) :
    ∃ unit q, u.div v = .error (.affineMisuse unit q .compound) := by
  cases hu : u.isAffine
  case true =>
    refine ⟨u.symbol, 1, ?_⟩
    rw [div, requireLinear_affine hu]
    rfl
  case false =>
    have hv : v.isAffine := ha.resolve_left (hu ▸ Bool.false_ne_true)
    refine ⟨v.symbol, -1, ?_⟩
    rw [div, requireLinear_linear hu, requireLinear_affine hv]
    rfl

-- A product or a quotient of two forms, with the dimensions that it should have.
inductive Combines (u v : BaseForm α) (d : Dimensions) : Except Error (BaseForm α) → Prop
  | misused (ha : u.isAffine ∨ v.isAffine) (unit : String) (q : Rat) :
    Combines u v d (.error (.affineMisuse unit q .compound))
  | fault (f : ArithmeticFault) : Combines u v d (.error (.arithmetic f))
  | combined (hu : u.isAffine = false) (hv : v.isAffine = false) (factor : α) (symbol : String) :
    Combines u v d (.ok ⟨d, factor, 0, symbol, .composed⟩)

theorem mul_combines (u v : BaseForm α) : Combines u v (u.dimensions + v.dimensions) (u.mul v) := by
  by_cases ha : u.isAffine ∨ v.isAffine
  case pos =>
    obtain ⟨unit, q, h⟩ := mul_misused ha
    exact h ▸ .misused ha unit q
  case neg =>
    obtain ⟨hu, hv⟩ := not_or.1 ha
    rw [Bool.not_eq_true] at hu hv
    rw [mul, requireLinear_linear hu, requireLinear_linear hv]
    exact .combined hu hv ..

theorem div_combines (u v : BaseForm α) : Combines u v (u.dimensions - v.dimensions) (u.div v) := by
  by_cases ha : u.isAffine ∨ v.isAffine
  case pos =>
    obtain ⟨unit, q, h⟩ := div_misused ha
    exact h ▸ .misused ha unit q
  case neg =>
    obtain ⟨hu, hv⟩ := not_or.1 ha
    rw [Bool.not_eq_true] at hu hv
    rw [div, requireLinear_linear hu, requireLinear_linear hv]
    cases hf : Scalar.quotient u.factor v.factor
    case error f => exact .fault f
    case ok => exact .combined hu hv ..

theorem Combines.offset_eq {d : Dimensions} (h : Combines u v d (.ok w)) : w.offset = 0 := by
  cases h
  rfl

-- A power of a form. The first power of an absolute scale is the scale.
inductive Raises (u : BaseForm α) (q : Rat) : Except Error (BaseForm α) → Prop
  | misused (ha : u.isAffine) (hq : q ≠ 1) : Raises u q (.error (.affineMisuse u.symbol q .exponent))
  | fault (h : Scalar.power u.factor q = .error f) : Raises u q (.error (.arithmetic f))
  | tooLong (h : DigitBound.standard.admitsRat q = false) : Raises u q (.error .integerTooLong)
  | notReal (h : Scalar.power u.factor q = .ok none) : Raises u q (.error (.arithmetic .notReal))
  | raised (hl : u.isAffine → q = 1) (h : Scalar.power u.factor q = .ok (some y)) (symbol : String) :
    Raises u q (.ok ⟨u.dimensions.scale q, y, if q = 1 then u.offset else 0, symbol, .composed⟩)

-- What is left of a power once the exponent has been found to be fit for the form, and the factor has been raised.
def raised (u : BaseForm α) (q : Rat) (factor : Option α) : Except Error (BaseForm α) := do
  if u.symbol ≠ "" then Error.requireWritable [q]
  return ⟨u.dimensions.scale q, ← realFactor factor, if q = 1 then u.offset else 0,
    if u.symbol = "" then "" else u.symbol ++ "^" ++ Error.ratText q, .composed⟩

theorem Raises.offset_eq (h : Raises u q (.ok w)) : w.offset = if q = 1 then u.offset else 0 := by
  cases h
  rfl

theorem pow_misused (ha : u.isAffine) (hq : q ≠ 1) : u.pow q = .error (.affineMisuse u.symbol q .exponent) := by
  rw [pow, if_pos hq, requireLinear_affine ha]
  rfl

theorem pow_linear (hl : u.isAffine → q = 1) :
    u.pow q = (Scalar.power u.factor q).mapError .arithmetic >>= u.raised q := by
  rw [pow]
  by_cases hq : q = 1
  case pos =>
    rw [if_neg (not_not_intro hq)]
    rfl
  case neg =>
    rw [if_pos hq, requireLinear_linear (Bool.eq_false_iff.2 (mt hl hq))]
    rfl

theorem raised_raises {factor : Option α} (hl : u.isAffine → q = 1) (hp : Scalar.power u.factor q = .ok factor) :
    Raises u q (u.raised q factor) := by
  -- the last step, whether or not the exponent has to be written
  have hreal (symbol : String) : Raises u q do
      return ⟨u.dimensions.scale q, ← realFactor factor, if q = 1 then u.offset else 0, symbol, .composed⟩ := by
    cases factor
    case none => exact .notReal hp
    case some y => exact .raised hl hp symbol
  simp only [raised, bind, Except.bind]
  split
  case isFalse => exact hreal _
  case isTrue =>
    cases requireWritable_cases [q]
    case inl hw =>
      rw [hw]
      exact hreal _
    case inr hw =>
      obtain ⟨_, hmem, hlong⟩ := exists_of_requireWritable hw
      rw [hw]
      exact .tooLong (List.mem_singleton.1 hmem ▸ hlong)

theorem pow_raises (u : BaseForm α) (q : Rat) : Raises u q (u.pow q) := by
  by_cases hl : u.isAffine → q = 1
  case neg =>
    obtain ⟨ha, hq⟩ := Classical.not_imp.1 hl
    exact pow_misused ha hq ▸ .misused ha hq
  case pos =>
    rw [pow_linear hl]
    cases hp : Scalar.power u.factor q
    case error f => exact .fault hp
    case ok => exact raised_raises hl hp

-- A power of a form with a symbol is written down, and not all exponents can be.
theorem pow_tooLong (hl : u.isAffine → q = 1) (hp : (Scalar.power u.factor q).toOption.isSome) (hs : u.symbol ≠ "")
    (hq : DigitBound.standard.admitsRat q = false) : u.pow q = .error .integerTooLong := by
  rw [pow_linear hl]
  cases h : Scalar.power u.factor q
  case error => exact absurd hp (h ▸ Bool.false_ne_true)
  case ok factor =>
    change u.raised q factor = _
    rw [raised, if_pos hs, requireWritable_tooLong List.mem_cons_self hq]
    rfl

-- A multiple of a form, by a scale as a caller gave it.
inductive Scales (u : BaseForm α) (scale : Given α) (symbol : String) : Except Error (BaseForm α) → Prop
  | misused (ha : u.isAffine) : Scales u scale symbol (.error (.affineMisuse u.symbol 1 .exponent))
  | fault (f : ArithmeticFault) : Scales u scale symbol (.error (.arithmetic f))
  | refused (h : scale.isNumber = false) : Scales u scale symbol (.error (Given.refusedFactor scale.kind))
  | scaled (hu : u.isAffine = false) (factor : α) :
    Scales u scale symbol (.ok { u with factor, offset := 0, symbol })

theorem scaled_scales (u : BaseForm α) (scale : Given α) (symbol : String) :
    Scales u scale symbol (u.scaled scale symbol) := by
  cases hu : u.isAffine
  case true =>
    rw [scaled, requireLinear_affine hu]
    exact .misused hu
  case false =>
    rw [scaled, requireLinear_linear hu]
    cases scale
    case integer n =>
      simp only [Given.times, Given.toOperand]
      cases Scalar.ofInt (α := α) n
      case error f => exact .fault f
      case ok x => exact .scaled hu (u.factor * x)
    case scalar x => exact .scaled hu (u.factor * x)
    case text | missing | emptyList => exact .refused rfl

end BaseForm

end Metrology
