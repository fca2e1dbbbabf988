import Mathlib.Algebra.BigOperators.Ring.List
import Mathlib.Algebra.Ring.Rat
import Metrology.Proofs.BaseForm.Operations
import Metrology.Scalar.Binary64

/-!
Whole terms of forms: products, quotients, powers and multiples of one another. An absolute scale stands alone in a
term or the term is refused, and the dimensions of a term are the sum of those of its leaves, in proportion to the
exponents that the leaves have in it.
-/

namespace Metrology.BaseForm

-- A form, or what is made of forms.
inductive Term (α : Type)
  | leaf (u : BaseForm α)
  | mul (s t : Term α)
  | div (s t : Term α)
  | pow (t : Term α) (q : Rat)
  | scaled (t : Term α) (scale : Given α) (symbol : String)

namespace Term

variable {α : Type}

-- Leaves as they are in a power of what they are in.
def raise (q : Rat) (leaves : List (BaseForm α × Rat)) : List (BaseForm α × Rat) :=
  leaves.map fun l => (l.1, l.2 * q)

-- The leaves of a term with the exponents that they have in it.
def leaves : Term α → List (BaseForm α × Rat)
  | leaf u => [(u, 1)]
  | mul s t => s.leaves ++ t.leaves
  | div s t => s.leaves ++ raise (-1) t.leaves
  | pow t q => raise q t.leaves
  | scaled t _ _ => t.leaves

-- The exponents that powers are taken with.
def powers : Term α → List Rat
  | leaf _ => []
  | mul s t | div s t => s.powers ++ t.powers
  | pow t q => q :: t.powers
  | scaled t _ _ => t.powers

def scales : Term α → List (Given α)
  | leaf _ => []
  | mul s t | div s t => s.scales ++ t.scales
  | pow t _ => t.scales
  | scaled t scale _ => scale :: t.scales

-- The leaf of a term that is but a leaf, taken to the first power any number of times.
def alone? : Term α → Option (BaseForm α)
  | leaf u => some u
  | pow t q => if q = 1 then t.alone? else none
  | _ => none

-- What the leaves add up to in one dimension.
def share (d : BaseDimension) (leaves : List (BaseForm α × Rat)) : Rat :=
  (leaves.map fun l => l.1.dimensions.get d * l.2).sum

theorem share_append (d : BaseDimension) (ls ls' : List (BaseForm α × Rat)) :
    share d (ls ++ ls') = share d ls + share d ls' := by
  rw [share, List.map_append, List.sum_append, share, share]

theorem share_raise (d : BaseDimension) (q : Rat) (ls : List (BaseForm α × Rat)) :
    share d (raise q ls) = share d ls * q := by
  rw [share, share, raise, List.map_map, ← List.sum_map_mul_right]
  congr 2
  funext l
  exact (Rat.mul_assoc ..).symm

theorem leaves_of_alone? {t : Term α} {u : BaseForm α} (h : t.alone? = some u) : t.leaves = [(u, 1)] := by
  induction t
  case leaf v =>
    cases h
    rfl
  case mul | div | scaled => contradiction
  case pow t q hi =>
    obtain ⟨rfl, h⟩ := Option.ite_none_right_eq_some.1 h
    rw [leaves, hi h, raise, List.map_singleton, Rat.mul_one]

variable [Scalar α] {c s t : Term α} {u : BaseForm α} {e : Error} {d : BaseDimension}

-- Operands come before what is made of them, the left one first.
def eval : Term α → Except Error (BaseForm α)
  | leaf u => .ok u
  | mul s t => do (← s.eval).mul (← t.eval)
  | div s t => do (← s.eval).div (← t.eval)
  | pow t q => do (← t.eval).pow q
  | scaled t scale symbol => do (← t.eval).scaled scale symbol

def HasScale (t : Term α) : Prop :=
  ∃ l ∈ t.leaves, l.1.isAffine

-- An absolute scale is in the term, and is not alone there.
def Misuses (t : Term α) : Prop :=
  t.alone? = none ∧ t.HasScale

-- What may stop a term whether or not it has a scale: arithmetic, an exponent that is too long to be written, and a
-- scale of a multiple that is no number.
inductive Stops (t : Term α) : Error → Prop
  | arithmetic (f : ArithmeticFault) : Stops t (.arithmetic f)
  | tooLong (hq : q ∈ t.powers) (h : DigitBound.standard.admitsRat q = false) : Stops t .integerTooLong
  | noNumber (hg : g ∈ t.scales) (h : g.isNumber = false) : Stops t (Given.refusedFactor g.kind)

theorem hasScale_of_alone? (h : t.alone? = some u) : t.HasScale ↔ u.isAffine := by
  simp [HasScale, leaves_of_alone? h]

theorem exists_isAffine_raise {q : Rat} {ls : List (BaseForm α × Rat)} :
    (∃ l ∈ raise q ls, l.1.isAffine) ↔ ∃ l ∈ ls, l.1.isAffine := by
  simp [raise]

@[simp]
theorem hasScale_mul : (mul s t).HasScale ↔ s.HasScale ∨ t.HasScale := by
  simp only [HasScale, leaves, List.mem_append, or_and_right, exists_or]

@[simp]
theorem hasScale_div : (div s t).HasScale ↔ s.HasScale ∨ t.HasScale := by
  simp only [HasScale, leaves, List.mem_append, or_and_right, exists_or, exists_isAffine_raise]

@[simp]
theorem hasScale_pow {q : Rat} : (pow t q).HasScale ↔ t.HasScale :=
  exists_isAffine_raise

-- An operand is a part of what is made of it.
structure IsPart (s t : Term α) : Prop where
  alone? : s.alone? = none → t.alone? = none
  hasScale : s.HasScale → t.HasScale
  powers : s.powers ⊆ t.powers
  scales : s.scales ⊆ t.scales

theorem IsPart.misuses (hp : IsPart s t) (h : s.Misuses) : t.Misuses :=
  ⟨hp.alone? h.1, hp.hasScale h.2⟩

theorem IsPart.stops (hp : IsPart s t) (h : s.Stops e) : t.Stops e := by
  cases h
  case arithmetic f => exact .arithmetic f
  case tooLong hq h => exact .tooLong (hp.powers hq) h
  case noNumber hg h => exact .noNumber (hp.scales hg) h

-- Products and quotients are made of two operands in the same way.
structure IsCompound (c s t : Term α) : Prop where
  alone? : c.alone? = none
  hasScale : c.HasScale ↔ s.HasScale ∨ t.HasScale
  powers : c.powers = s.powers ++ t.powers
  scales : c.scales = s.scales ++ t.scales

theorem isCompound_mul : IsCompound (mul s t) s t :=
  ⟨rfl, hasScale_mul, rfl, rfl⟩

theorem isCompound_div : IsCompound (div s t) s t :=
  ⟨rfl, hasScale_div, rfl, rfl⟩

theorem IsCompound.left (h : IsCompound c s t) : IsPart s c where
  alone? _ := h.alone?
  hasScale hs := h.hasScale.2 (.inl hs)
  powers := h.powers ▸ List.subset_append_left ..
  scales := h.scales ▸ List.subset_append_left ..

theorem IsCompound.right (h : IsCompound c s t) : IsPart t c where
  alone? _ := h.alone?
  hasScale ht := h.hasScale.2 (.inr ht)
  powers := h.powers ▸ List.subset_append_right ..
  scales := h.scales ▸ List.subset_append_right ..

theorem isPart_pow (t : Term α) (q : Rat) : IsPart t (pow t q) where
  alone? h := by rw [alone?, h, ite_self]
  hasScale := hasScale_pow.2
  powers := List.subset_cons_self ..
  scales := List.Subset.refl _

theorem isPart_scaled (t : Term α) (scale : Given α) (symbol : String) : IsPart t (scaled t scale symbol) where
  alone? _ := rfl
  hasScale := id
  powers := List.Subset.refl _
  scales := List.subset_cons_self ..

-- What comes of a term.
inductive Evaluates (t : Term α) : Except Error (BaseForm α) → Prop
  | misused (h : t.Misuses) (unit : String) (q : Rat) (m : Misuse) : Evaluates t (.error (.affineMisuse unit q m))
  | stopped {e : Error} (h : t.Stops e) : Evaluates t (.error e)
  | evaluated {u : BaseForm α} (hm : ¬t.Misuses) (hd : ∀ d, u.dimensions.get d = share d t.leaves)
    (ho : u.offset = (t.alone?.map (·.offset)).getD 0) : Evaluates t (.ok u)

namespace Evaluates

variable {s t c : Term Float} {u : BaseForm Float} {e : Error}

theorem of_part (h : Evaluates s (.error e)) (hp : IsPart s t) : Evaluates t (.error e) := by
  cases h
  case misused h _ _ _ => exact .misused (hp.misuses h) ..
  case stopped h => exact .stopped (hp.stops h)

-- The value of a term is an absolute scale if the term has one at all.
theorem isAffine_iff (h : Evaluates t (.ok u)) : u.isAffine ↔ t.HasScale := by
  cases h
  case evaluated hm hd ho =>
    cases ha : t.alone?
    case some v =>
      rw [hasScale_of_alone? ha, isAffine, isAffine, ho, ha]
      rfl
    case none =>
      have hu : u.isAffine = false := by
        rw [isAffine, ho, ha]
        decide +kernel
      rw [hu]
      exact iff_of_false Bool.false_ne_true fun hs => hm ⟨ha, hs⟩

theorem not_misuses (h : Evaluates t (.ok u)) : ¬t.Misuses := by
  cases h
  case evaluated hm _ _ => exact hm

theorem offset_eq (h : Evaluates t (.ok u)) : u.offset = (t.alone?.map (·.offset)).getD 0 := by
  cases h
  case evaluated ho => exact ho

theorem dimensions_eq (h : Evaluates t (.ok u)) : u.dimensions.get d = share d t.leaves := by
  cases h
  case evaluated hd _ => exact hd d

-- A product or a quotient of terms is one of what they come to.
theorem compound {op : BaseForm Float → BaseForm Float → Except Error (BaseForm Float)}
    {f : Dimensions → Dimensions → Dimensions} (hc : IsCompound c s t)
    (hop : ∀ u v, Combines u v (f u.dimensions v.dimensions) (op u v))
    (hf : ∀ {v w d}, v.get d = share d s.leaves → w.get d = share d t.leaves → (f v w).get d = share d c.leaves)
    {x y : Except Error (BaseForm Float)} (hx : Evaluates s x) (hy : Evaluates t y) :
    Evaluates c (do op (← x) (← y)) := by
  cases x
  case error => exact hx.of_part hc.left
  case ok u =>
    cases y
    case error => exact hy.of_part hc.right
    case ok v =>
      change Evaluates c (op u v)
      have hw := hop u v
      generalize op u v = w at hw
      cases hw
      case misused ha _ _ =>
        have hscale : c.HasScale := hc.hasScale.2 (ha.imp hx.isAffine_iff.1 hy.isAffine_iff.1)
        exact .misused ⟨hc.alone?, hscale⟩ ..
      case fault f => exact .stopped (.arithmetic f)
      case combined hu hv factor symbol =>
        constructor
        case hm =>
          rintro ⟨-, hscale⟩
          cases hc.hasScale.1 hscale
          case inl h => exact Bool.false_ne_true (hu ▸ hx.isAffine_iff.2 h)
          case inr h => exact Bool.false_ne_true (hv ▸ hy.isAffine_iff.2 h)
        case hd => exact fun d => hf hx.dimensions_eq hy.dimensions_eq
        case ho => rw [hc.alone?, Option.map_none, Option.getD_none]

theorem power {x : Except Error (BaseForm Float)} (q : Rat) (hx : Evaluates t x) :
    Evaluates (pow t q) (do (← x).pow q) := by
  have hp := isPart_pow t q
  cases x
  case error => exact hx.of_part hp
  case ok u =>
    change Evaluates _ (u.pow q)
    have hw := u.pow_raises q
    generalize u.pow q = w at hw
    cases hw
    case misused ha hq =>
      have halone : (pow t q).alone? = none := if_neg hq
      exact .misused ⟨halone, hp.hasScale (hx.isAffine_iff.1 ha)⟩ ..
    case fault f _ => exact .stopped (.arithmetic f)
    case tooLong h => exact .stopped (.tooLong List.mem_cons_self h)
    case notReal => exact .stopped (.arithmetic .notReal)
    case raised y hl hy symbol =>
      constructor
      case hm =>
        rintro ⟨halone, hscale⟩
        have hscale := hasScale_pow.1 hscale
        rw [alone?, if_pos (hl (hx.isAffine_iff.2 hscale))] at halone
        exact hx.not_misuses ⟨halone, hscale⟩
      case hd =>
        intro d
        rw [Dimensions.get_scale, hx.dimensions_eq, leaves, share_raise]
      case ho =>
        rw [hx.offset_eq, alone?]
        split <;> rfl

theorem multiple {x : Except Error (BaseForm Float)} (scale : Given Float) (symbol : String) (hx : Evaluates t x) :
    Evaluates (scaled t scale symbol) (do (← x).scaled scale symbol) := by
  have hp := isPart_scaled t scale symbol
  cases x
  case error => exact hx.of_part hp
  case ok u =>
    change Evaluates _ (u.scaled scale symbol)
    have hw := u.scaled_scales scale symbol
    generalize u.scaled scale symbol = w at hw
    cases hw
    case misused ha =>
      have halone : (scaled t scale symbol).alone? = none := rfl
      exact .misused ⟨halone, hp.hasScale (hx.isAffine_iff.1 ha)⟩ ..
    case fault f => exact .stopped (.arithmetic f)
    case refused h => exact .stopped (.noNumber List.mem_cons_self h)
    case scaled hu factor =>
      constructor
      case hm => exact fun h => Bool.false_ne_true (hu ▸ hx.isAffine_iff.2 h.2)
      case hd => exact fun d => hx.dimensions_eq
      case ho => rfl

end Evaluates

-- By induction on the term. Whether the value of an operand is an absolute scale is all that the refusals depend on.
theorem evaluates_eval (t : Term Float) : Evaluates t t.eval := by
  induction t
  case leaf u =>
    constructor
    case hm => exact fun h => Option.some_ne_none u h.1
    case hd => simp [leaves, share]
    case ho => rfl
  case mul s t hs ht =>
    refine .compound isCompound_mul mul_combines (fun hv hw => ?_) hs ht
    rw [Dimensions.get_add, hv, hw, leaves, share_append]
  case div s t hs ht =>
    refine .compound isCompound_div div_combines (fun hv hw => ?_) hs ht
    rw [Dimensions.get_sub, hv, hw, leaves, share_append, share_raise, Rat.mul_neg, Rat.mul_one, Rat.sub_eq_add_neg]
  case pow t q ht => exact .power q ht
  case scaled t scale symbol ht => exact .multiple scale symbol ht

-- The result of a term is refused where an absolute scale is not alone in it, and only there. Otherwise it is what the
-- leaves add up to, and has no offset but that of a leaf alone.
structure Composes (t : Term Float) (result : Except Error (BaseForm Float)) : Prop where
  misused_iff : (∀ e, result = .error e → ¬t.Stops e) →
    ((∃ unit q m, result = .error (.affineMisuse unit q m)) ↔ t.Misuses)
  error_cases {e : Error} : result = .error e → (∃ unit q m, e = .affineMisuse unit q m) ∨ t.Stops e
  dimensions_eq {u : BaseForm Float} : result = .ok u → ∀ d, u.dimensions.get d = share d t.leaves
  offset_eq {u : BaseForm Float} : result = .ok u → u.offset = (t.alone?.map (·.offset)).getD 0
  isAffine_iff {u : BaseForm Float} : result = .ok u → (u.isAffine ↔ ∃ v, t.alone? = some v ∧ v.isAffine)

theorem eval_composes (t : Term Float) : Composes t t.eval := by
  have ht := evaluates_eval t
  generalize t.eval = result at ht
  constructor
  case misused_iff =>
    intro hstop
    cases ht
    case misused h unit q m => exact iff_of_true ⟨unit, q, m, rfl⟩ h
    case stopped e h => exact absurd h (hstop e rfl)
    case evaluated hm _ _ => exact iff_of_false (by simp) hm
  case error_cases =>
    rintro e rfl
    cases ht
    case misused h unit q m => exact .inl ⟨unit, q, m, rfl⟩
    case stopped h => exact .inr h
  case dimensions_eq =>
    rintro u rfl d
    exact ht.dimensions_eq
  case offset_eq =>
    rintro u rfl
    exact ht.offset_eq
  case isAffine_iff =>
    rintro u rfl
    rw [ht.isAffine_iff]
    constructor
    case mp =>
      intro hs
      cases ha : t.alone?
      case none => exact absurd ⟨ha, hs⟩ ht.not_misuses
      case some v => exact ⟨v, rfl, (hasScale_of_alone? ha).1 hs⟩
    case mpr =>
      rintro ⟨v, ha, hv⟩
      exact (hasScale_of_alone? ha).2 hv

def metre : BaseForm Float :=
  ⟨.single .length, 1, 0, "m", .composed⟩

def celsius : BaseForm Float :=
  ⟨.single .temperature, 1, 273.15, "celsius", .composed⟩

def tinyExponent : Rat :=
  1 / (10 ^ 5000 : Nat)

-- A power is written down, and the exponent may be too long for that before the absolute scale is met.
theorem eval_tooLong :
    let t : Term Float := .mul (.pow (.leaf metre) tinyExponent) (.leaf celsius)
    t.Misuses ∧ t.eval = .error .integerTooLong := by
  intro t
  have hscale : t.HasScale := hasScale_mul.2 (.inr ((hasScale_of_alone? rfl).2 (by decide +kernel)))
  have hlinear : metre.isAffine = false := by decide +kernel
  have hpow : metre.pow tinyExponent = .error .integerTooLong :=
    pow_tooLong (by simp [hlinear]) (by decide +kernel) (by decide) (by decide +kernel)
  refine ⟨⟨rfl, hscale⟩, ?_⟩
  rw [eval, eval, eval]
  change (metre.pow tinyExponent >>= _) = _
  rw [hpow]
  rfl

end Term

end Metrology.BaseForm
