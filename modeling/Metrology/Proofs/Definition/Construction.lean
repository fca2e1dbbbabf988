import Metrology.Operand
import Metrology.Proofs.BaseForm.Terms
import Metrology.Proofs.Scalar.One

/-!
Units made out of others, step by step. Products, quotients, powers and prefixes refuse an absolute scale or leave it
as it is. The definition of a multiple does not look at the offset of its unit: a multiple of an absolute scale is a
unit without offset, and so is all that is made of it.
-/

namespace Metrology

-- A step in which a unit is made out of another one.
inductive Construction (α : Type) [Scalar α]
  | multiple (symbol : String) (scale : Given α) (naming : Definition.Naming α)
  | times (v : Operand α)
  | timesOn (v : Operand α)
  | per (v : Operand α)
  | perOn (v : Operand α)
  | power (exponent : Given α)
  | prefixed (p : SiPrefix α)

variable {α : Type} [Scalar α]

def Construction.isMultiple : Construction α → Bool
  | multiple .. => true
  | _ => false

def Operand.isDefinition : Operand α → Bool
  | definition _ => true
  | form _ | number _ => false

-- What comes of an absolute scale that is not lost: it is refused, or it is there with its offset.
inductive KeepsScale (u : BaseForm α) : Except Error (Operand α) → Prop
  | misused (unit : String) (q : Rat) (m : Misuse) : KeepsScale u (.error (.affineMisuse unit q m))
  | kept {o : Operand α} {w : BaseForm α} (hw : o.unit = .ok w) (ho : w.offset = u.offset) : KeepsScale u (.ok o)

namespace KeepsScale

variable {u w : BaseForm α} {m : Misuse}

theorem of_misused {x : Except Error (BaseForm α)} (h : ∃ unit q, x = .error (.affineMisuse unit q m)) :
    KeepsScale u (do return .form (← x)) := by
  obtain ⟨unit, q, rfl⟩ := h
  exact .misused unit q m

theorem of_offset_eq {x : Except Error (Operand α)} (ho : w.offset = u.offset) (h : KeepsScale w x) :
    KeepsScale u x := by
  cases h
  case misused unit q m => exact .misused unit q m
  case kept hv hw => exact .kept hv (hw.trans ho)

end KeepsScale

namespace Definition

variable {d : Definition α} {u w : BaseForm α}

theorem withPrefix_misused (ha : d.form.isAffine) (p : SiPrefix α) :
    d.withPrefix p = .error (.affineMisuse d.form.symbol 1 .exponent) := by
  rw [withPrefix, BaseForm.requireLinear_affine ha]
  rfl

theorem offset_of_withPrefix {p : SiPrefix α} (h : d.withPrefix p = .ok w) : w.offset = 0 := by
  obtain ⟨-, -, h⟩ := exists_of_bind_ok h
  cases h
  rfl

theorem offset_of_make {family : Family} {dimensions : Dimensions} {factor offset : Given α} {symbol : String}
    {naming : Naming α} (h : make family dimensions factor offset symbol naming = .ok d) :
    offset.toScalar = .ok d.form.offset := by
  rw [make] at h
  split at h
  case isTrue => contradiction
  case isFalse =>
    obtain ⟨x, -, h⟩ := exists_of_bind_ok h
    obtain ⟨y, hy, h⟩ := exists_of_bind_ok h
    simp only at h
    split at h
    case isFalse => contradiction
    case isTrue =>
      cases h
      exact hy

-- A multiple has no offset, whatever it is a multiple of.
theorem offset_of_derive {symbol : String} {scale : Given α} {naming : Naming α}
    (h : derive symbol u scale naming = .ok d) : d.form.offset = 0 := by
  obtain ⟨factor, -, h⟩ := exists_of_bind_ok h
  exact (Except.ok.inj (offset_of_make h)).symm

end Definition

namespace Operand

variable {o v : Operand α} {u w : BaseForm α}

theorem mul_of_unit (hu : o.unit = .ok u) (hw : v.unit = .ok w) : o.mul v = u.mul w := by
  cases o
  case number => contradiction
  case form | definition =>
    cases hu
    cases v
    case number => contradiction
    case form | definition =>
      cases hw
      rfl

theorem div_of_unit (hu : o.unit = .ok u) (hw : v.unit = .ok w) : o.div v = u.div w := by
  cases o
  case number => contradiction
  case form | definition =>
    cases hu
    cases v
    case number => contradiction
    case form | definition =>
      cases hw
      rfl

theorem pow_of_unit {g : Given α} {q : Rat} (hu : o.unit = .ok u) (hq : g.toExponent = .ok q) :
    o.pow g = u.pow q := by
  cases o
  case number => contradiction
  case form | definition =>
    cases hu
    simp only [pow, unit, hq, bind, Except.bind]

def HasNoOffset (o : Operand α) : Prop :=
  ∃ u, o.unit = .ok u ∧ u.offset = 0

theorem HasNoOffset.of_form {x : Except Error (BaseForm α)} (h : (x >>= fun w => .ok (.form w)) = .ok o)
    (hx : ∀ w, x = .ok w → w.offset = 0) : o.HasNoOffset := by
  obtain ⟨w, hw, h⟩ := exists_of_bind_ok h
  cases h
  exact ⟨w, rfl, hx w hw⟩

end Operand

-- The first power of an absolute scale is that scale.
theorem BaseForm.pow_one (u : BaseForm Float) : ∃ w, u.pow 1 = .ok w ∧ w.offset = u.offset := by
  have hraises := u.pow_raises 1
  generalize u.pow 1 = x at hraises
  cases hraises
  case misused hq => contradiction
  case fault h => simp [Binary64.power_one] at h
  case tooLong h => exact absurd h (by decide +kernel)
  case notReal h => simp [Binary64.power_one] at h
  case raised => exact ⟨_, rfl, rfl⟩

namespace Construction

open BaseForm Operand

def apply (o : Operand α) : Construction α → Except Error (Operand α)
  | multiple symbol scale naming => return .definition (← o.derive symbol scale naming)
  | times v => return .form (← o.mul v)
  | timesOn v => return .form (← v.mul o)
  | per v => return .form (← o.div v)
  | perOn v => return .form (← v.div o)
  | power exponent => return .form (← o.pow exponent)
  | prefixed p => return .form (← (← o.asDefinition "with_prefix").withPrefix p)

-- Whether a step can be taken from a unit at all: another operand has to be a unit too, an exponent a number, and
-- what takes a prefix a definition.
def fits (o : Operand α) : Construction α → Bool
  | multiple .. => true
  | times v | timesOn v | per v | perOn v => v.unit.isOk
  | power exponent => exponent.toExponent.isOk
  | prefixed _ => o.isDefinition

variable {c : Construction Float} {o o' : Operand Float} {u : BaseForm Float}

-- By cases of the step. The first power is the only step that an absolute scale can take.
theorem apply_keepsScale (hu : o.unit = .ok u) (ha : u.isAffine) (hf : c.fits o) (hc : c.isMultiple = false) :
    KeepsScale u (c.apply o) := by
  cases c
  case multiple => contradiction
  case times v =>
    obtain ⟨w, hw⟩ := exists_of_isOk hf
    exact .of_misused (mul_of_unit hu hw ▸ mul_misused (.inl ha))
  case timesOn v =>
    obtain ⟨w, hw⟩ := exists_of_isOk hf
    exact .of_misused (mul_of_unit hw hu ▸ mul_misused (.inr ha))
  case per v =>
    obtain ⟨w, hw⟩ := exists_of_isOk hf
    exact .of_misused (div_of_unit hu hw ▸ div_misused (.inl ha))
  case perOn v =>
    obtain ⟨w, hw⟩ := exists_of_isOk hf
    exact .of_misused (div_of_unit hw hu ▸ div_misused (.inr ha))
  case power exponent =>
    obtain ⟨q, hq⟩ := exists_of_isOk hf
    by_cases hone : q = 1
    case neg => exact .of_misused ⟨u.symbol, q, pow_of_unit hu hq ▸ pow_misused ha hone⟩
    case pos =>
      subst hone
      obtain ⟨w, hw, ho⟩ := u.pow_one
      rw [apply, pow_of_unit hu hq, hw]
      exact .kept rfl ho
  case prefixed p =>
    cases o
    case form | number => contradiction
    case definition d =>
      cases hu
      exact .of_misused ⟨_, _, d.withPrefix_misused ha p⟩

-- By cases of the step again. That a multiple is without offset does not need the offset of its unit.
theorem apply_hasNoOffset (ho : c.isMultiple = false → o.HasNoOffset) (hf : c.fits o) (h : c.apply o = .ok o') :
    o'.HasNoOffset := by
  cases c
  case multiple symbol scale naming =>
    obtain ⟨d, hd, h⟩ := exists_of_bind_ok h
    obtain ⟨u, -, hd⟩ := exists_of_bind_ok hd
    cases h
    exact ⟨d.form, rfl, Definition.offset_of_derive hd⟩
  case times v =>
    obtain ⟨u, hu, -⟩ := ho rfl
    obtain ⟨v, hv⟩ := exists_of_isOk hf
    rw [apply, mul_of_unit hu hv] at h
    exact .of_form h fun w hw => (hw ▸ mul_combines u v).offset_eq
  case timesOn v =>
    obtain ⟨u, hu, -⟩ := ho rfl
    obtain ⟨v, hv⟩ := exists_of_isOk hf
    rw [apply, mul_of_unit hv hu] at h
    exact .of_form h fun w hw => (hw ▸ mul_combines v u).offset_eq
  case per v =>
    obtain ⟨u, hu, -⟩ := ho rfl
    obtain ⟨v, hv⟩ := exists_of_isOk hf
    rw [apply, div_of_unit hu hv] at h
    exact .of_form h fun w hw => (hw ▸ div_combines u v).offset_eq
  case perOn v =>
    obtain ⟨u, hu, -⟩ := ho rfl
    obtain ⟨v, hv⟩ := exists_of_isOk hf
    rw [apply, div_of_unit hv hu] at h
    exact .of_form h fun w hw => (hw ▸ div_combines v u).offset_eq
  case power exponent =>
    obtain ⟨u, hu, hzero⟩ := ho rfl
    obtain ⟨q, hq⟩ := exists_of_isOk hf
    rw [apply, pow_of_unit hu hq] at h
    refine .of_form h fun w hw => ?_
    have hraises : Raises u q (.ok w) := hw ▸ pow_raises u q
    rw [hraises.offset_eq, hzero, ite_self]
  case prefixed p =>
    cases o
    case form | number => contradiction
    case definition d => exact .of_form h fun w hw => Definition.offset_of_withPrefix hw

end Construction

namespace Operand

-- The steps one after the other, up to the first that fails.
def build (o : Operand α) (steps : List (Construction α)) : Except Error (Operand α) :=
  steps.foldlM Construction.apply o

-- Whether every step fits what the steps before it have made.
def fits (o : Operand α) : List (Construction α) → Bool
  | [] => true
  | c :: steps => c.fits o && (c.apply o).toOption.all fun o' => fits o' steps

theorem build_cons (o : Operand α) (c : Construction α) (steps : List (Construction α)) :
    o.build (c :: steps) = c.apply o >>= fun o' => o'.build steps :=
  List.foldlM_cons

theorem fits_of_cons {c : Construction α} {steps : List (Construction α)} {o : Operand α}
    (hf : o.fits (c :: steps)) : c.fits o :=
  (Bool.and_eq_true_iff.1 hf).1

theorem fits_of_apply {c : Construction α} {steps : List (Construction α)} {o o' : Operand α}
    (hf : o.fits (c :: steps)) (h : c.apply o = .ok o') : o'.fits steps := by
  rw [fits, h, Bool.and_eq_true] at hf
  exact hf.2

variable {steps : List (Construction Float)} {o o' d : Operand Float} {u : BaseForm Float}

-- By induction on the steps. What has not been refused is an absolute scale still.
theorem build_keepsScale (hu : o.unit = .ok u) (ha : u.isAffine) (hf : o.fits steps)
    (hs : ∀ c ∈ steps, c.isMultiple = false) : KeepsScale u (o.build steps) := by
  induction steps generalizing o u
  case nil => exact .kept hu rfl
  case cons c steps hi =>
    obtain ⟨hc, hs⟩ := List.forall_mem_cons.1 hs
    have hfirst := Construction.apply_keepsScale hu ha (fits_of_cons hf) hc
    rw [build_cons]
    cases hx : c.apply o
    case error e =>
      rw [hx] at hfirst
      cases hfirst
      case misused unit q m => exact .misused unit q m
    case ok o' =>
      rw [hx] at hfirst
      cases hfirst
      case kept w ho hw =>
        have haffine : w.isAffine := by rwa [BaseForm.isAffine, ho]
        exact .of_offset_eq ho (hi hw haffine (fits_of_apply hf hx) hs)

theorem build_hasNoOffset (ho : (∀ c ∈ steps, c.isMultiple = false) → o.HasNoOffset) (hf : o.fits steps)
    (h : o.build steps = .ok o') : o'.HasNoOffset := by
  induction steps generalizing o
  case nil =>
    cases h
    exact ho (List.forall_mem_nil _)
  case cons c steps hi =>
    rw [build_cons] at h
    obtain ⟨between, hc, h⟩ := exists_of_bind_ok h
    refine hi (fun hs => ?_) (fits_of_apply hf hc) h
    exact Construction.apply_hasNoOffset (fun hm => ho (List.forall_mem_cons.2 ⟨hm, hs⟩)) (fits_of_cons hf) hc

-- A chain of steps from an absolute scale. Without a multiple among them the scale is refused or kept, and with one it
-- is lost.
theorem build_absolute (hu : d.unit = .ok u) (ha : u.isAffine) (hf : d.fits steps) :
    ((∀ c ∈ steps, c.isMultiple = false) → KeepsScale u (d.build steps)) ∧
      ((∃ c ∈ steps, c.isMultiple) → ∀ o, d.build steps = .ok o → o.HasNoOffset) := by
  constructor
  case left => exact build_keepsScale hu ha hf
  case right =>
    rintro ⟨c, hc, hm⟩ o h
    exact build_hasNoOffset (fun hs => absurd hm (Bool.eq_false_iff.1 (hs c hc))) hf h

theorem build_absolute_celsius :
    let steps : List (Construction Float) := [.power (.integer 1), .perOn (.form BaseForm.Term.metre)]
    BaseForm.Term.celsius.isAffine ∧ (form BaseForm.Term.celsius).fits steps ∧
      KeepsScale BaseForm.Term.celsius ((form BaseForm.Term.celsius).build steps) := by
  intro steps
  have ha : BaseForm.Term.celsius.isAffine := by decide +kernel
  have hf : (form BaseForm.Term.celsius).fits steps := by decide +kernel
  exact ⟨ha, hf, (build_absolute rfl ha hf).1 (by decide)⟩

-- The multiple by one of an absolute scale.
theorem build_multiple_celsius :
    let steps : List (Construction Float) := [.multiple "x" (.scalar 1) {}]
    BaseForm.Term.celsius.isAffine ∧ (form BaseForm.Term.celsius).fits steps ∧
      ¬KeepsScale BaseForm.Term.celsius ((form BaseForm.Term.celsius).build steps) := by
  intro steps
  have hf : (form BaseForm.Term.celsius).fits steps := by decide +kernel
  have hok : ((form BaseForm.Term.celsius).build steps).isOk := by decide +kernel
  obtain ⟨o, hbuild⟩ := exists_of_isOk hok
  refine ⟨by decide +kernel, hf, fun h => ?_⟩
  obtain ⟨v, hv, hzero⟩ := build_hasNoOffset (fun hs => absurd (hs _ List.mem_cons_self) (by decide)) hf hbuild
  rw [hbuild] at h
  cases h
  case kept w ho hw =>
    cases hv.symm.trans hw
    exact absurd (congrArg Scalar.isZero (ho.symm.trans hzero)) (by decide +kernel)

end Operand

end Metrology
