import Mathlib.Algebra.Field.Rat
import Mathlib.Algebra.GroupWithZero.Basic
import Metrology.Proofs.Converter.Transparency
import Metrology.Proofs.Fallible
import Metrology.Scalar.Exact

/-!
Conversions along chains of units. In exact arithmetic it makes no difference by which units a value goes: the last
value of a chain is what the direct conversion gives.
-/

namespace Metrology

namespace Exact

-- What the powers of rational numbers are. Roots may be any rational numbers, so that units reduce to any factors.
abbrev PowerLaw := Rat → Rat → Except ArithmeticFault (Option Rat)

-- Rational numbers with exact arithmetic and the powers of a law.
def Number (_law : PowerLaw) : Type := Rat

variable {law : PowerLaw}

instance instDecidableEqNumber : DecidableEq (Number law) :=
  inferInstanceAs (DecidableEq Rat)

@[reducible]
def scalar (law : PowerLaw) : Scalar Rat :=
  { (inferInstance : Scalar Rat) with power := law }

instance instScalarNumber : Scalar (Number law) :=
  scalar law

-- The value on a scale with factor `c` and offset `d` of a value on a scale with factor `a` and offset `b`.
def rescale (a b c d x : Rat) : Rat :=
  (x * a + b - d) / c

theorem rescale_self {a : Rat} (ha : a ≠ 0) (b x : Rat) : rescale a b a b x = x := by
  rw [rescale, add_sub_cancel_right, mul_div_cancel_right₀ _ ha]

theorem rescale_rescale {c : Rat} (hc : c ≠ 0) (a b d e f x : Rat) :
    rescale c d e f (rescale a b c d x) = rescale a b e f x := by
  rw [rescale, rescale, rescale, div_mul_cancel₀ _ hc, sub_add_cancel]

theorem rescale_zero (a c x : Rat) : rescale a 0 c 0 x = x * (a / c) := by
  rw [rescale, add_zero, sub_zero, mul_div_assoc]

end Exact

namespace BaseForm

open Exact

variable {law : PowerLaw} {u v w : BaseForm (Number law)}

-- The value in `v` of a value in `u`.
def image (u v : BaseForm (Number law)) (x : Number law) : Number law :=
  rescale u.factor u.offset v.factor v.offset x

-- How many of `v` make up one of `u`.
def share (u v : BaseForm (Number law)) : Number law :=
  let factors : Rat × Rat := (u.factor, v.factor)
  factors.1 / factors.2

theorem convert_eq (hv : v.factor ≠ 0) (x : Number law) : u.convert v x = .ok (u.image v x) :=
  if_neg hv

theorem ratio_eq (hv : v.factor ≠ 0) : u.ratio v = .ok (u.share v) :=
  if_neg hv

theorem image_self (hu : u.factor ≠ 0) (x : Number law) : u.image u x = x :=
  rescale_self hu _ _

theorem image_image (hv : v.factor ≠ 0) (x : Number law) : v.image w (u.image v x) = u.image w x :=
  rescale_rescale hv ..

theorem share_self (hu : u.factor ≠ 0) : u.share u = 1 :=
  @div_self Rat _ _ hu

theorem share_mul (hv : v.factor ≠ 0) : u.share v * v.share w = u.share w :=
  @div_mul_div_cancel₀ Rat _ _ _ _ hv

theorem image_of_linear (hu : u.offset = 0) (hv : v.offset = 0) (x : Number law) : u.image v x = x * u.share v := by
  rw [image, hu, hv]
  exact rescale_zero _ _ _

end BaseForm

namespace Converter

section

variable {α : Type} [Scalar α]

-- Converts a value from text to text, starting with a given one.
def convertAlong (r : Registry α) (x : α) (text : String) : List String → Action α (Converter α) α
  | [] => return x
  | next :: rest => do
    let y ← convertValue r (.scalar x) text next
    convertAlong r y next rest

-- Multiplies the factors from text to text.
def factorAlong (r : Registry α) (text : String) : List String → Action α (Converter α) α
  | [] => return 1
  | next :: rest => do
    let factor ← conversionFactor r text next
    return factor * (← factorAlong r next rest)

namespace Fresh

def convertAlong (s : Settings) (r : Registry α) (x : α) (text : String) : List String → Except Error α
  | [] => return x
  | next :: rest => do
    let y ← convertValue s r (.scalar x) text next
    convertAlong s r y next rest

def factorAlong (s : Settings) (r : Registry α) (text : String) : List String → Except Error α
  | [] => return 1
  | next :: rest => do
    let factor ← conversionFactor s r text next
    return factor * (← factorAlong s r next rest)

end Fresh

namespace Agrees

variable {settings : Settings} {r : Registry α}

theorem convertAlong (x : α) (text : String) (rest : List String) :
    Agrees settings r (Converter.convertAlong r x text rest) (Fresh.convertAlong settings r x text rest) := by
  induction rest generalizing x text
  case nil => exact pure x
  case cons next rest hi => exact (convertValue _ text next).bind fun y => hi y next

theorem factorAlong (text : String) (rest : List String) :
    Agrees settings r (Converter.factorAlong r text rest) (Fresh.factorAlong settings r text rest) := by
  induction rest generalizing text
  case nil => exact pure 1
  case cons next rest hi => exact (conversionFactor text next).bind fun factor => (hi next).bind fun _ => pure _

end Agrees

end

end Converter

namespace Registry

open Exact

variable {law : PowerLaw} {r : Registry (Number law)} {texts texts' : List String} {first second : String}

-- Texts that reduce to compatible units, none of them with the factor zero.
structure IsCommensurable (r : Registry (Number law)) (texts : List String) : Prop where
  reduces : ∀ text ∈ texts, ∃ u, r.reduceText text = .ok u ∧ u.factor ≠ 0
  compatible : ∀ first ∈ texts, ∀ second ∈ texts, ∀ {u v}, r.reduceText first = .ok u → r.reduceText second = .ok v →
    u.compatible v

theorem IsCommensurable.factor_ne_zero {u : BaseForm (Number law)} (h : r.IsCommensurable texts) (ht : first ∈ texts)
    (hu : r.reduceText first = .ok u) : u.factor ≠ 0 := by
  obtain ⟨u', hu', h0⟩ := h.reduces first ht
  cases hu.symm.trans hu'
  exact h0

-- A value in one of the units can be converted to each of the others.
theorem IsCommensurable.reaches {u : BaseForm (Number law)} (h : r.IsCommensurable texts) (hf : first ∈ texts)
    (hs : second ∈ texts) (hu : r.reduceText first = .ok u) :
    ∃ v, r.reduceText second = .ok v ∧ u.compatible v ∧ v.factor ≠ 0 := by
  obtain ⟨v, hv, h0⟩ := h.reduces second hs
  exact ⟨v, hv, h.compatible first hf second hs hu hv, h0⟩

theorem IsCommensurable.of_subset (h : r.IsCommensurable texts) (hs : texts' ⊆ texts) : r.IsCommensurable texts' where
  reduces text ht := h.reduces text (hs ht)
  compatible first hf second ht := h.compatible first (hs hf) second (hs ht)

end Registry

namespace Converter.Fresh

open Exact

variable {law : PowerLaw} {settings : Settings} {r : Registry (Number law)} {u v : BaseForm (Number law)}
variable {first second : String} {rest : List String}

section

variable (hs : settings.rounding = none) (hu : r.reduceText first = .ok u) (hv : r.reduceText second = .ok v)
variable (hc : u.compatible v) (h0 : v.factor ≠ 0)

include hu hv hc in
theorem reduceBoth_eq : reduceBoth r first second = .ok (u, v) := by
  rw [reduceBoth, hu, hv]
  exact if_neg (by simp [hc])

include hs hu hv hc h0

theorem convertValue_eq (x : Number law) : convertValue settings r (.scalar x) first second = .ok (u.image v x) := by
  rw [convertValue, reduceBoth_eq hu hv hc]
  change ((u.convert v x).mapError Error.arithmetic >>= fun y => .ok (rounded settings y)) = _
  rw [BaseForm.convert_eq h0]
  change Except.ok (rounded settings _) = _
  rw [rounded, hs]

theorem conversionFactor_eq : conversionFactor settings r first second = .ok (u.share v) := by
  rw [conversionFactor, reduceBoth_eq hu hv hc]
  change ((u.ratio v).mapError Error.arithmetic >>= fun y => .ok (rounded settings y)) = _
  rw [BaseForm.ratio_eq h0]
  change Except.ok (rounded settings _) = _
  rw [rounded, hs]

end

-- Every step goes on from where the one before it ended, so only the ends of a chain count.
theorem convertAlong_eq (hs : settings.rounding = none) (h : r.IsCommensurable (first :: rest))
    (hu : r.reduceText first = .ok u) (hv : r.reduceText (rest.getLastD first) = .ok v) (x : Number law) :
    convertAlong settings r x first rest = .ok (u.image v x) := by
  induction rest generalizing first u x
  case nil =>
    cases hu.symm.trans hv
    rw [BaseForm.image_self (h.factor_ne_zero List.mem_cons_self hu)]
    rfl
  case cons next rest hi =>
    have hnext : next ∈ first :: next :: rest := List.mem_cons_of_mem _ List.mem_cons_self
    obtain ⟨w, hw, hc, h0⟩ := h.reaches List.mem_cons_self hnext hu
    rw [List.getLastD_cons] at hv
    rw [convertAlong, convertValue_eq hs hu hw hc h0]
    exact (hi (h.of_subset (List.subset_cons_self ..)) hw hv _).trans (congrArg _ (BaseForm.image_image h0 x))

theorem factorAlong_eq (hs : settings.rounding = none) (h : r.IsCommensurable (first :: rest))
    (hu : r.reduceText first = .ok u) (hv : r.reduceText (rest.getLastD first) = .ok v) :
    factorAlong settings r first rest = .ok (u.share v) := by
  induction rest generalizing first u
  case nil =>
    cases hu.symm.trans hv
    rw [BaseForm.share_self (h.factor_ne_zero List.mem_cons_self hu)]
    rfl
  case cons next rest hi =>
    have hnext : next ∈ first :: next :: rest := List.mem_cons_of_mem _ List.mem_cons_self
    obtain ⟨w, hw, hc, h0⟩ := h.reaches List.mem_cons_self hnext hu
    rw [List.getLastD_cons] at hv
    rw [factorAlong, conversionFactor_eq hs hu hw hc h0]
    change (factorAlong settings r next rest >>= fun factor => .ok (u.share w * factor)) = _
    rw [hi (h.of_subset (List.subset_cons_self ..)) hw hv]
    exact congrArg Except.ok (BaseForm.share_mul h0)

end Converter.Fresh

namespace Session

open Converter Exact

variable {law : PowerLaw} {settings : Settings} {s : Session (Number law)} {first : String} {rest : List String}

-- Which way a conversion takes cannot be seen: values and factors along a chain are those of the direct conversion from
-- its first unit to its last, the way back leads to where it started, and between units without an offset a value
-- is multiplied by the factor.
structure PathIndependent (s : Session (Number law)) (first : String) (rest : List String) : Prop where
  convertValue_eq (x : Number law) : ∃ y, (convertAlong s.registry x first rest s.converter).result = .ok y ∧
    (convertValue s.registry (.scalar x) first (rest.getLastD first) s.converter).result = .ok y
  convertBack_eq (x : Number law) : (convertAlong s.registry x first (rest ++ [first]) s.converter).result = .ok x
  conversionFactor_eq : ∃ factor, (factorAlong s.registry first rest s.converter).result = .ok factor ∧
    (conversionFactor s.registry first (rest.getLastD first) s.converter).result = .ok factor
  convertLinear_eq {source target : String} (hsource : source ∈ first :: rest) (htarget : target ∈ first :: rest)
    (hu : ∀ u, s.registry.reduceText source = .ok u → u.offset = 0)
    (hv : ∀ v, s.registry.reduceText target = .ok v → v.offset = 0) (x : Number law) :
    ∃ factor, (conversionFactor s.registry source target s.converter).result = .ok factor ∧
      (convertValue s.registry (.scalar x) source target s.converter).result = .ok (x * factor)

theorem Faithful.pathIndependent (h : s.Faithful settings) (hs : settings.rounding = none)
    (hall : s.registry.IsCommensurable (first :: rest)) : s.PathIndependent first rest := by
  have hlast : rest.getLastD first ∈ first :: rest := List.getLastD_mem_cons
  obtain ⟨u, hu, hu0⟩ := hall.reduces first List.mem_cons_self
  obtain ⟨v, hv, hc, hv0⟩ := hall.reaches List.mem_cons_self hlast hu
  constructor
  case convertValue_eq =>
    intro x
    refine ⟨u.image v x, ?_, ?_⟩
    · rw [(Agrees.convertAlong x first rest _ h).1, Fresh.convertAlong_eq hs hall hu hv]
    · rw [(Agrees.convertValue _ first _ _ h).1, Fresh.convertValue_eq hs hu hv hc hv0]
  case convertBack_eq =>
    intro x
    have hsubset : first :: (rest ++ [first]) ⊆ first :: rest := by simp
    have hback : s.registry.reduceText ((rest ++ [first]).getLastD first) = .ok u := by rwa [List.getLastD_concat]
    rw [(Agrees.convertAlong x first _ _ h).1, Fresh.convertAlong_eq hs (hall.of_subset hsubset) hu hback,
      BaseForm.image_self hu0]
  case conversionFactor_eq =>
    refine ⟨u.share v, ?_, ?_⟩
    · rw [(Agrees.factorAlong first rest _ h).1, Fresh.factorAlong_eq hs hall hu hv]
    · rw [(Agrees.conversionFactor first _ _ h).1, Fresh.conversionFactor_eq hs hu hv hc hv0]
  case convertLinear_eq =>
    intro source target hsource htarget hsource0 htarget0 x
    obtain ⟨u, hu, -⟩ := hall.reduces source hsource
    obtain ⟨v, hv, hc, hv0⟩ := hall.reaches hsource htarget hu
    refine ⟨u.share v, ?_, ?_⟩
    · rw [(Agrees.conversionFactor source target _ h).1, Fresh.conversionFactor_eq hs hu hv hc hv0]
    · rw [(Agrees.convertValue _ source target _ h).1, Fresh.convertValue_eq hs hu hv hc hv0,
        BaseForm.image_of_linear (hsource0 u hu) (htarget0 v hv)]

-- Whatever happened before, a converter that does not round converts along any chain of compatible units as it does
-- directly.
theorem pathIndependent_of_isCommensurable (settings : Settings) (r : Registry (Number law))
    (steps : List (Step (Number law))) (first : String) (rest : List String) (hs : settings.rounding = none)
    (hall : (steps.foldl step (start settings r)).registry.IsCommensurable (first :: rest)) :
    (steps.foldl step (start settings r)).PathIndependent first rest :=
  (Faithful.foldl_step (s := start settings r) .create steps).pathIndependent hs hall

-- Three scales of temperature, defined one after the other in an empty registry.
def temperatureScales : List (Step (Number Exact.power)) :=
  let kelvin : BaseForm (Number Exact.power) := ⟨.single .temperature, 1, 0, "K", .composed⟩
  let shift : Rat := 5463 / 20
  let (scale, shift') : Rat × Rat := (5 / 9, 45967 / 180)
  [.change (.define "K" (.form kelvin) (.integer 1) (.integer 0) false),
    .change (.define "celsius" (.text "K") (.integer 1) (.scalar shift) false),
    .change (.define "fahrenheit" (.text "K") (.scalar scale) (.scalar shift') false)]

theorem pathIndependent_temperatures :
    let s := temperatureScales.foldl step (start .standard .empty)
    Settings.standard.rounding = none ∧ s.registry.IsCommensurable ["celsius", "fahrenheit", "K²/K"] ∧
      s.PathIndependent "celsius" ["fahrenheit", "K²/K"] := by
  intro s
  have hunits : ∀ text ∈ ["celsius", "fahrenheit", "K²/K"], (s.registry.reduceText text).toOption.map
      (fun u => (u.dimensions, decide (u.factor = 0))) = some (.single .temperature, false) := by
    decide +kernel
  have hall : s.registry.IsCommensurable ["celsius", "fahrenheit", "K²/K"] := by
    constructor
    case reduces =>
      intro text ht
      obtain ⟨u, hu, hfacts⟩ := exists_of_toOption (hunits text ht)
      exact ⟨u, hu, of_decide_eq_false (Prod.mk.inj hfacts).2⟩
    case compatible =>
      intro first hf second ht u v hu hv
      obtain ⟨u', hu', hfacts⟩ := exists_of_toOption (hunits first hf)
      obtain ⟨v', hv', hfacts'⟩ := exists_of_toOption (hunits second ht)
      cases hu.symm.trans hu'
      cases hv.symm.trans hv'
      rw [BaseForm.compatible, (Prod.mk.inj hfacts).1, (Prod.mk.inj hfacts').1]
      decide
  exact ⟨rfl, hall, pathIndependent_of_isCommensurable .standard .empty temperatureScales _ _ rfl hall⟩

end Session

end Metrology
