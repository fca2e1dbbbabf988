import Metrology.Proofs.BaseForm.Operations
import Metrology.Proofs.Expression.Grouped
import Metrology.Proofs.Registry.Reduction
import Metrology.Scalar.Binary64

/-!
Computing with texts and computing with units. Reducing the product, the quotient or a power of texts gives the
dimensions of the product, the quotient or the power of the units that the texts reduce to.
-/

namespace Metrology

open Expression

-- Errors of the numbers alone: arithmetic that has no result, and integers that are too long to be read or written.
def Error.isNumerical : Error → Bool
  | arithmetic _ | numeralTooLong _ | integerTooLong => true
  | _ => false

-- A reduction and an operation on units fail for their numbers only, and where neither fails, they give the same
-- dimensions.
structure Concur {α : Type} [Scalar α] (reduction operation : Except Error (BaseForm α)) : Prop where
  reduction_error {x : Error} : reduction = .error x → x.isNumerical
  operation_error {x : Error} : operation = .error x → x.isNumerical
  offset_eq {w : BaseForm α} : reduction = .ok w → w.offset = 0
  dimensions_eq {w w' : BaseForm α} : reduction = .ok w → operation = .ok w' → w.dimensions = w'.dimensions

namespace Expression

variable {e e' : Expression} {cs : List Component} {P : String → Prop}

theorem exists_mem_of_mem_ofComponents {c : Component} (h : c ∈ (ofComponents cs).components) :
    ∃ q, (c.1, q) ∈ cs := by
  obtain ⟨hq, h0⟩ := mem_ofComponents_iff.mp h
  exact exists_of_exponentOf_ne_zero (hq ▸ h0)

-- Operations on expressions bring in no names.
theorem forall_times (h : ∀ c ∈ e.components, P c.1) (h' : ∀ c ∈ e'.components, P c.1) :
    ∀ c ∈ (times e e').components, P c.1 := by
  intro c hc
  obtain ⟨q, hq⟩ := exists_mem_of_mem_ofComponents hc
  cases List.mem_append.mp hq
  case inl hq => exact h (c.1, q) hq
  case inr hq => exact h' (c.1, q) hq

theorem forall_raise (h : ∀ c ∈ cs, P c.1) (q : Rat) : ∀ c ∈ raise q cs, P c.1 := by
  intro c hc
  obtain ⟨d, hd, he⟩ := List.mem_map.mp hc
  exact he ▸ h d hd

theorem forall_per (h : ∀ c ∈ e.components, P c.1) (h' : ∀ c ∈ e'.components, P c.1) :
    ∀ c ∈ (per e e').components, P c.1 := by
  intro c hc
  obtain ⟨q, hq⟩ := exists_mem_of_mem_ofComponents hc
  cases List.mem_append.mp hq
  case inl hq => exact h (c.1, q) hq
  case inr hq => exact forall_raise h' (-1) (c.1, q) hq

theorem forall_toPower (h : ∀ c ∈ e.components, P c.1) (q : Rat) : ∀ c ∈ (toPower q e).components, P c.1 := by
  intro c hc
  obtain ⟨s, hs⟩ := exists_mem_of_mem_ofComponents hc
  exact forall_raise h q (c.1, s) hs

theorem weight_times (w : String → Rat) (e e' : Expression) :
    weight w (times e e').components = weight w e.components + weight w e'.components := by
  rw [times, weight_ofComponents, weight_append]

theorem weight_per (w : String → Rat) (e e' : Expression) :
    weight w (per e e').components = weight w e.components - weight w e'.components := by
  rw [per, weight_ofComponents, weight_append, weight_raise, Rat.mul_neg, Rat.mul_one, Rat.sub_eq_add_neg]

theorem weight_toPower (w : String → Rat) (q : Rat) (e : Expression) :
    weight w (toPower q e).components = weight w e.components * q := by
  rw [toPower, weight_ofComponents, weight_raise]

end Expression

variable {α : Type} [Scalar α] {a b text : String} {e e' : Expression} {u v : BaseForm α} {d : Dimensions}

namespace BaseForm

-- A unit of these dimensions, or an error of the numbers.
def Yields (d : Dimensions) : Except Error (BaseForm α) → Prop
  | .ok w => w.dimensions = d
  | .error x => x.isNumerical

theorem Combines.yields {x : Except Error (BaseForm α)} (h : Combines u v d x) (hu : u.isAffine = false)
    (hv : v.isAffine = false) : Yields d x := by
  cases h
  case misused ha _ _ => exact absurd ha (by simp [hu, hv])
  case fault | combined => rfl

theorem mul_yields (hu : u.isAffine = false) (hv : v.isAffine = false) :
    Yields (u.dimensions + v.dimensions) (u.mul v) :=
  (mul_combines u v).yields hu hv

theorem div_yields (hu : u.isAffine = false) (hv : v.isAffine = false) :
    Yields (u.dimensions - v.dimensions) (u.div v) :=
  (div_combines u v).yields hu hv

-- What becomes of a power of a unit without an offset.
inductive Powers (u : BaseForm α) (q : Rat) : Except Error (BaseForm α) → Prop
  | fault (h : Scalar.power u.factor q = .error f) : Powers u q (.error (.arithmetic f))
  | tooLong : Powers u q (.error .integerTooLong)
  | notReal (h : Scalar.power u.factor q = .ok none) : Powers u q (.error (.arithmetic .notReal))
  | power (h : Scalar.power u.factor q = .ok (some y)) (offset : α) (symbol : String) :
    Powers u q (.ok ⟨u.dimensions.scale q, y, offset, symbol, .composed⟩)

theorem pow_powers (hu : u.isAffine = false) (q : Rat) : Powers u q (u.pow q) := by
  have hp := pow_raises u q
  generalize u.pow q = y at hp
  cases hp
  case misused ha _ => exact absurd ha (Bool.not_eq_true _ ▸ hu)
  case fault h => exact .fault h
  case tooLong => exact .tooLong
  case notReal h => exact .notReal h
  case raised h symbol => exact .power h _ symbol

theorem pow_yields (hu : u.isAffine = false) (q : Rat) : Yields (u.dimensions.scale q) (u.pow q) := by
  have hp := pow_powers hu q
  generalize u.pow q = y at hp
  cases hp <;> rfl

-- Where the power of the factor is there, no arithmetic fails.
theorem pow_ne_arithmetic {q : Rat} (hu : u.isAffine = false) (h : (Scalar.power u.factor q).toOption.join.isSome)
    (f : ArithmeticFault) : u.pow q ≠ .error (.arithmetic f) := by
  intro hf
  have hp := pow_powers hu q
  rw [hf] at hp
  cases hp
  case fault hp | notReal hp =>
    rw [hp] at h
    contradiction

end BaseForm

namespace Registry

open BaseForm

variable {r : Registry α}

-- What a text of linear units reduces to.
theorem concur_of_parse {operation : Except Error (BaseForm α)} (ho : Yields d operation)
    (hp : parse text = .ok e ∨ ∃ k, parse text = .error (.numeralTooLong k))
    (hl : ∀ c ∈ e.components, r.IsLinear c.1) (hd : ∀ i, d.get i = r.share i e.components) :
    Concur (r.reduceText text) operation := by
  have hoperation {x : Error} (h : operation = .error x) : x.isNumerical := by
    rw [h] at ho
    exact ho
  rw [reduceText]
  cases hp
  case inr hp =>
    obtain ⟨k, hk⟩ := hp
    rw [hk]
    constructor
    case reduction_error =>
      intro x hx
      cases hx
      rfl
    case operation_error => exact hoperation
    all_goals
      intros
      contradiction
  case inl hp =>
    rw [hp]
    change Concur (r.reduce e) operation
    have hlinear := reduce_linear hl
    constructor
    case reduction_error =>
      intro x hx
      rw [hx] at hlinear
      rcases hlinear with rfl | ⟨f, rfl⟩ <;> rfl
    case operation_error => exact hoperation
    case offset_eq =>
      intro w hw
      rwa [hw] at hlinear
    case dimensions_eq =>
      intro w w' hw hw'
      rw [hw'] at ho
      ext i
      rw [reduce_share hw, ho, hd]

-- Texts that reduce to linear units, with what was read of them.
theorem exists_of_reduceText (h : r.reduceText text = .ok u) (hu : u.isAffine = false) :
    ∃ e, parse text = .ok e ∧ (∀ c ∈ e.components, r.IsLinear c.1) ∧
      ∀ i, u.dimensions.get i = r.share i e.components := by
  obtain ⟨e, hp, h⟩ := exists_of_bind_ok h
  exact ⟨e, hp, isLinear_of_reduce h hu, reduce_share h⟩

theorem toString_string (s : String) : toString s = s :=
  rfl

theorem product_toList (a b : String) : s!"({a})*({b})" = String.ofList (group a.toList ++ '*' :: group b.toList) := by
  rw [← String.toList_inj, String.toList_ofList]
  simp [toString_string, group]

theorem quotient_toList (a b : String) : s!"({a})/({b})" = String.ofList (group a.toList ++ '/' :: group b.toList) := by
  rw [← String.toList_inj, String.toList_ofList]
  simp [toString_string, group]

theorem power_toList (a : String) (m n : Int) :
    s!"({a})^({m}/{n})" = String.ofList (group a.toList ++ '^' :: group (quotientText m n)) := by
  rw [← String.toList_inj, String.toList_ofList]
  simp [toString_string, group, quotientText]

theorem reduceText_algebra (ha : r.reduceText a = .ok u) (hb : r.reduceText b = .ok v)
    (hab : a.toList.all Text.isBlank = false) (hbb : b.toList.all Text.isBlank = false)
    (hu : u.isAffine = false) (hv : v.isAffine = false) :
    Concur (r.reduceText s!"({a})*({b})") (u.mul v) ∧
      Concur (r.reduceText s!"({a})/({b})") (u.div v) ∧
      ∀ m n : Int, n ≠ 0 → Concur (r.reduceText s!"({a})^({m}/{n})") (u.pow (m / n)) := by
  obtain ⟨e, hp, hl, hd⟩ := exists_of_reduceText ha hu
  obtain ⟨e', hp', hl', hd'⟩ := exists_of_reduceText hb hv
  rw [parse, ← String.ofList_toList (s := a)] at hp
  rw [parse, ← String.ofList_toList (s := b)] at hp'
  refine ⟨?product, ?quotient, ?power⟩
  case product =>
    have hread := parseWithin_times hp hp' hab hbb
    rw [← product_toList] at hread
    apply concur_of_parse (mul_yields hu hv) (.inl hread) (forall_times hl hl')
    intro i
    rw [Dimensions.get_add, hd, hd', share, share, share, weight_times]
  case quotient =>
    have hread := parseWithin_per hp hp' hab hbb
    rw [← quotient_toList] at hread
    apply concur_of_parse (div_yields hu hv) (.inl hread) (forall_per hl hl')
    intro i
    rw [Dimensions.get_sub, hd, hd', share, share, share, weight_per]
  case power =>
    intro m n hn
    have hread := parseWithin_toPower hp hab m hn
    rw [← power_toList] at hread
    apply concur_of_parse (pow_yields hu _) hread (forall_toPower hl _)
    intro i
    rw [Dimensions.get_scale, hd, share, share, weight_toPower]

-- A registry with two units.
def metreAndSecond : Registry Float where
  units := (∅ : UnitTable Float)
    |>.insert "m" ⟨.single .length, 1, 0, "m", .composed⟩
    |>.insert "s" ⟨.single .time, 1, 0, "s", .composed⟩
  version := 2
  frozen := false

theorem reduceText_algebra_speed :
    let r := metreAndSecond
    let (a, b, m, n) := ("m²", "1 / s", (-1 : Int), (2 : Int))
    ∃ u v, r.reduceText a = .ok u ∧ r.reduceText b = .ok v ∧ Concur (r.reduceText s!"({a})*({b})") (u.mul v) ∧
      Concur (r.reduceText s!"({a})/({b})") (u.div v) ∧ Concur (r.reduceText s!"({a})^({m}/{n})") (u.pow (m / n)) := by
  have hlinear : ∀ text ∈ ["m²", "1 / s"],
      (metreAndSecond.reduceText text).toOption.map (·.isAffine) = some false := by
    decide +kernel
  obtain ⟨u, hu, hlu⟩ := exists_of_toOption (hlinear "m²" (by decide))
  obtain ⟨v, hv, hlv⟩ := exists_of_toOption (hlinear "1 / s" (by decide))
  obtain ⟨hmul, hdiv, hpow⟩ := reduceText_algebra hu hv (by decide) (by decide) hlu hlv
  exact ⟨u, v, hu, hv, hmul, hdiv, hpow (-1) 2 (by decide)⟩

-- Nines over a power of ten, and a quotient with a longer numerator that makes ten of it.
def nearOne : Int × Int :=
  ((10 ^ 4299 - 1 : Nat), (10 ^ 4299 : Nat))

def nearTen : Int × Int :=
  ((10 ^ 4300 : Nat), (10 ^ 4299 - 1 : Nat))

theorem digitCount_pow (k : Nat) : digitCount (10 ^ k : Nat) = k + 1 := by
  rw [digitCount, Int.natAbs_natCast, length_toDigits_pow]

theorem digitCount_pow_pred (k : Nat) : digitCount (10 ^ (k + 1) - 1 : Nat) = k + 1 := by
  rw [digitCount, Int.natAbs_natCast, toDigits_pow_pred, List.length_replicate]

theorem parse_nearOne {text : String} (h : text.toList = ['m']) :
    parse s!"({text})^({nearOne.1}/{nearOne.2})" = .ok (toPower (nearOne.1 / nearOne.2) ⟨[("m", 1)]⟩) := by
  have hp : parseWithin .standard (String.ofList ['m']) = .ok ⟨[("m", 1)]⟩ := by decide +kernel
  have hm : DigitBound.standard.admits (digitCount nearOne.1) := by
    rw [nearOne, digitCount_pow_pred]
    decide
  have hn : DigitBound.standard.admits (digitCount nearOne.2) := by
    rw [nearOne, digitCount_pow]
    decide
  rw [power_toList, h]
  exact parseWithin_toPower_ok hp (by decide) hm hn (by decide +kernel)

-- The power of a text may have an exponent that is too long to be read, even where that of the result is not.
theorem reduceText_power_tooLong :
    let r := metreAndSecond
    let m := "m"
    let a := s!"({m})^({nearOne.1}/{nearOne.2})"
    let q : Rat := nearTen.1 / nearTen.2
    ∃ u, r.reduceText a = .ok u ∧ u.isAffine = false ∧ u.dimensions.scale q = .scale 10 (.single .length) ∧
      (∀ f, u.pow q ≠ .error (.arithmetic f)) ∧
      ∃ k, r.reduceText s!"({a})^({nearTen.1}/{nearTen.2})" = .error (.numeralTooLong k) := by
  intro r m a q
  have hp : parse a = .ok (toPower (nearOne.1 / nearOne.2) ⟨[("m", 1)]⟩) :=
    parse_nearOne (by decide : "m".toList = ['m'])
  have hreduced : (r.reduceText a).toOption.map (fun u => (u.isAffine,
      decide (u.dimensions.scale q = .scale 10 (.single .length)), (Scalar.power u.factor q).toOption.join.isSome)) =
      some (false, true, true) := by
    rw [reduceText, hp]
    decide +kernel
  have hblank : a.toList.all Text.isBlank = false := by
    have ha : a = _ := power_toList "m" nearOne.1 nearOne.2
    rw [ha, String.toList_ofList]
    rfl
  have hlong : DigitBound.standard.admits (digitCount nearTen.1) = false := by
    rw [nearTen, digitCount_pow]
    decide
  have hread : ∃ k, parse s!"({a})^({nearTen.1}/{nearTen.2})" = .error (.numeralTooLong k) := by
    rw [parse, ← String.ofList_toList (s := a)] at hp
    rw [power_toList]
    exact parseWithin_toPower_tooLong hp hblank (by decide +kernel) (.inl hlong)
  obtain ⟨u, hu, hfacts⟩ := exists_of_toOption hreduced
  obtain ⟨k, hk⟩ := hread
  clear_value q
  simp only [Prod.mk.injEq, decide_eq_true_eq] at hfacts
  obtain ⟨hlinear, hdimensions, hpower⟩ := hfacts
  have hlast : r.reduceText s!"({a})^({nearTen.1}/{nearTen.2})" = .error (.numeralTooLong k) := by
    rw [reduceText, hk]
    rfl
  exact ⟨u, hu, hlinear, hdimensions, pow_ne_arithmetic hlinear hpower, k, hlast⟩

end Registry

end Metrology
