import Metrology.Proofs.Registry.Algebra

/-!
Which products reduce. All of the units have to be known, and an absolute scale has to stand alone with exponent one;
a product that does not reduce fails for the first of its names that is unknown or stands for an absolute scale. Beside
that, a reduction fails for its numbers only.
-/

namespace Metrology.Registry

open Expression

variable {α : Type} [Scalar α] {r : Registry α} {e : Expression} {u v : BaseForm α} {x : Error} {n : String}

-- All names of a product are known, and none stands for an absolute scale unless it is the whole product.
structure IsReducible (r : Registry α) (e : Expression) : Prop where
  known : ∀ c ∈ e.components, r.contains c.1
  linear : (∀ c ∈ e.components, ∀ u, r.find? c.1 = some u → u.isAffine = false) ∨ ∃ n, e.components = [(n, 1)]

-- What is wrong with a term that is no power of a linear unit.
def refusal (r : Registry α) (c : Component) : Error :=
  match r.find? c.1 with
  | none => .unknownUnit c.1
  | some _ => .affineMisuse c.1 c.2 (if c.2 = 1 then .compound else .exponent)

-- The first term of a product, in the order of names, that is no power of a linear unit.
structure Obstructs (r : Registry α) (e : Expression) (c : Component) : Prop where
  mem : c ∈ e.components
  nonlinear : ¬r.IsLinear c.1
  first : ∀ c' ∈ e.components, c'.1 < c.1 → r.IsLinear c'.1

-- What is expected of the reduction of a product. An offset that is zero is always written in the same way.
structure Folds (r : Registry α) (e : Expression) (result : Except Error (BaseForm α)) : Prop where
  isOk_iff : result.isOk ↔ r.IsReducible e
  dimensions_eq {u : BaseForm α} : result = .ok u → ∀ d, u.dimensions.get d = r.share d e.components
  offset_alone {u v : BaseForm α} {n : String} : result = .ok u → e.components = [(n, 1)] → r.find? n = some v →
    u.offset = if v.isAffine then v.offset else 0
  offset_eq {u : BaseForm α} : result = .ok u → (∀ n, e.components ≠ [(n, 1)]) → u.offset = 0
  refused {x : Error} : result = .error x → ∃ c, r.Obstructs e c ∧ x = r.refusal c

theorem isSingle_iff : e.isSingle ↔ ∃ n, e.components = [(n, 1)] := by
  constructor
  case mp => exact exists_of_isSingle
  case mpr =>
    rintro ⟨n, hn⟩
    simp [isSingle, hn]

theorem isReducible_iff : r.IsReducible e ↔ ∀ c ∈ e.components, ∃ u, r.find? c.1 = some u ∧ (u.isAffine → e.isSingle) := by
  constructor
  case mp =>
    intro h c hc
    obtain ⟨u, hu⟩ := Option.isSome_iff_exists.1 (h.known c hc)
    refine ⟨u, hu, ?_⟩
    intro ha
    cases h.linear
    case inl hl => simp [hl c hc u hu] at ha
    case inr hs => exact isSingle_iff.2 hs
  case mpr =>
    intro h
    constructor
    case known =>
      intro c hc
      obtain ⟨u, hu, -⟩ := h c hc
      simp [contains, hu]
    case linear =>
      rw [← isSingle_iff]
      cases hs : e.isSingle
      case true => exact .inr rfl
      case false =>
        refine .inl ?_
        intro c hc u hu
        obtain ⟨v, hv, hl⟩ := h c hc
        rw [hu, Option.some.injEq] at hv
        subst hv
        simpa [hs] using hl

theorem isReducible_of_ok (h : r.reduce e = .ok u) : r.IsReducible e := by
  obtain ⟨t, ht, -⟩ := reduce_ok h
  exact isReducible_iff.2 (foldlM_addTerm_ok ht).1

-- The terms in front of one that fails are linear: an absolute scale is let through only where nothing follows it.
theorem isLinear_of_before {before after : List Component} {c : Component} {t : Total α}
    (he : e.components = before ++ c :: after) (h : before.foldlM (r.addTerm e.isSingle) .start = .ok t) :
    ∀ c' ∈ before, r.IsLinear c'.1 := by
  intro c' hc'
  obtain ⟨u, hu, hs⟩ := (foldlM_addTerm_ok h).1 c' hc'
  refine ⟨u, hu, ?_⟩
  by_contra ha
  obtain ⟨n, hn⟩ := exists_of_isSingle (hs (by simpa using ha))
  have hlength := congrArg List.length (he.symm.trans hn)
  have hpos := List.length_pos_of_mem hc'
  simp only [List.length_append, List.length_cons, List.length_nil] at hlength
  omega

theorem obstructs_of_before {before after : List Component} {c : Component} (hc : e.IsCanonical)
    (he : e.components = before ++ c :: after) (hb : ∀ c' ∈ before, r.IsLinear c'.1) (hn : ¬r.IsLinear c.1) :
    r.Obstructs e c := by
  have hsorted : IsSorted (before ++ c :: after) := he ▸ hc.sorted
  constructor
  case mem => simp [he]
  case nonlinear => exact hn
  case first =>
    intro c' hc' hlt
    have hafter := (List.pairwise_cons.1 (List.pairwise_append.1 hsorted).2.1).1
    rw [he, List.mem_append, List.mem_cons] at hc'
    rcases hc' with hc' | rfl | hc'
    case inl => exact hb c' hc'
    case inr.inl => exact absurd hlt Std.lt_irrefl
    case inr.inr => exact absurd (String.lt_trans hlt (hafter c' hc')) Std.lt_irrefl

-- How a reduction can fail.
inductive Fails (r : Registry α) (e : Expression) : Error → Prop
  | fault (f : ArithmeticFault) : Fails r e (.arithmetic f)
  | tooLong : Fails r e .integerTooLong
  | refused (c : Component) (hc : r.Obstructs e c) (h : ¬r.IsReducible e) : Fails r e (r.refusal c)

theorem fails_of_reduce (hc : e.IsCanonical) (h : r.reduce e = .error x) : r.Fails e x := by
  rw [reduce_eq] at h
  rcases bind_eq_error h with h | ⟨t, -, h⟩
  case inr =>
    have hf := finish_finishes e t
    rw [h] at hf
    cases hf
    case tooLong => exact .tooLong
    case notReal => exact .fault _
  case inl =>
    obtain ⟨before, c, after, t, he, hbefore, ha⟩ := foldlM_addTerm_first h
    have hb := isLinear_of_before he hbefore
    have hmem : c ∈ e.components := by simp [he]
    clear h
    cases ha
    case fault => exact .fault _
    case unknown hn =>
      have hlinear : ¬r.IsLinear c.1 := by simp [IsLinear, hn]
      have hreducible : ¬r.IsReducible e := fun hr => by simpa [contains, hn] using hr.known c hmem
      have hrefusal : r.refusal c = .unknownUnit c.1 := by rw [refusal, hn]
      exact hrefusal ▸ .refused c (obstructs_of_before hc he hb hlinear) hreducible
    case misused u hu ha hs =>
      have hlinear : ¬r.IsLinear c.1 := by simp [IsLinear, hu, ha]
      have hreducible : ¬r.IsReducible e := by
        intro hr
        obtain ⟨v, hv, hl⟩ := isReducible_iff.1 hr c hmem
        simp_all
      have hrefusal : r.refusal c = .affineMisuse c.1 c.2 (if c.2 = 1 then .compound else .exponent) := by
        rw [refusal, hu]
      exact hrefusal ▸ .refused c (obstructs_of_before hc he hb hlinear) hreducible

-- A unit alone keeps its offset.
theorem offset_of_alone (h : r.reduce e = .ok u) (he : e.components = [(n, 1)]) (hv : r.find? n = some v) :
    u.offset = if v.isAffine then v.offset else 0 := by
  obtain ⟨t, ht, -, ho⟩ := reduce_ok h
  have ha := addTerm_adds (r := r) e.isSingle .start n 1
  rw [he, List.foldlM_cons] at ht
  generalize r.addTerm e.isSingle .start (n, 1) = y at ht ha
  cases ha
  case unknown | fault | misused => contradiction
  case added w p hw _ _ =>
    rw [hv, Option.some.injEq] at hw
    subst hw
    cases ht
    exact ho

theorem offset_of_product (h : r.reduce e = .ok u) (he : ∀ n, e.components ≠ [(n, 1)]) : u.offset = 0 := by
  obtain ⟨t, ht, -, ho⟩ := reduce_ok h
  have hlinear : ∀ c ∈ e.components, r.IsLinear c.1 := by
    intro c hc
    obtain ⟨v, hv, hs⟩ := (foldlM_addTerm_ok ht).1 c hc
    refine ⟨v, hv, Bool.eq_false_iff.2 ?_⟩
    intro ha
    obtain ⟨n, hn⟩ := exists_of_isSingle (hs ha)
    exact he n hn
  rw [ho, foldlM_addTerm_offset hlinear ht]
  rfl

-- A product whose numbers do no harm reduces exactly if its units allow that, to the sum of its terms; otherwise the
-- first term that stands in the way is named.
theorem reduce_folds (r : Registry α) (cs : List Component)
    (hf : ∀ f, r.reduce (ofComponents cs) ≠ .error (.arithmetic f))
    (hw : r.reduce (ofComponents cs) ≠ .error .integerTooLong) :
    Folds r (ofComponents cs) (r.reduce (ofComponents cs)) where
  isOk_iff := by
    cases h : r.reduce (ofComponents cs)
    case ok u => exact ⟨fun _ => isReducible_of_ok h, fun _ => rfl⟩
    case error x =>
      refine ⟨Bool.noConfusion, ?_⟩
      intro hr
      cases fails_of_reduce (isCanonical_ofComponents cs) h
      case fault f => exact absurd h (hf f)
      case tooLong => exact absurd h hw
      case refused hn => exact absurd hr hn
  dimensions_eq h := reduce_share h
  offset_alone h he hv := offset_of_alone h he hv
  offset_eq h he := offset_of_product h he
  refused {x} h := by
    cases fails_of_reduce (isCanonical_ofComponents cs) h
    case fault f => exact absurd h (hf f)
    case tooLong => exact absurd h hw
    case refused c hc _ => exact ⟨c, hc, rfl⟩

-- A registry with a unit of temperature and an absolute scale.
def kelvinAndCelsius : Registry Float where
  units := (∅ : UnitTable Float)
    |>.insert "K" ⟨.single .temperature, 1, 0, "K", .composed⟩
    |>.insert "degC" ⟨.single .temperature, 1, 273.15, "degC", .composed⟩
  version := 2
  frozen := false

-- A quotient with an unknown unit and an absolute scale: the scale comes first.
theorem reduce_folds_celsius :
    let e := ofComponents [("rod", 1), ("K", 1), ("degC", -1)]
    let result := kelvinAndCelsius.reduce e
    result = .error (.affineMisuse "degC" (-1) .exponent) ∧ (∀ f, result ≠ .error (.arithmetic f)) ∧
      result ≠ .error .integerTooLong ∧ Folds kelvinAndCelsius e result := by
  intro e result
  have h : result = .error (.affineMisuse "degC" (-1) .exponent) := by rfl
  have hf (f : ArithmeticFault) : result ≠ .error (.arithmetic f) := by simp [h]
  have hw : result ≠ .error .integerTooLong := by simp [h]
  exact ⟨h, hf, hw, reduce_folds kelvinAndCelsius [("rod", 1), ("K", 1), ("degC", -1)] hf hw⟩

theorem reduce_eq_tooLong (hw : Error.requireWritable e.exponents = .error .integerTooLong)
    (ht : (e.components.foldlM (r.addTerm e.isSingle) .start).isOk) : r.reduce e = .error .integerTooLong := by
  rw [reduce_eq]
  cases hfold : e.components.foldlM (r.addTerm e.isSingle) .start
  case error => simp [hfold, Except.isOk, Except.toBool] at ht
  case ok t =>
    rw [Except.bind, finish, hw]
    rfl

theorem reduce_tooLong (hk : r.IsReducible e) (hw : Error.requireWritable e.exponents = .error .integerTooLong)
    (ht : (e.components.foldlM (r.addTerm e.isSingle) .start).isOk) :
    (∀ f, r.reduce e ≠ .error (.arithmetic f)) ∧ ¬Folds r e (r.reduce e) := by
  rw [reduce_eq_tooLong hw ht]
  exact ⟨by simp, fun hfolds => Bool.false_ne_true (hfolds.isOk_iff.2 hk)⟩

-- A power of a known unit that is no absolute scale, with an exponent that is too long to be written.
theorem reduce_tooLong_not_folds :
    let e := ofComponents [("K", mkRat 1 (Nat.pow 10 5000))]
    (∀ f, kelvinAndCelsius.reduce e ≠ .error (.arithmetic f)) ∧ ¬Folds kelvinAndCelsius e (kelvinAndCelsius.reduce e) := by
  intro e
  have he : e.components.map (·.1) = ["K"] := by decide +kernel
  refine reduce_tooLong ?known (if_neg (by decide +kernel)) (by decide +kernel)
  case known =>
    rw [isReducible_iff]
    intro c hc
    have hname : c.1 = "K" := List.mem_singleton.1 (he ▸ List.mem_map_of_mem hc)
    rw [hname]
    exact ⟨⟨.single .temperature, 1, 0, "K", .composed⟩, rfl, fun ha => absurd ha (by decide +kernel)⟩

end Metrology.Registry
