import Metrology.Proofs.Registry.Changes
import Metrology.Proofs.Registry.Refusals

/-!
Replacing a unit by its definition. An expression over a registry with a new unit is worth what it is worth over the
registry before, once the unit has been replaced by the expression that defines it; the unit may also have had another
meaning before, which the definition uses.
-/

namespace Metrology

namespace Expression

variable {n : String} {x e : Expression} {w w' : String → Rat} {P : String → Prop}

-- The terms that come of a term when a name is replaced.
def substituted (n : String) (x : Expression) (c : Component) : List Component :=
  if c.1 = n then raise c.2 x.components else [c]

-- An expression with the powers of a name replaced by those of another expression.
def substitute (n : String) (x e : Expression) : Expression :=
  ofComponents (e.components.flatMap (substituted n x))

-- The sum is that of the expression as it was, with the sum of the other expression as the weight of the name.
theorem weight_substitute (hn : w' n = weight w x.components) (hw : ∀ m, m ≠ n → w' m = w m) :
    weight w (substitute n x e).components = weight w' e.components := by
  rw [substitute, weight_ofComponents]
  induction e.components
  case nil => rfl
  case cons c cs hi =>
    rw [List.flatMap_cons, weight_append, hi, substituted, weight]
    split
    case isTrue h => rw [weight_raise, h, hn]
    case isFalse h => rw [weight, weight, Rat.add_zero, hw c.1 h]

theorem forall_substitute (hx : ∀ c ∈ x.components, P c.1) (he : ∀ c ∈ e.components, c.1 ≠ n → P c.1) :
    ∀ c ∈ (substitute n x e).components, P c.1 := by
  intro c hc
  obtain ⟨q, hq⟩ := exists_mem_of_mem_ofComponents hc
  obtain ⟨d, hd, hm⟩ := List.mem_flatMap.1 hq
  rw [substituted] at hm
  split at hm
  case isTrue => exact forall_raise hx d.2 (c.1, q) hm
  case isFalse h =>
    cases List.mem_singleton.1 hm
    exact he (c.1, q) hd h

-- Nothing happens to an expression without the name.
theorem substitute_of_forall_ne (hc : e.IsCanonical) (h : ∀ c ∈ e.components, c.1 ≠ n) : substitute n x e = e := by
  have hsame : e.components.flatMap (substituted n x) = e.components.flatMap ([·]) :=
    List.flatMap_congr fun c hm => if_neg (h c hm)
  rw [substitute, hsame, List.flatMap_singleton']
  exact (ofComponents_eq_iff hc).2 fun _ => rfl

end Expression

namespace Registry

open Expression

section Adoption

variable {α : Type} [Scalar α] {r r' : Registry α} {n m : String} {p e : Expression} {u v w : BaseForm α}

-- A registry with a unit that stands for an expression over another registry, and otherwise with the same units.
structure Adopts (r r' : Registry α) (n : String) (p : Expression) : Prop where
  find?_other {m : String} : m ≠ n → r'.find? m = r.find? m
  linear : ∀ c ∈ p.components, r.IsLinear c.1
  unit_linear : r'.IsLinear n
  dimensions_eq (d : BaseDimension) : (r'.dimensionsOf n).get d = r.share d p.components

-- What is expected of an expression that should be worth as much as a form: it is, unless a power has no value or one
-- of the exponents is too long to be written.
def IsWorth (w : BaseForm α) (e : Expression) : Except Error (BaseForm α) → Prop
  | .ok w' => w'.dimensions = w.dimensions ∧ w'.offset = w.offset
  | .error y => (∃ f, y = .arithmetic f) ∨
      y = .integerTooLong ∧ ∃ q ∈ e.exponents, DigitBound.standard.admitsRat q = false

namespace Adopts

theorem share_substitute (h : Adopts r r' n p) (e : Expression) (d : BaseDimension) :
    r.share d (substitute n p e).components = r'.share d e.components := by
  apply weight_substitute (h.dimensions_eq d)
  intro m hm
  rw [dimensionsOf, dimensionsOf, h.find?_other hm]

theorem isLinear_substitute (h : Adopts r r' n p) (he : ∀ c ∈ e.components, r'.IsLinear c.1) :
    ∀ c ∈ (substitute n p e).components, r.IsLinear c.1 := by
  apply forall_substitute h.linear
  intro c hc hcn
  obtain ⟨u, hu, hl⟩ := he c hc
  exact ⟨u, h.find?_other hcn ▸ hu, hl⟩

-- The unit is linear, so where it occurs no absolute scale is the whole expression.
theorem isLinear_of_mem (h : Adopts r r' n p) (he : r'.reduce e = .ok w) (hn : ∃ c ∈ e.components, c.1 = n) :
    ∀ c ∈ e.components, r'.IsLinear c.1 := by
  have hr := isReducible_of_ok he
  cases hr.linear
  case inl hl =>
    intro c hc
    obtain ⟨u, hu⟩ := Option.isSome_iff_exists.1 (hr.known c hc)
    exact ⟨u, hu, hl c hc u hu⟩
  case inr hs =>
    obtain ⟨m, hm⟩ := hs
    obtain ⟨c, hc, rfl⟩ := hn
    rw [hm, List.mem_singleton] at hc
    subst hc
    intro c hc
    rw [hm, List.mem_singleton] at hc
    exact hc ▸ h.unit_linear

theorem isWorth_of_mem (h : Adopts r r' n p) (he : r'.reduce e = .ok w) (hn : ∃ c ∈ e.components, c.1 = n) :
    IsWorth w (substitute n p e) (r.reduce (substitute n p e)) := by
  have hterms := h.isLinear_of_mem he hn
  have hoffset := reduce_linear hterms
  have hreduced := reduce_linear (h.isLinear_substitute hterms)
  rw [he] at hoffset
  have hshare (d : BaseDimension) : r.share d (substitute n p e).components = w.dimensions.get d := by
    rw [h.share_substitute, reduce_share he]
  cases hx : r.reduce (substitute n p e)
  case ok w' =>
    rw [hx] at hreduced
    refine ⟨?_, hreduced.trans hoffset.symm⟩
    ext d
    rw [reduce_share hx, hshare]
  case error y =>
    rw [hx] at hreduced
    rcases hreduced with rfl | hf
    case inr => exact .inl hf
    case inl =>
      obtain ⟨q, hq, hlong⟩ := exists_of_reduce_tooLong hx
      refine .inr ⟨rfl, q, ?_, hlong⟩
      rcases hq with hq | ⟨d, rfl⟩
      case inl => exact hq
      case inr => simp [hshare, admitsRat_of_reduce he] at hlong

theorem isWorth (h : Adopts r r' n p) (hc : e.IsCanonical) (he : r'.reduce e = .ok w) :
    IsWorth w (substitute n p e) (r.reduce (substitute n p e)) := by
  by_cases hn : ∃ c ∈ e.components, c.1 = n
  case pos => exact h.isWorth_of_mem he hn
  case neg =>
    have hne : ∀ c ∈ e.components, c.1 ≠ n := fun c hc hcn => hn ⟨c, hc, hcn⟩
    have hsame : r'.reduce e = r.reduce e := reduce_congr fun c hc => h.find?_other (hne c hc)
    rw [substitute_of_forall_ne hc hne, ← hsame, he]
    exact ⟨rfl, rfl⟩

end Adopts

variable {meaning : Meaning α} {factor offset : Given α} {replace : Bool}

theorem newForm_of_define (h : (define n meaning factor offset replace r).result = .ok v) :
    newForm r n meaning factor offset replace = .ok v := by
  rw [(define_eq n meaning factor offset replace).1] at h
  obtain ⟨v', hv', h⟩ := exists_of_bind_ok h
  cases hl : meaning.requireLabel
  case error => simp [hl, Except.map] at h
  case ok =>
    rw [hl] at h
    cases h
    exact hv'

-- After a definition the name stands for its form, and the other names for what they did.
theorem find?_define (h : (define n meaning factor offset replace r).result = .ok v) (m : String) :
    (define n meaning factor offset replace r).state.find? m = if n = m then some v else r.find? m := by
  rw [(define_eq n meaning factor offset replace).2, newForm_of_define h]
  exact UnitTable.getElem?_insert r.units n m v

end Adoption

variable {r : Registry Float} {n x : String} {factor : Given Float} {replace : Bool} {u v w : BaseForm Float}
variable {p : Expression}

-- A unit that is defined without an offset by an expression of linear units is linear and has the dimensions of that.
theorem linear_of_newForm (hx : r.reduceText x = .ok u) (hl : u.isAffine = false)
    (h : newForm r n (.text x) factor (.scalar 0) replace = .ok v) :
    v.dimensions = u.dimensions ∧ v.isAffine = false := by
  obtain ⟨-, -, -, u', hbase, hform⟩ := newForm_ok h
  cases hx.symm.trans hbase
  have hoffset : u.offset = 0 := by
    obtain ⟨p, -, hu⟩ := exists_of_bind_ok hx
    have hlinear := reduce_linear (isLinear_of_reduce hu hl)
    rwa [hu] at hlinear
  obtain ⟨y, -, hform⟩ := exists_of_bind_ok hform
  obtain ⟨z, hz, hform⟩ := exists_of_bind_ok hform
  cases hform
  cases hz
  have hzero : Scalar.isZero ((0 : Float) + 0) = true := by decide +kernel
  refine ⟨rfl, ?_⟩
  simp only [BaseForm.isAffine, hoffset, hzero, Bool.not_true]

theorem adopts_of_define (hp : parse x = .ok p) (hu : r.reduce p = .ok u) (hl : u.isAffine = false)
    (hd : (define n (.text x) factor (.scalar 0) replace r).result = .ok v) :
    Adopts r (define n (.text x) factor (.scalar 0) replace r).state n p := by
  have hx : r.reduceText x = .ok u := by
    rw [reduceText, hp]
    exact hu
  obtain ⟨hdimensions, hlinear⟩ := linear_of_newForm hx hl (newForm_of_define hd)
  have hself := (find?_define hd n).trans (if_pos rfl)
  constructor
  case find?_other =>
    intro m hm
    exact (find?_define hd m).trans (if_neg (Ne.symm hm))
  case linear => exact isLinear_of_reduce hu hl
  case unit_linear => exact ⟨v, hself, hlinear⟩
  case dimensions_eq =>
    intro d
    rw [dimensionsOf, hself, Option.map_some, Option.getD_some, hdimensions, reduce_share hu]

-- In an expression that reduces after a definition, the new unit may be replaced by what it was defined by: that is
-- worth the same before the definition.
theorem reduce_substitute {cs : List Component} (hx : r.reduceText x = .ok u) (hl : u.isAffine = false)
    (hd : (define n (.text x) factor (.scalar 0) replace r).result = .ok v)
    (he : (define n (.text x) factor (.scalar 0) replace r).state.reduce (ofComponents cs) = .ok w) :
    ∃ p, parse x = .ok p ∧
      IsWorth w (substitute n p (ofComponents cs)) (r.reduce (substitute n p (ofComponents cs))) := by
  obtain ⟨p, hp, hu⟩ := exists_of_bind_ok hx
  exact ⟨p, hp, (adopts_of_define hp hu hl hd).isWorth (isCanonical_ofComponents cs) he⟩

-- The metre gets another meaning, which its old one is part of: its square is that of the quotient.
theorem reduce_substitute_metre :
    let o := define "m" (.text "m/s") (.scalar 1) (.scalar 0) true metreAndSecond
    let e := ofComponents [("m", 2), ("s", 1)]
    ∃ u v w p, metreAndSecond.reduceText "m/s" = .ok u ∧ u.isAffine = false ∧ o.result = .ok v ∧
      o.state.reduce e = .ok w ∧ parse "m/s" = .ok p ∧ (substitute "m" p e).components = [("m", 2), ("s", -1)] ∧
      IsWorth w (substitute "m" p e) (metreAndSecond.reduce (substitute "m" p e)) := by
  intro o e
  have hlinear : (metreAndSecond.reduceText "m/s").toOption.map (·.isAffine) = some false := by decide +kernel
  have hdefined : o.result.toOption.map (·.isAffine) = some false := by decide +kernel
  have hreduced : (o.state.reduce e).toOption.map (·.isAffine) = some false := by decide +kernel
  have hparts : (parse "m/s").toOption.map (fun p => (substitute "m" p e).components) = some [("m", 2), ("s", -1)] := by
    decide +kernel
  obtain ⟨u, hu, hl⟩ := exists_of_toOption hlinear
  obtain ⟨v, hv, -⟩ := exists_of_toOption hdefined
  obtain ⟨w, hw, -⟩ := exists_of_toOption hreduced
  obtain ⟨p, hp, hworth⟩ := reduce_substitute hu hl hv hw
  rw [hp] at hparts
  exact ⟨u, v, w, p, hu, hl, hv, hw, hp, Option.some.inj hparts, hworth⟩

-- A registry with a unit without dimensions.
def radianOnly : Registry Float where
  units := (∅ : UnitTable Float).insert "rad" ⟨0, 1, 0, "rad", .composed⟩
  version := 1
  frozen := false

-- An exponent that can be written, while its square is too long.
def tinyPower : Int × Int :=
  (1, (10 ^ 3000 : Nat))

theorem parse_tinyPower {text : String} (h : text.toList = "rad".toList) :
    parse s!"({text})^({tinyPower.1}/{tinyPower.2})" = .ok (toPower (tinyPower.1 / tinyPower.2) ⟨[("rad", 1)]⟩) := by
  have hp : parseWithin .standard (String.ofList "rad".toList) = .ok ⟨[("rad", 1)]⟩ := by decide +kernel
  have hn : DigitBound.standard.admits (digitCount tinyPower.2) := by
    rw [tinyPower, digitCount_pow]
    decide
  rw [power_toList, h]
  exact parseWithin_toPower_ok hp (by decide) (by decide +kernel) hn (by decide +kernel)

-- The powers of a new unit and of its definition may be short enough while the power of the power is too long.
theorem reduce_substitute_tooLong :
    let rad := "rad"
    let x := s!"({rad})^({tinyPower.1}/{tinyPower.2})"
    let o := define "turn" (.text x) (.scalar 1) (.scalar 0) false radianOnly
    let e := ofComponents [("turn", tinyPower.1 / tinyPower.2)]
    ∃ u v w p, radianOnly.reduceText x = .ok u ∧ u.isAffine = false ∧ o.result = .ok v ∧ o.state.reduce e = .ok w ∧
      parse x = .ok p ∧ radianOnly.reduce (substitute "turn" p e) = .error .integerTooLong := by
  intro rad x o e
  let p := toPower (tinyPower.1 / tinyPower.2) ⟨[("rad", 1)]⟩
  have hp : parse x = .ok p := parse_tinyPower rfl
  have hbase : Meaning.base radianOnly (.text x) = radianOnly.reduce p := by
    rw [Meaning.base, reduceText, hp]
    rfl
  obtain ⟨hresult, hstate⟩ := define_eq (r := radianOnly) "turn" (.text x) (.scalar 1) (.scalar 0) false
  rw [newForm, hbase] at hresult hstate
  have hlinear : (Meaning.base radianOnly (.text x)).toOption.map (·.isAffine) = some false := by
    rw [hbase]
    decide +kernel
  have hdefined : o.result.toOption.map (·.isAffine) = some false := by
    rw [hresult]
    decide +kernel
  have hreduced : (o.state.reduce e).toOption.map (·.isAffine) = some false := by
    rw [hstate]
    decide +kernel
  have hlong : radianOnly.reduce (substitute "turn" p e) = .error .integerTooLong :=
    reduce_eq_tooLong (if_neg (by decide +kernel)) (by decide +kernel)
  obtain ⟨u, hu, hl⟩ := exists_of_toOption hlinear
  obtain ⟨v, hv, -⟩ := exists_of_toOption hdefined
  obtain ⟨w, hw, -⟩ := exists_of_toOption hreduced
  exact ⟨u, v, w, p, hu, hl, hv, hw, hp, hlong⟩

end Registry

end Metrology
