import Metrology.Proofs.Expression.Canonical
import Metrology.Proofs.Expression.Grammar
import Metrology.Proofs.Registry.Entries

/-!
Reductions as sums. Each term of a product adds its share to the dimensions, in proportion to its exponent, and like
terms may be combined before or after.
-/

namespace Metrology

namespace Expression

variable {n : String} {q : Rat} {cs cs' : List Component}

-- The sum of the exponents of a product, each weighted by its name.
def weight (w : String → Rat) : List Component → Rat
  | [] => 0
  | (n, q) :: rest => w n * q + weight w rest

theorem weight_append (w : String → Rat) (cs cs' : List Component) :
    weight w (cs ++ cs') = weight w cs + weight w cs' := by
  induction cs
  case nil => exact (Rat.zero_add _).symm
  case cons c cs hi => rw [List.cons_append, weight, weight, hi, Rat.add_assoc]

theorem weight_raise (w : String → Rat) (q : Rat) (cs : List Component) :
    weight w (raise q cs) = weight w cs * q := by
  induction cs
  case nil => exact (Rat.zero_mul q).symm
  case cons c cs hi =>
    have hcons : raise q (c :: cs) = (c.1, c.2 * q) :: raise q cs := rfl
    rw [hcons, weight, weight, hi, Rat.add_mul, Rat.mul_assoc]

theorem weight_accumulate (w : String → Rat) (n : String) (q : Rat) (cs : List Component) :
    weight w (accumulate n q cs) = weight w cs + w n * q := by
  fun_induction accumulate n q cs
  case case1 => exact Rat.add_comm _ _
  case case2 s rest => rw [weight, weight, Rat.mul_add, Rat.add_assoc, Rat.add_assoc, Rat.add_comm (w n * q)]
  case case3 => rw [weight, Rat.add_comm]
  case case4 hi => rw [weight, weight, hi, Rat.add_assoc]

theorem weight_nonzero (w : String → Rat) (cs : List Component) :
    weight w (cs.filter (·.2 ≠ 0)) = weight w cs := by
  induction cs
  case nil => rfl
  case cons c cs hi =>
    rw [List.filter_cons]
    split
    case isTrue => rw [weight, weight, hi]
    case isFalse h =>
      have hc : c.2 = 0 := by simpa using h
      rw [weight, hi, hc, Rat.mul_zero, Rat.zero_add]

theorem weight_foldl (w : String → Rat) (start cs : List Component) :
    weight w (cs.foldl (fun sums (n, q) => accumulate n q sums) start) = weight w start + weight w cs := by
  induction cs generalizing start
  case nil => exact (Rat.add_zero _).symm
  case cons c cs hi => rw [List.foldl_cons, hi, weight_accumulate, weight, Rat.add_assoc]

-- Combining like terms does not change the sum.
theorem weight_ofComponents (w : String → Rat) (cs : List Component) :
    weight w (ofComponents cs).components = weight w cs := by
  rw [ofComponents, weight_nonzero, weight_foldl, weight, Rat.zero_add]

end Expression

namespace Registry

open Expression

variable {α : Type} [Scalar α]

-- One more term in a total: it fails for its name, for its power or for what it stands with, or it adds its share.
inductive Adds (r : Registry α) (single : Bool) (t : Total α) (n : String) (q : Rat) :
    Except Error (Total α) → Prop
  | unknown (h : r.find? n = none) : Adds r single t n q (.error (.unknownUnit n))
  | fault (h : r.find? n = some u) (hp : Scalar.power u.factor q = .error f) :
    Adds r single t n q (.error (.arithmetic f))
  | misused (h : r.find? n = some u) (ha : u.isAffine) (hs : single = false) :
    Adds r single t n q (.error (.affineMisuse n q (if q = 1 then .compound else .exponent)))
  | added (h : r.find? n = some u) (hp : Scalar.power u.factor q = .ok p) (hl : u.isAffine → single) :
    Adds r single t n q (.ok {
      factor := do return (← t.factor) * (← p)
      offset := if u.isAffine then u.offset else t.offset
      dimensions := t.dimensions + u.dimensions.scale q })

variable {r : Registry α} {single : Bool} {t t' : Total α} {e : Expression} {u : BaseForm α} {x : Error}
variable {cs : List Component}

-- A reduction looks at nothing but the units that are named.
theorem reduce_congr {r' : Registry α} (h : ∀ c ∈ e.components, r'.find? c.1 = r.find? c.1) :
    r'.reduce e = r.reduce e := by
  have hfold : e.components.foldlM (r'.addTerm e.isSingle) .start = e.components.foldlM (r.addTerm e.isSingle) .start := by
    apply foldlM_congr
    intro c hc t
    simp only [addTerm, lookup, h c hc]
  simp only [reduce, hfold]

theorem addTerm_adds (single : Bool) (t : Total α) (n : String) (q : Rat) :
    Adds r single t n q (r.addTerm single t (n, q)) := by
  simp only [addTerm, lookup]
  cases h : r.find? n
  case none => exact .unknown h
  case some u =>
    cases hp : Scalar.power u.factor q
    case error f =>
      simp only [bind, Except.bind, hp, Except.mapError]
      exact .fault h hp
    case ok p =>
      simp only [bind, Except.bind, hp, Except.mapError]
      split
      case isTrue ha => exact .misused h ha.1 (by simpa using ha.2)
      case isFalse ha => exact .added h hp (by simpa using ha)

-- The dimensions of a unit by its name.
def dimensionsOf (r : Registry α) (n : String) : Dimensions :=
  ((r.find? n).map (·.dimensions)).getD 0

def share (r : Registry α) (d : BaseDimension) (cs : List Component) : Rat :=
  weight (fun n => (r.dimensionsOf n).get d) cs

-- A name of a unit that may stand in any product.
def IsLinear (r : Registry α) (n : String) : Prop :=
  ∃ u, r.find? n = some u ∧ u.isAffine = false

theorem foldlM_addTerm_ok (h : cs.foldlM (r.addTerm single) t = .ok t') :
    (∀ c ∈ cs, ∃ u, r.find? c.1 = some u ∧ (u.isAffine → single)) ∧
      ∀ d, t'.dimensions.get d = t.dimensions.get d + r.share d cs := by
  induction cs generalizing t
  case nil =>
    cases h
    exact ⟨List.forall_mem_nil _, fun d => (Rat.add_zero _).symm⟩
  case cons c cs hi =>
    have ha := addTerm_adds (r := r) single t c.1 c.2
    rw [List.foldlM_cons] at h
    generalize r.addTerm single t (c.1, c.2) = y at h ha
    cases ha
    case unknown | fault | misused => contradiction
    case added u p hu hp hl =>
      obtain ⟨hc, hd⟩ := hi h
      refine ⟨List.forall_mem_cons.2 ⟨⟨u, hu, hl⟩, hc⟩, ?_⟩
      intro d
      have hshare : r.share d (c :: cs) = u.dimensions.get d * c.2 + r.share d cs := by
        rw [share, weight, dimensionsOf, hu]
        rfl
      rw [hd, hshare, ← Rat.add_assoc]
      simp

theorem foldlM_addTerm_share (h : cs.foldlM (r.addTerm single) .start = .ok t) (d : BaseDimension) :
    t.dimensions.get d = r.share d cs := by
  rw [(foldlM_addTerm_ok h).2, Total.start, Dimensions.get_zero, Rat.zero_add]

-- The first term that fails, behind terms that were added.
theorem foldlM_addTerm_first (h : cs.foldlM (r.addTerm single) t = .error x) :
    ∃ before c after t', cs = before ++ c :: after ∧ before.foldlM (r.addTerm single) t = .ok t' ∧
      Adds r single t' c.1 c.2 (.error x) := by
  obtain ⟨before, c, after, t', hcs, hbefore, hc⟩ := exists_of_foldlM_error h
  exact ⟨before, c, after, t', hcs, hbefore, hc ▸ addTerm_adds single t' c.1 c.2⟩

theorem foldlM_addTerm_error (h : cs.foldlM (r.addTerm single) t = .error x) :
    ∃ c ∈ cs, ∃ t, Adds r single t c.1 c.2 (.error x) := by
  obtain ⟨before, c, after, t', rfl, -, ha⟩ := foldlM_addTerm_first h
  exact ⟨c, List.mem_append_right _ List.mem_cons_self, t', ha⟩

-- The sum of linear units fails for the power of a factor only.
theorem foldlM_addTerm_linear (h : ∀ c ∈ cs, r.IsLinear c.1) (hx : cs.foldlM (r.addTerm single) t = .error x) :
    ∃ f, x = .arithmetic f := by
  obtain ⟨c, hc, t, ha⟩ := foldlM_addTerm_error hx
  obtain ⟨u, hu, hl⟩ := h c hc
  cases ha
  case unknown hn => simp [hu] at hn
  case fault f _ _ => exact ⟨f, rfl⟩
  case misused hu' ha _ =>
    rw [hu, Option.some.injEq] at hu'
    simp [← hu', hl] at ha

theorem foldlM_addTerm_offset (h : ∀ c ∈ cs, r.IsLinear c.1) (ht : cs.foldlM (r.addTerm single) t = .ok t') :
    t'.offset = t.offset := by
  refine foldlM_preserves (P := fun s => s.offset = t.offset) ht rfl ?_
  intro c hc s s' hs ho
  obtain ⟨u, hu, hl⟩ := h c hc
  have ha := addTerm_adds (r := r) single s c.1 c.2
  rw [hs] at ha
  cases ha
  case added u' p hu' _ _ =>
    rw [hu, Option.some.injEq] at hu'
    simp [← hu', hl, ho]

-- What becomes of the total of an expression: it has to be real, and what is written down must not be too long.
def finish (e : Expression) (t : Total α) : Except Error (BaseForm α) := do
  Error.requireWritable e.exponents
  let unit : BaseForm α := ⟨t.dimensions, ← BaseForm.realFactor t.factor, t.offset, e.render, .reduced⟩
  unit.requireSignature
  return unit

theorem reduce_eq (r : Registry α) (e : Expression) :
    r.reduce e = (e.components.foldlM (r.addTerm e.isSingle) .start).bind (finish e) :=
  rfl

inductive Finishes (e : Expression) (t : Total α) : Except Error (BaseForm α) → Prop
  | tooLong (q : Rat) (hq : q ∈ e.exponents ∨ q ∈ t.dimensions.toList) (h : DigitBound.standard.admitsRat q = false) :
    Finishes e t (.error .integerTooLong)
  | notReal (h : t.factor = none) : Finishes e t (.error (.arithmetic .notReal))
  | finished (h : t.factor = some y) : Finishes e t (.ok ⟨t.dimensions, y, t.offset, e.render, .reduced⟩)

omit [Scalar α] in
theorem finish_finishes (e : Expression) (t : Total α) : Finishes e t (finish e t) := by
  rw [finish]
  cases requireWritable_cases e.exponents
  case inr h =>
    obtain ⟨q, hq, hlong⟩ := exists_of_requireWritable h
    exact h ▸ .tooLong q (.inl hq) hlong
  case inl h =>
    rw [h]
    cases hf : t.factor
    case none => exact .notReal hf
    case some y =>
      cases requireWritable_cases t.dimensions.toList
      case inl hd =>
        simp only [bind, Except.bind, BaseForm.realFactor, BaseForm.requireSignature, hd]
        exact .finished hf
      case inr hd =>
        obtain ⟨q, hq, hlong⟩ := exists_of_requireWritable hd
        simp only [bind, Except.bind, BaseForm.realFactor, BaseForm.requireSignature, hd]
        exact .tooLong q (.inr hq) hlong

theorem exists_of_isSingle (h : e.isSingle) : ∃ n, e.components = [(n, 1)] := by
  rw [isSingle] at h
  split at h
  case h_1 n q hc =>
    have hq : q = 1 := by simpa using h
    exact ⟨n, hq ▸ hc⟩
  case h_2 => contradiction

theorem reduce_ok (h : r.reduce e = .ok u) : ∃ t, e.components.foldlM (r.addTerm e.isSingle) .start = .ok t ∧
    u.dimensions = t.dimensions ∧ u.offset = t.offset := by
  rw [reduce_eq] at h
  obtain ⟨t, ht, hu⟩ := exists_of_bind_ok h
  have hf := finish_finishes e t
  rw [hu] at hf
  cases hf
  exact ⟨t, ht, rfl, rfl⟩

theorem reduce_share (h : r.reduce e = .ok u) (d : BaseDimension) : u.dimensions.get d = r.share d e.components := by
  obtain ⟨t, ht, hd, -⟩ := reduce_ok h
  rw [hd, foldlM_addTerm_share ht]

-- Reductions that succeed have been written down.
theorem admitsRat_of_reduce (h : r.reduce e = .ok u) (d : BaseDimension) :
    DigitBound.standard.admitsRat (u.dimensions.get d) := by
  rw [reduce_eq] at h
  obtain ⟨t, -, h⟩ := exists_of_bind_ok h
  obtain ⟨_, -, h⟩ := exists_of_bind_ok h
  obtain ⟨y, -, h⟩ := exists_of_bind_ok h
  obtain ⟨_, hw, h⟩ := exists_of_bind_ok h
  cases h
  exact admitsRat_of_requireWritable hw (List.mem_map_of_mem (BaseDimension.mem_all d))

-- What is too long in a reduction is an exponent, given or summed up.
theorem exists_of_reduce_tooLong (h : r.reduce e = .error .integerTooLong) :
    ∃ q, (q ∈ e.exponents ∨ ∃ d, q = r.share d e.components) ∧ DigitBound.standard.admitsRat q = false := by
  rw [reduce_eq] at h
  rcases bind_eq_error h with ht | ⟨t, ht, hf⟩
  case inl =>
    obtain ⟨c, -, t, ha⟩ := foldlM_addTerm_error ht
    cases ha
  case inr =>
    have hfinishes := finish_finishes e t
    rw [hf] at hfinishes
    cases hfinishes
    case tooLong q hq hlong =>
      refine ⟨q, hq.imp_right ?_, hlong⟩
      intro hd
      obtain ⟨d, -, rfl⟩ := List.mem_map.1 hd
      exact ⟨d, foldlM_addTerm_share ht d⟩

-- An expression that reduces to no absolute scale has none in it.
theorem isLinear_of_reduce (h : r.reduce e = .ok u) (hu : u.isAffine = false) :
    ∀ c ∈ e.components, r.IsLinear c.1 := by
  obtain ⟨t, ht, -, ho⟩ := reduce_ok h
  obtain ⟨hterms, -⟩ := foldlM_addTerm_ok ht
  intro c hc
  obtain ⟨v, hv, hs⟩ := hterms c hc
  cases ha : v.isAffine
  case false => exact ⟨v, hv, ha⟩
  case true =>
    -- the scale stands alone, so its offset is that of the whole
    obtain ⟨n, hn⟩ := exists_of_isSingle (hs ha)
    rw [hn, List.mem_singleton] at hc
    subst hc
    have hadds := addTerm_adds (r := r) e.isSingle .start n 1
    rw [hn, List.foldlM_cons] at ht
    generalize r.addTerm e.isSingle .start (n, 1) = y at ht hadds
    cases hadds
    case unknown | fault | misused => contradiction
    case added v' p hv' _ _ =>
      rw [hv, Option.some.injEq] at hv'
      subst hv'
      cases ht
      simp [BaseForm.isAffine, ho] at hu ha
      simp_all

-- An expression of linear units reduces to a linear unit, unless a power has no value or an integer is too long.
theorem reduce_linear (h : ∀ c ∈ e.components, r.IsLinear c.1) :
    match r.reduce e with
    | .ok u => u.offset = 0
    | .error x => x = .integerTooLong ∨ ∃ f, x = .arithmetic f := by
  rw [reduce_eq]
  cases ht : e.components.foldlM (r.addTerm e.isSingle) .start
  case error x => exact .inr (foldlM_addTerm_linear h ht)
  case ok t =>
    rw [Except.bind]
    have ho := foldlM_addTerm_offset h ht
    have hf := finish_finishes e t
    generalize finish e t = y at hf
    cases hf
    case tooLong => exact .inl rfl
    case notReal => exact .inr ⟨_, rfl⟩
    case finished => exact ho

end Registry

end Metrology
