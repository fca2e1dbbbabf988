import Metrology.Proofs.Dimension.Signature
import Metrology.Proofs.Expression.Regrouping
import Metrology.Proofs.Fallible
import Metrology.Scalar.Exact

/-!
Two ways to write a product of base units: as the signature of its dimensions and as an expression over their symbols.
Both fail for the same exponents, and otherwise they give the same text.
-/

namespace Metrology

-- The text of an expression, if its integers are not too long to be written.
def Expression.written (e : Expression) : Except Error String := do
  Error.requireWritable e.exponents
  return e.render

theorem requireWritable_perm {numbers numbers' : List Rat} (h : numbers.Perm numbers') :
    Error.requireWritable numbers = Error.requireWritable numbers' := by
  rw [Error.requireWritable, Error.requireWritable, h.all_eq]

namespace Dimensions

open Expression

variable {d : BaseDimension} {r : Rat} {terms : List (BaseDimension × Rat)}

-- The exponents of dimensions as numbers that a caller gives.
def given (terms : List (BaseDimension × Rat)) : List (BaseDimension × Given Rat) :=
  terms.map fun (d, r) => (d, .scalar r)

-- The powers of base units that the exponents of dimensions stand for.
def powers (terms : List (BaseDimension × Rat)) : List Component :=
  terms.map fun (d, r) => (d.symbol, r)

def nonzero (terms : List (BaseDimension × Rat)) : List (BaseDimension × Rat) :=
  terms.filter (·.2 ≠ 0)

-- No dimension has two exponents.
def IsMapping (terms : List (BaseDimension × Rat)) : Prop :=
  (terms.map (·.1)).Nodup

theorem isMapping_nonzero (h : IsMapping terms) : IsMapping (nonzero terms) :=
  h.sublist (List.filter_sublist.map _)

theorem IsMapping.lookup_iff (h : IsMapping terms) : terms.lookup d = some r ↔ (d, r) ∈ terms := by
  rw [List.lookup_eq_some_iff]
  constructor
  case mp =>
    rintro ⟨before, after, hsplit, -⟩
    exact hsplit ▸ List.mem_append_right _ List.mem_cons_self
  case mpr =>
    intro hm
    obtain ⟨before, after, hsplit⟩ := List.append_of_mem hm
    rw [IsMapping, hsplit, List.map_append, List.map_cons, List.nodup_append] at h
    refine ⟨before, after, hsplit, ?_⟩
    intro p hp
    have hne : p.1 ≠ d := h.2.2 _ (List.mem_map_of_mem hp) d List.mem_cons_self
    simpa using hne.symm

-- Putting the dimensions in order loses none of them.
theorem IsMapping.ordered_perm (h : IsMapping terms) : (ordered terms).Perm terms := by
  have hordered : (ordered terms).Nodup := by
    refine (List.pairwise_map.1 (isSorted_product terms)).imp ?_
    intro s t hlt he
    exact Std.lt_irrefl (he ▸ hlt)
  rw [List.perm_ext_iff_of_nodup hordered (List.Nodup.of_map _ h)]
  rintro ⟨d, r⟩
  rw [mem_ordered_iff, h.lookup_iff]

-- A zero adds nothing to a sum.
theorem exponentOf_powers_nonzero (n : String) (terms : List (BaseDimension × Rat)) :
    exponentOf n (powers (nonzero terms)) = exponentOf n (powers terms) := by
  induction terms
  case nil => rfl
  case cons t rest hi =>
    by_cases h0 : t.2 = 0
    case pos =>
      have hdrop : nonzero (t :: rest) = nonzero rest := List.filter_cons_of_neg (by simp [h0])
      rw [hdrop, hi, powers, powers, List.map_cons, exponentOf, h0, ite_self, Rat.zero_add]
    case neg =>
      have hkeep : nonzero (t :: rest) = t :: nonzero rest := List.filter_cons_of_pos (by simp [h0])
      rw [powers] at hi
      rw [hkeep, powers, powers, List.map_cons, List.map_cons, exponentOf, exponentOf, hi]
      rfl

-- Combining the powers of base units puts them in order and drops those with exponent zero.
theorem IsMapping.ofComponents_powers (h : IsMapping terms) : ofComponents (powers terms) = product (nonzero terms) := by
  have hperm := (isMapping_nonzero h).ordered_perm
  have hcanonical : (product (nonzero terms)).IsCanonical := by
    constructor
    case sorted => exact isSorted_product _
    case nonzero =>
      intro c hc
      obtain ⟨t, ht, rfl⟩ := List.mem_map.1 hc
      simpa using (List.mem_filter.1 (hperm.mem_iff.1 ht)).2
  rw [ofComponents_eq_iff hcanonical]
  intro n
  rw [← exponentOf_powers_nonzero]
  exact (exponentOf_perm (hperm.map _) n).symm

theorem filter_given (terms : List (BaseDimension × Rat)) :
    (given terms).filter (!·.2.isZero) = given (nonzero terms) := by
  rw [given, List.filter_map]
  refine congrArg _ (List.filter_congr ?_)
  rintro ⟨d, r⟩ -
  change (!(r == 0)) = decide ¬r = 0
  rw [decide_not, beq_eq_decide]

theorem mapM_toExponent (terms : List (BaseDimension × Rat)) :
    ((given terms).mapM fun (d, g) => return (d, ← g.toExponent)) = Except.ok terms := by
  induction terms
  case nil => rfl
  case cons t rest hi =>
    rw [given] at hi
    rw [given, List.map_cons, List.mapM_cons]
    simp only [hi]
    rfl

theorem formatGiven_given (terms : List (BaseDimension × Rat)) : formatGiven (given terms) = do
    Error.requireWritable ((nonzero terms).map (·.2))
    return format (nonzero terms) := by
  rw [formatGiven, filter_given, mapM_toExponent]
  rfl

theorem admitsRat_zero : DigitBound.standard.admitsRat 0 := by
  decide +kernel

theorem all_nonzero (terms : List (BaseDimension × Rat)) :
    (nonzero terms).all (DigitBound.standard.admitsRat ·.2) = terms.all (DigitBound.standard.admitsRat ·.2) := by
  rw [nonzero, List.all_filter]
  refine congrArg terms.all (funext ?_)
  rintro ⟨d, r⟩
  by_cases h0 : r = 0
  case pos => rw [h0, admitsRat_zero, Bool.or_true]
  case neg => simp [h0]

theorem requireWritable_nonzero (terms : List (BaseDimension × Rat)) :
    Error.requireWritable ((nonzero terms).map (·.2)) =
      if terms.all (DigitBound.standard.admitsRat ·.2) then .ok () else .error .integerTooLong := by
  rw [Error.requireWritable, List.all_map, Function.comp_def, all_nonzero]

theorem IsMapping.written_powers (h : IsMapping terms) : (ofComponents (powers terms)).written = do
    Error.requireWritable ((nonzero terms).map (·.2))
    return format (nonzero terms) := by
  have hexponents : ((nonzero terms).map (·.2)).Perm (product (nonzero terms)).exponents := by
    have hperm := (isMapping_nonzero h).ordered_perm.symm.map (·.2)
    rwa [exponents, product, List.map_map]
  rw [h.ofComponents_powers, written, requireWritable_perm hexponents, format_eq_render]

-- The signature of a mapping is the text of the product of its base units, and neither is written if an exponent is
-- too long for that.
theorem formatGiven_eq_written (h : IsMapping terms) :
    formatGiven (given terms) = (ofComponents (powers terms)).written ∧
      (ofComponents (powers terms)).written =
        if terms.all (DigitBound.standard.admitsRat ·.2) then .ok (ofComponents (powers terms)).render
        else .error .integerTooLong := by
  refine ⟨(formatGiven_given terms).trans h.written_powers.symm, ?_⟩
  rw [h.written_powers, requireWritable_nonzero, h.ofComponents_powers, format_eq_render]
  split
  case isTrue => rfl
  case isFalse => rfl

theorem formatGiven_eq_written_voltage :
    let terms : List (BaseDimension × Rat) := [(.time, -3), (.length, 1 / 2), (.amount, 0), (.current, -1), (.mass, 1)]
    IsMapping terms ∧ formatGiven (given terms) = .ok "kg*m^(1/2)/A*s^3" ∧
      (ofComponents (powers terms)).written = .ok "kg*m^(1/2)/A*s^3" := by
  intro terms
  have hm : IsMapping terms := by
    rw [IsMapping]
    decide
  have hrender : (ofComponents (powers terms)).render = "kg*m^(1/2)/A*s^3" := by decide +kernel
  have hall : terms.all (DigitBound.standard.admitsRat ·.2) := by decide +kernel
  obtain ⟨heq, htext⟩ := formatGiven_eq_written hm
  rw [if_pos hall, hrender] at htext
  exact ⟨hm, heq.trans htext, htext⟩

-- A mapping whose exponent is too long to be written, so that there is no text of it.
theorem formatGiven_tooLong :
    let terms : List (BaseDimension × Rat) := [(.length, mkRat (Nat.pow 10 4300) 1)]
    IsMapping terms ∧
      ¬∃ text, formatGiven (given terms) = .ok text ∧ (ofComponents (powers terms)).written = .ok text := by
  intro terms
  have hw : Error.requireWritable ((nonzero terms).map (·.2)) = .error .integerTooLong := by
    rw [requireWritable_nonzero]
    exact if_neg (by decide +kernel)
  constructor
  case left => exact List.nodup_singleton _
  case right =>
    rintro ⟨text, htext, -⟩
    rw [formatGiven_given, hw] at htext
    cases htext

end Dimensions

end Metrology
