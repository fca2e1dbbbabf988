import Mathlib.Data.List.Sort
import Metrology.Expression

/-!
Combining like terms. An expression has each name at most once, in order and with an exponent other than zero,
so it is determined by the exponents of its names.
-/

namespace Metrology.Expression

variable {e e' : Expression} {n m : String} {q r : Rat} {c : Component} {cs cs' : List Component}

-- The sum of the exponents that are listed for a name.
def exponentOf (name : String) : List Component → Rat
  | [] => 0
  | (other, r) :: rest => (if other = name then r else 0) + exponentOf name rest

theorem exponentOf_append : exponentOf n (cs ++ cs') = exponentOf n cs + exponentOf n cs' := by
  induction cs
  case nil => exact (Rat.zero_add _).symm
  case cons c cs hi => rw [List.cons_append, exponentOf, exponentOf, hi, Rat.add_assoc]

theorem exponentOf_accumulate : exponentOf n (accumulate m r cs) = exponentOf n cs + if m = n then r else 0 := by
  fun_induction accumulate m r cs
  case case1 => exact Rat.add_comm _ _
  case case2 s rest =>
    simp only [exponentOf]
    split
    case isTrue => rw [Rat.add_assoc, Rat.add_comm r, Rat.add_assoc]
    case isFalse => rw [Rat.add_zero]
  case case3 => rw [exponentOf, Rat.add_comm]
  case case4 hi => rw [exponentOf, exponentOf, hi, Rat.add_assoc]

-- The names are in order, so each of them occurs once.
def IsSorted (cs : List Component) : Prop :=
  cs.Pairwise (·.1 < ·.1)

theorem mem_accumulate_fst (h : c ∈ accumulate m r cs) : c.1 = m ∨ ∃ d ∈ cs, d.1 = c.1 := by
  fun_induction accumulate m r cs
  case case1 => simp_all
  case case2 s rest =>
    cases List.mem_cons.mp h
    case inl h => exact .inl (h ▸ rfl)
    case inr h => exact .inr ⟨c, List.mem_cons_of_mem _ h, rfl⟩
  case case3 =>
    cases List.mem_cons.mp h
    case inl h => exact .inl (h ▸ rfl)
    case inr h => exact .inr ⟨c, h, rfl⟩
  case case4 other s rest _ _ hi =>
    cases List.mem_cons.mp h
    case inl h => exact .inr ⟨(other, s), List.mem_cons_self, h ▸ rfl⟩
    case inr h =>
      apply (hi h).imp_right
      rintro ⟨d, hd, he⟩
      exact ⟨d, List.mem_cons_of_mem _ hd, he⟩

theorem IsSorted.accumulate (h : IsSorted cs) : IsSorted (accumulate m r cs) := by
  fun_induction Expression.accumulate m r cs
  case case1 => exact List.pairwise_singleton ..
  case case2 s rest => exact List.pairwise_cons.mpr <| List.pairwise_cons.mp h
  case case3 other s rest _ hlt =>
    refine List.pairwise_cons.mpr ⟨?_, h⟩
    intro d hd
    cases List.mem_cons.mp hd
    case inl hd => exact hd ▸ hlt
    case inr hd => exact String.lt_trans hlt <| (List.pairwise_cons.mp h).1 d hd
  case case4 other s rest hne hlt hi =>
    obtain ⟨hhead, htail⟩ := List.pairwise_cons.mp h
    refine List.pairwise_cons.mpr ⟨?_, hi htail⟩
    intro d hd
    cases mem_accumulate_fst hd
    case inl hd => exact hd ▸ Std.lt_of_le_of_ne hlt (Ne.symm hne)
    case inr hd =>
      obtain ⟨c, hc, hd⟩ := hd
      exact hd ▸ hhead c hc

theorem exponentOf_eq_zero (h : ∀ c ∈ cs, c.1 ≠ n) : exponentOf n cs = 0 := by
  induction cs
  case nil => rfl
  case cons c cs hi =>
    rw [exponentOf, if_neg (h c List.mem_cons_self), hi fun d hd => h d (List.mem_cons_of_mem c hd), Rat.add_zero]

theorem IsSorted.exponentOf_eq (h : IsSorted cs) (hm : (n, r) ∈ cs) : exponentOf n cs = r := by
  induction cs
  case nil => contradiction
  case cons c cs hi =>
    obtain ⟨hhead, htail⟩ := List.pairwise_cons.mp h
    rw [exponentOf]
    cases List.mem_cons.mp hm
    case inl hm =>
      have hrest : exponentOf n cs = 0 := by
        apply exponentOf_eq_zero
        intro d hd he
        have := hhead d hd
        rw [← hm, he] at this
        exact Std.lt_irrefl this
      rw [hrest, ← hm, if_pos rfl, Rat.add_zero]
    case inr hm =>
      have hne : c.1 ≠ n := fun he => Std.lt_irrefl (he ▸ hhead _ hm)
      rw [if_neg hne, hi htail hm, Rat.zero_add]

theorem exists_of_exponentOf_ne_zero (h : exponentOf n cs ≠ 0) : ∃ r, (n, r) ∈ cs := by
  by_contra hn
  apply h
  apply exponentOf_eq_zero
  intro c hc he
  exact hn ⟨c.2, he ▸ hc⟩

-- The sums of all exponents, before those that are zero are dropped.
def sums (cs : List Component) : List Component :=
  cs.foldl (fun sums (name, r) => accumulate name r sums) []

theorem foldl_accumulate (h : IsSorted cs') :
    IsSorted (cs.foldl (fun sums (name, r) => accumulate name r sums) cs') ∧
      exponentOf n (cs.foldl (fun sums (name, r) => accumulate name r sums) cs') =
        exponentOf n cs' + exponentOf n cs := by
  induction cs generalizing cs'
  case nil => exact ⟨h, (Rat.add_zero _).symm⟩
  case cons c cs hi =>
    obtain ⟨hs, he⟩ := hi (h.accumulate (m := c.1) (r := c.2))
    refine ⟨hs, ?_⟩
    rw [List.foldl_cons, he, exponentOf_accumulate, exponentOf, Rat.add_assoc]

theorem isSorted_sums (cs : List Component) : IsSorted (sums cs) :=
  (foldl_accumulate (n := "") .nil).1

theorem exponentOf_sums (n : String) (cs : List Component) : exponentOf n (sums cs) = exponentOf n cs := by
  have h : exponentOf n (sums cs) = exponentOf n [] + exponentOf n cs := (foldl_accumulate .nil).2
  rwa [exponentOf, Rat.zero_add] at h

-- A sum is that of the components with a property and that of those without it.
theorem exponentOf_filter (p : Component → Bool) (n : String) (cs : List Component) :
    exponentOf n (cs.filter p) + exponentOf n (cs.filter fun c => !p c) = exponentOf n cs := by
  induction cs
  case nil => exact Rat.add_zero 0
  case cons c cs hi =>
    rw [exponentOf, ← hi]
    cases hp : p c
    case false =>
      simp only [List.filter_cons, hp, Bool.not_false, if_true, exponentOf]
      grind
    case true =>
      simp only [List.filter_cons, hp, Bool.not_true, if_true, exponentOf]
      grind

-- Each name occurs once and in order, and no exponent is zero.
structure IsCanonical (e : Expression) : Prop where
  sorted : IsSorted e.components
  nonzero : ∀ c ∈ e.components, c.2 ≠ 0

theorem isCanonical_ofComponents (cs : List Component) : (ofComponents cs).IsCanonical where
  sorted := (isSorted_sums cs).filter _
  nonzero _ := ofComponents_ne_zero

-- An exponent is the sum of those that were combined.
theorem mem_ofComponents_iff : (n, r) ∈ (ofComponents cs).components ↔ r = exponentOf n cs ∧ r ≠ 0 := by
  have hs : (n, r) ∈ (ofComponents cs).components ↔ (n, r) ∈ sums cs ∧ r ≠ 0 := by
    simp [ofComponents, sums]
  rw [hs]
  constructor
  case mp =>
    rintro ⟨hm, h0⟩
    exact ⟨by rw [← exponentOf_sums, (isSorted_sums cs).exponentOf_eq hm], h0⟩
  case mpr =>
    rintro ⟨hr, h0⟩
    have hsum : exponentOf n (sums cs) ≠ 0 := by rwa [exponentOf_sums, ← hr]
    obtain ⟨r', hm⟩ := exists_of_exponentOf_ne_zero hsum
    have hr' := (isSorted_sums cs).exponentOf_eq hm
    rw [exponentOf_sums, ← hr] at hr'
    exact ⟨hr' ▸ hm, h0⟩

namespace IsCanonical

theorem mem_iff (h : e.IsCanonical) : (n, r) ∈ e.components ↔ r = exponentOf n e.components ∧ r ≠ 0 := by
  constructor
  case mp =>
    intro hm
    exact ⟨(h.sorted.exponentOf_eq hm).symm, h.nonzero _ hm⟩
  case mpr =>
    rintro ⟨hr, h0⟩
    obtain ⟨r', hm⟩ := exists_of_exponentOf_ne_zero (hr ▸ h0)
    exact hr ▸ h.sorted.exponentOf_eq hm ▸ hm

theorem ext (h : e.IsCanonical) (h' : e'.IsCanonical)
    (hm : ∀ n, exponentOf n e.components = exponentOf n e'.components) : e = e' := by
  have hlt (c d : Component) (hc : c.1 < d.1) (hd : d.1 < c.1) : c = d :=
    absurd (String.lt_trans hc hd) Std.lt_irrefl
  have hne (c d : Component) (hlt : c.1 < d.1) : c ≠ d := fun he => Std.lt_irrefl (he ▸ hlt)
  have hnodup {cs : List Component} (hs : IsSorted cs) : cs.Nodup := List.Pairwise.imp (hne _ _) hs
  have hperm : e.components.Perm e'.components := by
    rw [List.perm_ext_iff_of_nodup (hnodup h.sorted) (hnodup h'.sorted)]
    rintro ⟨n, r⟩
    rw [h.mem_iff, h'.mem_iff, hm]
  have hc := hperm.eq_of_pairwise (fun c d _ _ => hlt c d) h.sorted h'.sorted
  cases e
  cases e'
  exact congrArg _ hc

end IsCanonical

theorem exponentOf_ofComponents (n : String) (cs : List Component) :
    exponentOf n (ofComponents cs).components = exponentOf n cs := by
  by_cases h : exponentOf n cs = 0
  case neg => exact (isCanonical_ofComponents cs).sorted.exponentOf_eq <| mem_ofComponents_iff.mpr ⟨rfl, h⟩
  case pos =>
    rw [h]
    apply exponentOf_eq_zero
    intro c hc he
    obtain ⟨hr, h0⟩ := mem_ofComponents_iff.mp hc
    exact h0 (by rw [hr, he, h])

-- Lists with the same sums make the same expression.
theorem ofComponents_eq_iff (h : e.IsCanonical) :
    ofComponents cs = e ↔ ∀ n, exponentOf n cs = exponentOf n e.components := by
  constructor
  case mp =>
    intro he n
    rw [← he, exponentOf_ofComponents]
  case mpr =>
    intro hn
    apply (isCanonical_ofComponents cs).ext h
    intro n
    rw [exponentOf_ofComponents, hn]

theorem ofComponents_eq_ofComponents_iff :
    ofComponents cs = ofComponents cs' ↔ ∀ n, exponentOf n cs = exponentOf n cs' := by
  rw [ofComponents_eq_iff (isCanonical_ofComponents cs')]
  simp only [exponentOf_ofComponents]

end Metrology.Expression
