import Metrology.Proofs.Expression.Printing

/-!
Printed expressions, told apart. A printed text has one reading, and the first negative power in it shows where the line
is, so expressions that are printed alike are equal.
-/

namespace Metrology.Expression

open Text

variable {b : DigitBound} {t : List Char} {cs cs' : List Component} {e e' : Expression}

theorem IsPrinted.unique {p p' : Part} (h : IsPrinted b p t cs) (h' : IsPrinted b p' t cs') : cs = cs' := by
  have hn : '\n' ∉ t := fun hc => absurd (h.settled _ hc) (by decide)
  have hread := terms_of_reads h.reads hn
  rw [terms_of_reads h'.reads hn] at hread
  exact (Except.ok.inj hread).symm

theorem readBelow_readBelow (cs : List Component) : readBelow (readBelow cs) = cs := by
  cases cs
  case nil => rfl
  case cons c cs => exact congrArg (c :: ·) (raise_neg cs)

theorem head?_readBelow (cs : List Component) : (readBelow cs).head? = cs.head? := by
  cases cs <;> rfl

-- What is read of a printed expression are its positive powers up to the first negative one.
theorem takeWhile_parts (cs : List Component) :
    let above := cs.filter (0 < ·.2)
    let below := cs.filter (¬ 0 < ·.2)
    (above ++ readBelow below).takeWhile (0 < ·.2) = above ∧
      readBelow ((above ++ readBelow below).dropWhile (0 < ·.2)) = below := by
  intro above below
  have habove : ∀ c ∈ above, decide (0 < c.2) := fun c hc => (List.mem_filter.1 hc).2
  have hbelow : (readBelow below).head?.any (fun c => decide (0 < c.2)) = false := by
    rw [head?_readBelow]
    cases h : below.head?
    case none => rfl
    case some c => simpa using (List.mem_filter.1 (List.mem_of_mem_head? h)).2
  obtain ⟨ha, hb⟩ := takeWhile_append_of_head habove hbelow
  exact ⟨ha, by rw [hb, readBelow_readBelow]⟩

-- What is printed: for an empty expression the word that says that there are no units.
def shown (e : Expression) : Expression :=
  if e.components = [] then ⟨[("dimensionless", 1)]⟩ else e

theorem render_shown (e : Expression) : e.shown.render = e.render := by
  rw [shown]
  split
  case isTrue hn =>
    rw [render, render, if_pos hn]
    decide
  case isFalse => rfl

-- A name that is printed as itself and is not that word.
structure IsTelling (n : String) : Prop where
  printable : IsPrintable n.toList
  ne_dimensionless : n ≠ "dimensionless"

theorem isShort_shown (h : e.IsCanonical) (hn : ∀ c ∈ e.components, IsTelling c.1) :
    e.shown.components ≠ [] ∧ e.shown.IsCanonical ∧ ∀ c ∈ e.shown.components, IsShort none c := by
  rw [shown]
  split
  case isTrue =>
    have hword : IsPrintable "dimensionless".toList := .of_plain (by decide) (by decide)
    refine ⟨List.cons_ne_nil _ _, ⟨List.pairwise_singleton _ _, ?_⟩, ?_⟩
    case refine_1 => exact List.forall_mem_singleton.2 (by decide)
    case refine_2 => exact List.forall_mem_singleton.2 ⟨hword, by decide, rfl⟩
  case isFalse hne => exact ⟨hne, h, fun c hc => ⟨(hn c hc).printable, h.nonzero c hc, rfl⟩⟩

theorem shown_injective (hn : ∀ c ∈ e.components, IsTelling c.1) (hn' : ∀ c ∈ e'.components, IsTelling c.1)
    (h : e.shown = e'.shown) : e = e' := by
  rw [shown, shown] at h
  split at h
  case isTrue he =>
    split at h
    case isTrue he' =>
      cases e
      cases e'
      exact congrArg _ (he.trans he'.symm)
    case isFalse =>
      cases h
      exact absurd rfl (hn' _ (List.mem_singleton_self _)).ne_dimensionless
  case isFalse =>
    split at h
    case isTrue =>
      cases h
      exact absurd rfl (hn _ (List.mem_singleton_self _)).ne_dimensionless
    case isFalse => exact h

-- Expressions of telling names are equal if they are printed alike.
theorem render_injective (h : e.IsCanonical) (h' : e'.IsCanonical) (hn : ∀ c ∈ e.components, IsTelling c.1)
    (hn' : ∀ c ∈ e'.components, IsTelling c.1) (hr : e.render = e'.render) : e = e' := by
  obtain ⟨hne, hcan, hshort⟩ := isShort_shown h hn
  obtain ⟨hne', hcan', hshort'⟩ := isShort_shown h' hn'
  have hread := isPrinted_render hshort hne
  rw [render_shown, hr, ← render_shown] at hread
  have hparts := hread.unique (isPrinted_render hshort' hne')
  obtain ⟨habove, hbelow⟩ := takeWhile_parts e.shown.components
  obtain ⟨habove', hbelow'⟩ := takeWhile_parts e'.shown.components
  rw [hparts] at habove hbelow
  apply shown_injective hn hn'
  apply hcan.ext hcan'
  intro n
  rw [← exponentOf_filter (fun c => decide (0 < c.2)) n e.shown.components,
    ← exponentOf_filter (fun c => decide (0 < c.2)) n e'.shown.components]
  simp only [← decide_not, habove.symm.trans habove', hbelow.symm.trans hbelow']

end Metrology.Expression
