import Metrology.Proofs.Fallible
import Metrology.Registry

/-!
What the names of a registry stand for: a table gets its entries from definitions, and from nowhere else.
-/

namespace Metrology

variable {α : Type} {n symbol : String} {u : BaseForm α} {units units' : UnitTable α} {P : String × BaseForm α → Prop}

-- Something that is true of all entries of a table.
def UnitTable.Every (P : String × BaseForm α → Prop) (units : UnitTable α) : Prop :=
  ∀ n u, units[n]? = some u → P (n, u)

theorem UnitTable.getElem?_insert (units : UnitTable α) (n n' : String) (u : BaseForm α) :
    (units.insert n u)[n']? = if n = n' then some u else units[n']? := by
  simp only [Std.TreeMap.getElem?_insert, Std.LawfulEqCmp.compare_eq_iff_eq]

theorem UnitTable.every_empty : UnitTable.Every P ∅ :=
  fun n u hu => by simp at hu

variable [Scalar α] {d : Definition α} {definitions : List (Definition α)} {p : SiPrefix α} {frozen replace : Bool}
variable {r : Registry α} {entry : String × BaseForm α}

namespace Definition

theorem isAffine_of_mem (hp : p ∈ d.siPrefixes) : d.form.isAffine = false := by
  have hlinear := d.linear.resolve_left (List.ne_nil_of_mem hp)
  rwa [Bool.not_eq_true'] at hlinear

-- None of the prefixes that a unit takes is refused.
theorem withPrefix_of_mem (hp : p ∈ d.siPrefixes) : d.withPrefix p = .ok (d.prefixed p) := by
  rw [withPrefix, BaseForm.requireLinear, isAffine_of_mem hp]
  rfl

-- Each name of a definition stands for its form or for what a prefix makes of it.
theorem form_of_mem_expand (h : (n, u) ∈ d.expand) : u = d.form ∨ ∃ p ∈ d.siPrefixes, d.withPrefix p = .ok u := by
  cases List.mem_append.1 h
  case inl h =>
    obtain ⟨_, _, he⟩ := List.mem_map.1 h
    exact .inl (Prod.mk.inj he).2.symm
  case inr h =>
    obtain ⟨p, hp, h⟩ := List.mem_flatMap.1 h
    obtain ⟨_, _, he⟩ := List.mem_map.1 h
    exact .inr ⟨p, hp, (Prod.mk.inj he).2 ▸ withPrefix_of_mem hp⟩

-- An absolute scale takes no prefixes: all of its names stand for the scale and none of them for a unit without offset.
theorem eq_form_of_mem_expand (ha : d.form.isAffine) (h : (n, u) ∈ d.expand) : u = d.form := by
  cases form_of_mem_expand h
  case inl h => exact h
  case inr h =>
    obtain ⟨p, hp, -⟩ := h
    rw [isAffine_of_mem hp] at ha
    contradiction

end Definition

namespace Registry

-- An entry that is not refused replaces an equal one at most, unless it is meant as a replacement.
theorem enter_ok (h : enter symbol replace units entry = .ok units') :
    units' = units.insert entry.1 entry.2 ∧
      (replace = false → ∀ u, units[entry.1]? = some u → u.equal entry.2) := by
  rw [enter] at h
  split at h
  case isFalse => contradiction
  case isTrue hall =>
    cases h
    refine ⟨rfl, ?_⟩
    intro hr u hu
    simpa [hr, hu] using hall

-- An entry is refused for an unequal one with its name.
theorem exists_of_enter_error {e : Error} (h : enter symbol replace units entry = .error e) :
    ∃ u, units[entry.1]? = some u ∧ ¬u.equal entry.2 := by
  rw [enter] at h
  split at h
  case isTrue => contradiction
  case isFalse hall =>
    cases hu : units[entry.1]?
    case none => simp [hu] at hall
    case some u => exact ⟨u, rfl, by simp_all⟩

theorem every_enter (h : enter symbol replace units entry = .ok units') (hu : units.Every P) (he : P entry) :
    units'.Every P := by
  obtain ⟨rfl, -⟩ := enter_ok h
  intro n u hn
  rw [UnitTable.getElem?_insert] at hn
  split at hn
  case isTrue hname =>
    cases hn
    exact hname ▸ he
  case isFalse => exact hu n u hn

theorem every_enterAll (h : enterAll units d replace = .ok units') (hu : units.Every P)
    (hd : ∀ entry ∈ d.expand, P entry) : units'.Every P :=
  foldlM_preserves h hu fun entry he _ _ h hu => every_enter h hu (hd entry he)

theorem build_ok (h : build definitions frozen = .ok r) :
    definitions.foldlM (fun units d => enterAll units d false) ∅ = .ok r.units ∧ r.version = 0 ∧ r.frozen = frozen := by
  rw [build] at h
  obtain ⟨units, hunits, h⟩ := exists_of_bind_ok h
  cases h
  exact ⟨hunits, rfl, rfl⟩

-- Every unit of a new registry comes from one of the definitions that it is built from.
theorem exists_of_build (h : build definitions frozen = .ok r) (hu : r.find? n = some u) :
    ∃ d ∈ definitions, (n, u) ∈ d.expand := by
  have hevery : r.units.Every fun entry => ∃ d ∈ definitions, entry ∈ d.expand :=
    foldlM_preserves (build_ok h).1 UnitTable.every_empty fun d hd _ _ h hu =>
      every_enterAll h hu fun _ he => ⟨d, hd, he⟩
  exact hevery n u hu

end Registry

end Metrology
