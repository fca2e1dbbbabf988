import Metrology.Dimension.Signature
import Metrology.Proofs.Expression.Distinct

/-!
Signatures, told apart. A signature is a printed product of base units, so different dimensions have different
signatures.
-/

namespace Metrology

open Expression

theorem BaseDimension.isTelling (d : BaseDimension) : IsTelling d.symbol := by
  have hprintable : IsPrintable d.symbol.toList := by
    cases d <;> exact .of_plain (by decide) (by decide)
  exact ⟨hprintable, by cases d <;> decide⟩

namespace Dimensions

variable {v w : Dimensions} {d : BaseDimension} {r : Rat}

-- The listed dimensions in the order of their symbols.
def ordered (terms : List (BaseDimension × Rat)) : List (BaseDimension × Rat) :=
  BaseDimension.bySymbol.filterMap fun d => (terms.lookup d).map (d, ·)

-- The product of base units that terms stand for.
def product (terms : List (BaseDimension × Rat)) : Expression :=
  ⟨(ordered terms).map fun (d, r) => (d.symbol, r)⟩

theorem powerText_eq (d : BaseDimension) (r : Rat) : powerText d r = Expression.powerText d.symbol r := by
  have hstring (s : String) : toString s = s := rfl
  rw [powerText, exponentText, Expression.powerText]
  split
  case isTrue => rfl
  case isFalse =>
    split
    case isTrue => rfl
    case isFalse => simp [← String.toList_inj, hstring]

theorem format_eq_render (terms : List (BaseDimension × Rat)) : format terms = (product terms).render := by
  have hordered : (BaseDimension.bySymbol.filterMap fun d => (terms.lookup d).map (d, ·)) = ordered terms := rfl
  simp only [format, render, product, hordered, List.map_eq_nil_iff, List.filter_map, List.map_map]
  simp only [Function.comp_def, powerText_eq]

theorem mem_ordered_iff {terms : List (BaseDimension × Rat)} : (d, r) ∈ ordered terms ↔ terms.lookup d = some r := by
  simp [ordered, BaseDimension.mem_bySymbol]

theorem exists_of_lookup_terms (h : v.terms.lookup d = some r) : r = v.get d ∧ r ≠ 0 := by
  obtain ⟨before, after, hsplit, -⟩ := List.lookup_eq_some_iff.1 h
  exact mem_terms_iff.1 (hsplit ▸ List.mem_append_right _ List.mem_cons_self)

theorem lookup_terms_iff : v.terms.lookup d = some r ↔ r = v.get d ∧ r ≠ 0 := by
  refine ⟨exists_of_lookup_terms, ?_⟩
  intro h
  cases hr : v.terms.lookup d
  case none => exact absurd (List.lookup_eq_none_iff.1 hr _ (mem_terms_iff.2 h)) (by simp)
  case some q => rw [(exists_of_lookup_terms hr).1, h.1]

theorem mem_product_iff {n : String} :
    (n, r) ∈ (product v.terms).components ↔ ∃ d : BaseDimension, n = d.symbol ∧ r = v.get d ∧ r ≠ 0 := by
  simp only [product, List.mem_map, Prod.exists, Prod.mk.injEq, mem_ordered_iff, lookup_terms_iff]
  constructor
  · rintro ⟨d, q, h, rfl, rfl⟩
    exact ⟨d, rfl, h⟩
  · rintro ⟨d, rfl, h⟩
    exact ⟨d, r, h, rfl, rfl⟩

theorem isSorted_product (terms : List (BaseDimension × Rat)) : IsSorted (product terms).components := by
  rw [product, ordered, IsSorted, List.pairwise_map, List.pairwise_filterMap]
  refine BaseDimension.bySymbol_sorted.imp ?_
  rintro d e hlt ⟨_, _⟩ hd ⟨_, _⟩ he
  obtain ⟨_, -, hd⟩ := Option.map_eq_some_iff.1 hd
  obtain ⟨_, -, he⟩ := Option.map_eq_some_iff.1 he
  cases hd
  cases he
  exact hlt

theorem isCanonical_product (v : Dimensions) : (product v.terms).IsCanonical := by
  constructor
  case sorted => exact isSorted_product _
  case nonzero =>
    rintro ⟨n, r⟩ hc
    obtain ⟨_, -, -, h0⟩ := mem_product_iff.1 hc
    exact h0

theorem isTelling_of_mem_product {c : Component} (h : c ∈ (product v.terms).components) : IsTelling c.1 := by
  obtain ⟨d, hd, -⟩ := mem_product_iff.1 h
  exact hd ▸ d.isTelling

-- The product of base units says what the exponents are.
theorem product_injective (h : product v.terms = product w.terms) : v = w := by
  have hget {v w : Dimensions} (h : product v.terms = product w.terms) (d : BaseDimension) (h0 : v.get d ≠ 0) :
      v.get d = w.get d := by
    have hm : (d.symbol, v.get d) ∈ (product v.terms).components := mem_product_iff.2 ⟨d, rfl, rfl, h0⟩
    rw [h] at hm
    obtain ⟨e, hsymbol, hr, -⟩ := mem_product_iff.1 hm
    obtain rfl := BaseDimension.symbol_injective hsymbol
    exact hr
  ext d
  by_cases h0 : v.get d = 0
  case neg => exact hget h d h0
  case pos =>
    by_contra hne
    exact hne (hget h.symm d fun hw => hne (h0.trans hw.symm)).symm

theorem signature_injective (h : v.signature = w.signature) : v = w := by
  rw [signature, signature, format_eq_render, format_eq_render] at h
  apply product_injective
  exact render_injective (isCanonical_product v) (isCanonical_product w) (fun _ => isTelling_of_mem_product)
    (fun _ => isTelling_of_mem_product) h

end Dimensions

end Metrology
