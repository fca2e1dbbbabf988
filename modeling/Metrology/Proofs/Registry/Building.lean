import Metrology.Proofs.Registry.Entries
import Metrology.Proofs.Scalar.Equality

/-!
Building registries: the order of the definitions does not matter. A registry can be built if all entries with one
name have equal forms, and then it holds one of them for each name.
-/

namespace Metrology

namespace BaseForm

variable {u v w : BaseForm Float}

-- Factor and offset are numbers.
def isNumeric (u : BaseForm Float) : Bool :=
  !u.factor.isNaN && !u.offset.isNaN

theorem equal_iff : u.equal v ↔ u.dimensions = v.dimensions ∧ u.factor == v.factor ∧ u.offset == v.offset := by
  simp only [equal, compatible, Bool.and_eq_true, beq_iff_eq, and_assoc]
  rfl

theorem equal_symm (h : u.equal v) : v.equal u := by
  obtain ⟨hd, hf, ho⟩ := equal_iff.1 h
  exact equal_iff.2 ⟨hd.symm, Binary64.beq_symm hf, Binary64.beq_symm ho⟩

theorem equal_trans (h : u.equal v) (h' : v.equal w) : u.equal w := by
  obtain ⟨hd, hf, ho⟩ := equal_iff.1 h
  obtain ⟨hd', hf', ho'⟩ := equal_iff.1 h'
  exact equal_iff.2 ⟨hd.trans hd', Binary64.beq_trans hf hf', Binary64.beq_trans ho ho'⟩

theorem equal_self (h : u.isNumeric) : u.equal u := by
  obtain ⟨hf, ho⟩ := Bool.and_eq_true_iff.1 h
  exact equal_iff.2 ⟨rfl, Binary64.beq_self (by simpa using hf), Binary64.beq_self (by simpa using ho)⟩

end BaseForm

namespace Registry

abbrev Entry := String × BaseForm Float

-- All entries that definitions make, in order.
def entries (definitions : List (Definition Float)) : List Entry :=
  definitions.flatMap (·.expand)

-- All entries with one name have equal forms.
def Consistent (made : List Entry) : Prop :=
  ∀ n u v, (n, u) ∈ made → (n, v) ∈ made → u.equal v

-- A table with one entry for each name, to which all other entries with that name are equal.
structure Holds (units : UnitTable Float) (made : List Entry) : Prop where
  mem {n u} : units[n]? = some u → (n, u) ∈ made
  equal {n u} : (n, u) ∈ made → ∃ v, units[n]? = some v ∧ u.equal v

variable {definitions definitions' : List (Definition Float)} {d : Definition Float} {made made' : List Entry}
variable {units units' : UnitTable Float} {entry : Entry} {symbol n : String} {u : BaseForm Float} {e : Error}
variable {r r' : Registry Float} {frozen : Bool}

namespace Holds

theorem empty : Holds ∅ [] where
  mem h := by simp at h
  equal h := absurd h List.not_mem_nil

theorem consistent (h : Holds units made) : Consistent made := by
  intro n u v hu hv
  obtain ⟨w, hw, huw⟩ := h.equal hu
  obtain ⟨w', hw', hvw⟩ := h.equal hv
  cases hw.symm.trans hw'
  exact BaseForm.equal_trans huw (BaseForm.equal_symm hvw)

-- The entered form is equal to the one that it replaces, so it can stand for all entries before it.
theorem enter (h : Holds units made) (he : entry.2.isNumeric)
    (hu : Registry.enter symbol false units entry = .ok units') : Holds units' (made ++ [entry]) := by
  obtain ⟨rfl, hequal⟩ := enter_ok hu
  constructor
  case mem =>
    intro n u hn
    rw [UnitTable.getElem?_insert] at hn
    split at hn
    case isTrue hname =>
      cases hn
      exact hname ▸ List.mem_append_right _ (List.mem_singleton_self _)
    case isFalse => exact List.mem_append_left _ (h.mem hn)
  case equal =>
    intro n u hmem
    rw [UnitTable.getElem?_insert]
    rcases List.mem_append.1 hmem with hmem | hmem
    case inl =>
      obtain ⟨v, hv, huv⟩ := h.equal hmem
      split
      case isTrue hname => exact ⟨entry.2, rfl, BaseForm.equal_trans huv (hequal rfl v (hname ▸ hv))⟩
      case isFalse => exact ⟨v, hv, huv⟩
    case inr =>
      cases List.mem_singleton.1 hmem
      exact ⟨u, if_pos rfl, BaseForm.equal_self he⟩

theorem enterEach {es : List Entry} (h : Holds units made) (hes : ∀ entry ∈ es, entry.2.isNumeric)
    (hu : es.foldlM (Registry.enter symbol false) units = .ok units') : Holds units' (made ++ es) := by
  rw [← List.flatMap_singleton' es]
  exact foldlM_collects hu h fun entry he _ _ _ hu h => h.enter (hes entry he) hu

theorem enterAll (h : Holds units made) (hd : ∀ entry ∈ d.expand, entry.2.isNumeric)
    (hu : Registry.enterAll units d false = .ok units') : Holds units' (made ++ d.expand) :=
  h.enterEach hd hu

theorem not_consistent_of_enterAll_error (h : Holds units made) (hd : ∀ entry ∈ d.expand, entry.2.isNumeric)
    (hu : Registry.enterAll units d false = .error e) : ¬Consistent (made ++ d.expand) := by
  obtain ⟨before, entry, after, between, hsplit, hbefore, hentry⟩ := exists_of_foldlM_error hu
  rw [hsplit] at hd ⊢
  have hbetween : Holds between (made ++ before) :=
    h.enterEach (fun _ he => hd _ (List.mem_append_left _ he)) hbefore
  obtain ⟨u, hu, hne⟩ := exists_of_enter_error hentry
  intro hc
  refine hne (hc entry.1 u entry.2 ?_ ?_)
  case refine_1 => exact List.append_assoc .. ▸ List.mem_append_left _ (hbetween.mem hu)
  case refine_2 => exact List.mem_append_right _ (List.mem_append_right _ List.mem_cons_self)

-- Two tables that hold the same entries have equal forms for each name.
theorem equal_of_iff (h : Holds units made) (h' : Holds units' made') (hm : ∀ entry, entry ∈ made ↔ entry ∈ made')
    {v : BaseForm Float} (hu : units[n]? = some u) (hv : units'[n]? = some v) : u.equal v := by
  obtain ⟨w, hw, huw⟩ := h'.equal ((hm (n, u)).1 (h.mem hu))
  cases hv.symm.trans hw
  exact huw

theorem mem_keys_iff (h : Holds units made) : n ∈ units.keys ↔ ∃ u, (n, u) ∈ made := by
  rw [Std.TreeMap.mem_keys, Std.TreeMap.mem_iff_isSome_getElem?, Option.isSome_iff_exists]
  constructor
  · rintro ⟨u, hu⟩
    exact ⟨u, h.mem hu⟩
  · rintro ⟨u, hu⟩
    obtain ⟨v, hv, -⟩ := h.equal hu
    exact ⟨v, hv⟩

end Holds

theorem Consistent.mono (h : Consistent made') (hm : made ⊆ made') : Consistent made :=
  fun n u v hu hv => h n u v (hm hu) (hm hv)

theorem holds_of_foldlM (hn : ∀ entry ∈ entries definitions, entry.2.isNumeric)
    (h : definitions.foldlM (fun units d => enterAll units d false) ∅ = .ok units) : Holds units (entries definitions) := by
  refine foldlM_collects h Holds.empty fun d hd _ _ _ hu h => h.enterAll ?_ hu
  exact fun entry he => hn entry (List.mem_flatMap.2 ⟨d, hd, he⟩)

theorem holds_of_build (hn : ∀ entry ∈ entries definitions, entry.2.isNumeric)
    (h : build definitions frozen = .ok r) : Holds r.units (entries definitions) :=
  holds_of_foldlM hn (build_ok h).1

-- The entries up to the first one that is refused are in conflict already.
theorem not_consistent_of_build_error (hn : ∀ entry ∈ entries definitions, entry.2.isNumeric)
    (h : build definitions frozen = .error e) : ¬Consistent (entries definitions) := by
  obtain h | ⟨_, -, h⟩ := bind_eq_error h
  case inr => contradiction
  obtain ⟨before, d, after, units, rfl, hbefore, hd⟩ := exists_of_foldlM_error h
  have hsplit : entries (before ++ d :: after) = (entries before ++ d.expand) ++ entries after := by
    simp [entries]
  rw [hsplit] at hn ⊢
  obtain ⟨hn, -⟩ := List.forall_mem_append.1 hn
  obtain ⟨hnbefore, hnd⟩ := List.forall_mem_append.1 hn
  have hconflict : ¬Consistent (entries before ++ d.expand) :=
    (holds_of_foldlM hnbefore hbefore).not_consistent_of_enterAll_error hnd hd
  exact fun hc => hconflict (hc.mono (List.subset_append_left _ _))

theorem isOk_build_iff (hn : ∀ entry ∈ entries definitions, entry.2.isNumeric) :
    (build definitions frozen).isOk ↔ Consistent (entries definitions) := by
  cases h : build definitions frozen
  case ok r => exact iff_of_true rfl (holds_of_build hn h).consistent
  case error e => exact iff_of_false Bool.false_ne_true (not_consistent_of_build_error hn h)

-- The names of a table are listed in order, so equal sets of names are listed alike.
theorem keys_eq_of_mem_iff (h : ∀ n, n ∈ units.keys ↔ n ∈ units'.keys) : units.keys = units'.keys := by
  have hp : units.keys.Perm units'.keys :=
    (List.perm_ext_iff_of_nodup Std.TreeMap.nodup_keys Std.TreeMap.nodup_keys).2 h
  refine hp.eq_of_pairwise ?_ Std.TreeMap.ordered_keys Std.TreeMap.ordered_keys
  intro n n' _ _ hlt hgt
  rw [Std.OrientedCmp.gt_of_lt hgt] at hlt
  contradiction

theorem mem_entries_perm (h : definitions.Perm definitions') (entry : Entry) :
    entry ∈ entries definitions ↔ entry ∈ entries definitions' :=
  (h.flatMap_right _).mem_iff

-- What comes of two orders of the definitions that make some entries: there is a registry for both or for none, and
-- both have the names of all entries, with equal forms.
structure Interchangeable (made : List Entry) (x y : Except Error (Registry Float)) : Prop where
  isOk_iff : x.isOk ↔ y.isOk
  consistent_iff : x.isOk ↔ Consistent made
  mem_names_iff (r : Registry Float) (h : x = .ok r) (n : String) : n ∈ r.names ↔ ∃ u, (n, u) ∈ made
  names_eq (r r' : Registry Float) (h : x = .ok r) (h' : y = .ok r') : r.names = r'.names
  equal (r r' : Registry Float) (h : x = .ok r) (h' : y = .ok r') (n : String) (u v : BaseForm Float)
    (hu : r.find? n = some u) (hv : r'.find? n = some v) : u.equal v

-- The order of the definitions does not matter to what is built from them.
theorem build_perm (h : definitions.Perm definitions') (hn : ∀ entry ∈ entries definitions, entry.2.isNumeric) :
    Interchangeable (entries definitions) (build definitions frozen) (build definitions' frozen) := by
  have hmem := mem_entries_perm h
  have hn' : ∀ entry ∈ entries definitions', entry.2.isNumeric := fun entry he => hn entry ((hmem entry).2 he)
  constructor
  case isOk_iff =>
    rw [isOk_build_iff hn, isOk_build_iff hn']
    exact ⟨(·.mono fun _ => (hmem _).2), (·.mono fun _ => (hmem _).1)⟩
  case consistent_iff => exact isOk_build_iff hn
  case mem_names_iff =>
    intro r hr n
    exact (holds_of_build hn hr).mem_keys_iff
  case names_eq =>
    intro r r' hr hr'
    apply keys_eq_of_mem_iff
    intro n
    simp only [(holds_of_build hn hr).mem_keys_iff, (holds_of_build hn' hr').mem_keys_iff, hmem]
  case equal =>
    intro r r' hr hr' n u v hu hv
    exact (holds_of_build hn hr).equal_of_iff (holds_of_build hn' hr') hmem hu hv

def metreUnit : Definition Float where
  family := .length
  symbol := "m"
  form := ⟨.single .length, 1, 0, "m", .composed⟩
  aliases := []
  longNames := ["meter"]
  siPrefixes := [.kilo]
  named := by decide
  linear := .inr (by decide +kernel)

-- A unit that takes a prefix, and another unit with one of the prefixed names.
def metreAndKilometre : List (Definition Float) :=
  [metreUnit, ⟨.general, "km", ⟨.single .length, 1000, 0, "km", .composed⟩, ["klick"], [], [], by decide, .inl rfl⟩]

theorem build_perm_kilometre :
    let definitions := metreAndKilometre
    definitions.Perm definitions.reverse ∧ (∀ entry ∈ entries definitions, entry.2.isNumeric) ∧
      (build definitions true).isOk ∧
      Interchangeable (entries definitions) (build definitions true) (build definitions.reverse true) := by
  intro definitions
  have hp : definitions.Perm definitions.reverse := (List.reverse_perm _).symm
  have hn : ∀ entry ∈ entries definitions, entry.2.isNumeric := by decide +kernel
  exact ⟨hp, hn, by decide +kernel, build_perm hp hn⟩

end Registry

end Metrology
