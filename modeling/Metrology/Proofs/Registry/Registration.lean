import Metrology.Proofs.Registry.Building
import Metrology.Proofs.Registry.Changes

/-!
Registering a definition. All of its names are entered or none: it is refused if one of them stands for something else,
in the registry or among the names themselves, and otherwise no name gets another meaning than it had.
-/

namespace Metrology

section Last

variable {α : Type} [Scalar α] {symbol n : String} {replace : Bool} {made : List (String × BaseForm α)}
variable {units units' : UnitTable α} {entry : String × BaseForm α} {u : BaseForm α}

-- The form that entries have for a name, if they are made one after the other.
def lastForm (n : String) (made : List (String × BaseForm α)) : Option (BaseForm α) :=
  made.reverse.lookup n

omit [Scalar α] in
theorem lastForm_concat (n : String) (made : List (String × BaseForm α)) (entry : String × BaseForm α) :
    lastForm n (made ++ [entry]) = if entry.1 = n then some entry.2 else lastForm n made := by
  rw [lastForm, List.reverse_concat, List.lookup_cons, lastForm]
  by_cases h : entry.1 = n
  case pos => simp [h]
  case neg =>
    have hn : (n == entry.1) = false := beq_eq_false_iff_ne.2 (Ne.symm h)
    rw [hn, if_neg h]

omit [Scalar α] in
theorem lastForm_of_notMem_after (before : List (String × BaseForm α)) {after : List (String × BaseForm α)}
    (h : ∀ v, (n, v) ∉ after) : lastForm n (before ++ (n, u) :: after) = some u := by
  have hafter : after.reverse.lookup n = none := by
    rw [List.lookup_eq_none_iff]
    rintro ⟨m, v⟩ hm
    rw [List.mem_reverse] at hm
    rw [bne_iff_ne]
    rintro rfl
    exact h v hm
  simp [lastForm, List.lookup_append, hafter]

omit [Scalar α] in
theorem lastForm_eq_none (h : ∀ v, (n, v) ∉ made) : lastForm n made = none := by
  rw [lastForm, List.lookup_eq_none_iff]
  rintro ⟨m, v⟩ hm
  rw [List.mem_reverse] at hm
  rw [bne_iff_ne]
  rintro rfl
  exact h v hm

omit [Scalar α] in
theorem mem_of_lastForm (h : lastForm n made = some u) : (n, u) ∈ made := by
  obtain ⟨before, after, hmade, -⟩ := List.lookup_eq_some_iff.1 h
  rw [← List.mem_reverse, hmade]
  exact List.mem_append_right _ List.mem_cons_self

namespace Registry

-- Entries that are made in a table take the place of what it has for their names.
theorem getElem?_enterEach (h : made.foldlM (enter symbol replace) units = .ok units') (n : String) :
    units'[n]? = (lastForm n made).or units[n]? := by
  have hpast : units'[n]? = (lastForm n ([] ++ made.flatMap ([·]))).or units[n]? := by
    refine foldlM_collects (P := fun s past => s[n]? = (lastForm n past).or units[n]?) h rfl ?_
    intro entry _ s s' past hs hp
    obtain ⟨rfl, -⟩ := enter_ok hs
    rw [UnitTable.getElem?_insert, hp, lastForm_concat]
    split <;> rfl
  rwa [List.flatMap_singleton', List.nil_append] at hpast

theorem enter_replace (symbol : String) (units : UnitTable α) (entry : String × BaseForm α) :
    enter symbol true units entry = .ok (units.insert entry.1 entry.2) :=
  if_pos (.inl rfl)

theorem enterAll_replace (units : UnitTable α) (d : Definition α) : ∃ units', enterAll units d true = .ok units' := by
  cases h : enterAll units d true
  case ok units' => exact ⟨units', rfl⟩
  case error e =>
    obtain ⟨_, entry, _, s, _, _, hs⟩ := exists_of_foldlM_error h
    rw [enter_replace] at hs
    contradiction

theorem register_ok {r : Registry α} {d : Definition α} (h : r.frozen = false)
    (hu : enterAll r.units d replace = .ok units) :
    register d replace r = ⟨.ok (), r.commit units, [.registered d.symbol]⟩ := by
  have hm : r.requireMutable = .ok () := if_neg (by simp [h])
  simp only [register, Action.bind_apply, Action.get_apply, Action.ofExcept_apply, hm, hu]
  rfl

theorem register_error {r : Registry α} {d : Definition α} {e : Error} (h : r.frozen = false)
    (hu : enterAll r.units d replace = .error e) : register d replace r = ⟨.error e, r, []⟩ := by
  have hm : r.requireMutable = .ok () := if_neg (by simp [h])
  simp only [register, Action.bind_apply, Action.get_apply, Action.ofExcept_apply, hm, hu]
  rfl

end Registry

end Last

namespace Registry

variable {r : Registry Float} {d : Definition Float} {made : List Entry} {units units' : UnitTable Float}
variable {entry : Entry} {symbol n : String} {u v : BaseForm Float} {e : Error} {replace : Bool}

-- A name among some entries that stands for something else, in a table or in another one of the entries.
def Conflicts (units : UnitTable Float) (made : List Entry) (n : String) : Prop :=
  ∃ u, (n, u) ∈ made ∧ ((∃ v, units[n]? = some v ∧ ¬v.equal u) ∨ ∃ v, (n, v) ∈ made ∧ ¬v.equal u)

-- A table with the units of another one and with some entries, up to equality of forms. A form that is no number is
-- equal to none, so one that stays is said to be the same.
structure Extends (units units' : UnitTable Float) (made : List Entry) : Prop where
  kept {n : String} {u : BaseForm Float} : units[n]? = some u → ∃ v, units'[n]? = some v ∧ (v = u ∨ u.equal v)
  entered {n : String} {u : BaseForm Float} : (n, u) ∈ made → ∃ v, units'[n]? = some v ∧ u.equal v

namespace Extends

theorem refl (units : UnitTable Float) : Extends units units [] where
  kept {_ u} h := ⟨u, h, .inl rfl⟩
  entered h := absurd h List.not_mem_nil

theorem enter (h : Extends units units' made) (he : entry.2.isNumeric) {units'' : UnitTable Float}
    (hu : Registry.enter symbol false units' entry = .ok units'') : Extends units units'' (made ++ [entry]) := by
  obtain ⟨rfl, hequal⟩ := enter_ok hu
  constructor
  case kept =>
    intro n u hn
    obtain ⟨v, hv, huv⟩ := h.kept hn
    rw [UnitTable.getElem?_insert]
    split
    case isFalse => exact ⟨v, hv, huv⟩
    case isTrue hname =>
      subst hname
      have hve := hequal rfl v hv
      refine ⟨entry.2, rfl, .inr ?_⟩
      cases huv
      case inl heq => exact heq ▸ hve
      case inr huv => exact BaseForm.equal_trans huv hve
  case entered =>
    intro n u hmem
    rw [UnitTable.getElem?_insert]
    rcases List.mem_append.1 hmem with hmem | hmem
    case inl =>
      obtain ⟨v, hv, huv⟩ := h.entered hmem
      split
      case isFalse => exact ⟨v, hv, huv⟩
      case isTrue hname => exact ⟨entry.2, rfl, BaseForm.equal_trans huv (hequal rfl v (hname ▸ hv))⟩
    case inr =>
      cases List.mem_singleton.1 hmem
      exact ⟨u, if_pos rfl, BaseForm.equal_self he⟩

theorem enterEach (hn : ∀ entry ∈ made, entry.2.isNumeric)
    (hu : made.foldlM (Registry.enter symbol false) units = .ok units') : Extends units units' made := by
  have h : Extends units units' ([] ++ made.flatMap ([·])) :=
    foldlM_collects hu (refl units) fun entry he _ _ _ hs h => h.enter (hn entry he) hs
  rwa [List.flatMap_singleton', List.nil_append] at h

-- All that is known of a name is equal to what it stands for in the end.
theorem not_conflicts (h : Extends units units' made) (n : String) : ¬Conflicts units made n := by
  rintro ⟨u, hu, hv⟩
  obtain ⟨w, hw, huw⟩ := h.entered hu
  have hwu := BaseForm.equal_symm huw
  rcases hv with ⟨v, hv, hne⟩ | ⟨v, hv, hne⟩
  case inl =>
    obtain ⟨w', hw', hvw⟩ := h.kept hv
    cases hw.symm.trans hw'
    cases hvw
    case inl heq => exact hne (heq ▸ hwu)
    case inr hvw => exact hne (BaseForm.equal_trans hvw hwu)
  case inr =>
    obtain ⟨w', hw', hvw⟩ := h.entered hv
    cases hw.symm.trans hw'
    exact hne (BaseForm.equal_trans hvw hwu)

end Extends

theorem enter_error (h : enter symbol replace units entry = .error e) : e = .conflict entry.1 symbol := by
  rw [enter] at h
  split at h
  case isTrue => contradiction
  case isFalse =>
    cases h
    rfl

-- The entry that is refused names the conflict: the form that stands in its way was in the table before or came with
-- the entries.
theorem conflicts_of_enterAll_error (h : enterAll units d replace = .error e) :
    ∃ n, e = .conflict n d.symbol ∧ Conflicts units d.expand n := by
  obtain ⟨before, entry, after, s, hsplit, hbefore, hentry⟩ := exists_of_foldlM_error h
  obtain ⟨u, hu, hne⟩ := exists_of_enter_error hentry
  have hmem : (entry.1, entry.2) ∈ d.expand := by simp [hsplit]
  refine ⟨entry.1, enter_error hentry, entry.2, hmem, ?_⟩
  rw [getElem?_enterEach hbefore] at hu
  rcases Option.or_eq_some_iff.1 hu with hlast | ⟨-, hold⟩
  case inl =>
    refine .inr ⟨u, ?_, hne⟩
    rw [hsplit]
    exact List.mem_append_left _ (mem_of_lastForm hlast)
  case inr => exact .inl ⟨u, hold, hne⟩

-- What is expected of the registration of a definition in a registry that is not frozen.
structure Enrols (r : Registry Float) (d : Definition Float) (replace : Bool)
    (o : Outcome Float (Registry Float) Unit) : Prop where
  isOk_iff : o.result.isOk ↔ replace ∨ ∀ n, ¬Conflicts r.units d.expand n
  refused {e : Error} : o.result = .error e →
    o.state = r ∧ ∃ n, e = .conflict n d.symbol ∧ Conflicts r.units d.expand n
  version_eq : o.result.isOk → o.state.version = r.version + 1
  find?_last {before after : List Entry} {n : String} {u : BaseForm Float} : o.result.isOk →
    d.expand = before ++ (n, u) :: after → (∀ v, (n, v) ∉ after) → o.state.find? n = some u
  find?_other {n : String} : o.result.isOk → (∀ u, (n, u) ∉ d.expand) → o.state.find? n = r.find? n
  kept {n : String} {u : BaseForm Float} : o.result.isOk → replace = false → r.find? n = some u →
    ∃ v, o.state.find? n = some v ∧ (v = u ∨ u.equal v)
  entered {n : String} {u : BaseForm Float} : o.result.isOk → replace = false → (n, u) ∈ d.expand →
    ∃ v, o.state.find? n = some v ∧ u.equal v

theorem Enrols.of_enterAll_ok (hn : ∀ entry ∈ d.expand, entry.2.isNumeric)
    (h : enterAll r.units d replace = .ok units) {events : List (Event Float)} :
    Enrols r d replace ⟨.ok (), r.commit units, events⟩ where
  isOk_iff := by
    refine iff_of_true rfl ?_
    cases replace
    case true => exact .inl rfl
    case false => exact .inr (Extends.enterEach hn h).not_conflicts
  refused hr := by contradiction
  version_eq _ := rfl
  find?_last {before after n u} _ hsplit ha := by
    have hlast : lastForm n d.expand = some u := hsplit ▸ lastForm_of_notMem_after before ha
    exact (getElem?_enterEach h n).trans (by rw [hlast, Option.some_or])
  find?_other {n} _ ha := (getElem?_enterEach h n).trans (by rw [lastForm_eq_none ha, Option.none_or]; rfl)
  kept _ hr hu := by
    subst hr
    exact (Extends.enterEach hn h).kept hu
  entered _ hr hu := by
    subst hr
    exact (Extends.enterEach hn h).entered hu

theorem Enrols.of_enterAll_error (h : enterAll r.units d replace = .error e) {events : List (Event Float)} :
    Enrols r d replace ⟨.error e, r, events⟩ where
  isOk_iff := by
    refine iff_of_false Bool.false_ne_true ?_
    obtain ⟨n, -, hn⟩ := conflicts_of_enterAll_error h
    rintro (hr | hc)
    case inl =>
      obtain ⟨units, hunits⟩ := enterAll_replace r.units d
      rw [hr, hunits] at h
      contradiction
    case inr => exact hc n hn
  refused hr := by
    cases hr
    exact ⟨rfl, conflicts_of_enterAll_error h⟩
  version_eq hr := absurd hr Bool.false_ne_true
  find?_last hr := absurd hr Bool.false_ne_true
  find?_other hr := absurd hr Bool.false_ne_true
  kept hr := absurd hr Bool.false_ne_true
  entered hr := absurd hr Bool.false_ne_true

-- A definition is entered with all of its names or not at all, and never changes what a name stands for unless it is
-- meant to.
theorem register_enrols (replace : Bool) (hf : r.frozen = false) (hn : ∀ entry ∈ d.expand, entry.2.isNumeric) :
    Enrols r d replace (register d replace r) := by
  cases h : enterAll r.units d replace
  case ok units =>
    rw [register_ok hf h]
    exact .of_enterAll_ok hn h
  case error e =>
    rw [register_error hf h]
    exact .of_enterAll_error h

-- A registry in which a prefixed name of the metre stands for something else.
def milliner : Registry Float where
  units := (∅ : UnitTable Float).insert "mm" ⟨0, 1, 0, "mm", .composed⟩
  version := 1
  frozen := false

def prefixedMetre : Definition Float :=
  { metreUnit with longNames := ["metre"], siPrefixes := [.kilo, .milli], linear := .inr (by decide +kernel) }

theorem register_enrols_prefixedMetre :
    let o := register prefixedMetre false milliner
    let o' := register prefixedMetre true milliner
    milliner.frozen = false ∧ (∀ entry ∈ prefixedMetre.expand, entry.2.isNumeric) ∧
      o.result = .error (.conflict "mm" "m") ∧ Enrols milliner prefixedMetre false o ∧
      o'.result = .ok () ∧ Enrols milliner prefixedMetre true o' := by
  intro o o'
  have hn : ∀ entry ∈ prefixedMetre.expand, entry.2.isNumeric := by decide +kernel
  exact ⟨rfl, hn, rfl, register_enrols false rfl hn, rfl, register_enrols true rfl hn⟩

end Registry

end Metrology
