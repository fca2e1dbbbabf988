import Metrology.Proofs.Converter.Session
import Metrology.Proofs.Fallible

/-!
What a change can do to a registry. A definition or a registration is refused and leaves the registry as it was, or
the registry is not frozen and its next version has the new units.
-/

namespace Metrology.Registry

variable {α σ : Type} [Scalar α] {r r' r'' : Registry α}

-- The form that a meaning stands for.
def Meaning.base (r : Registry α) : Meaning α → Except Error (BaseForm α)
  | text t => r.reduceText t
  | form unit => .ok unit

theorem reducing_result (text : String) (s : σ) : (r.reducing text s).result = r.reduceText text := by
  simp only [reducing, Action.bind_result, Action.ofExcept_apply]
  cases r.reduceText text <;> rfl

theorem reducing_state (text : String) (s : σ) : (r.reducing text s).state = s := by
  simp only [reducing, Action.bind_state, Action.ofExcept_apply]
  cases r.reduceText text <;> rfl

namespace Meaning

theorem resolve_result (m : Meaning α) (s : σ) : (m.resolve r s).result = m.base r := by
  cases m
  case form => rfl
  case text t => exact reducing_result t s

theorem resolve_state (m : Meaning α) (s : σ) : (m.resolve r s).state = s := by
  cases m
  case form => rfl
  case text t => exact reducing_state t s

end Meaning

omit [Scalar α] in
theorem frozen_eq_false_of_requireMutable (h : r.requireMutable = .ok ()) : r.frozen = false := by
  rw [requireMutable] at h
  split at h
  case isTrue => contradiction
  case isFalse hf => exact Bool.eq_false_iff.2 hf

-- The form that a definition enters, unless something stands in its way.
def newForm (r : Registry α) (name : String) (meaning : Meaning α) (factor offset : Given α) (replace : Bool) :
    Except Error (BaseForm α) :=
  if !isValidName name then .error (.invalidName name) else do
  r.requireMutable
  if r.contains name ∧ !replace then .error (.alreadyDefined name) else
  definedForm name (← meaning.base r) factor offset

theorem newForm_ok {name : String} {meaning : Meaning α} {factor offset : Given α} {replace : Bool} {v : BaseForm α}
    (h : newForm r name meaning factor offset replace = .ok v) :
    isValidName name ∧ r.frozen = false ∧ (r.contains name → replace) ∧
      ∃ u, meaning.base r = .ok u ∧ definedForm name u factor offset = .ok v := by
  rw [newForm] at h
  split at h
  case isTrue => contradiction
  case isFalse hvalid =>
    obtain ⟨_, hm, h⟩ := exists_of_bind_ok h
    split at h
    case isTrue => contradiction
    case isFalse hfree =>
      obtain ⟨u, hu, h⟩ := exists_of_bind_ok h
      exact ⟨by simpa using hvalid, frozen_eq_false_of_requireMutable hm, by simpa using hfree, u, hu, h⟩

-- A definition answers with the form that it enters. Once that is there, all that can still go wrong is the report.
theorem define_eq (name : String) (meaning : Meaning α) (factor offset : Given α) (replace : Bool) :
    (define name meaning factor offset replace r).result =
        (newForm r name meaning factor offset replace).bind (fun v => meaning.requireLabel.map fun _ => v) ∧
      (define name meaning factor offset replace r).state =
        (newForm r name meaning factor offset replace).toOption.elim r (fun v => r.commit (r.units.insert name v)) := by
  unfold define newForm
  split
  case isTrue => exact ⟨rfl, rfl⟩
  case isFalse =>
    simp only [Action.bind_result, Action.bind_state, Action.get_apply, Action.ofExcept_apply, Except.bind]
    cases r.requireMutable
    case error => exact ⟨rfl, rfl⟩
    case ok =>
      by_cases hfree : r.contains name ∧ !replace
      case pos =>
        simp only [if_pos hfree]
        exact ⟨rfl, rfl⟩
      case neg =>
        simp only [if_neg hfree, Action.bind_result, Action.bind_state, Meaning.resolve_result, Meaning.resolve_state,
          Except.bind]
        cases meaning.base r
        case error => exact ⟨rfl, rfl⟩
        case ok u =>
          simp only [Action.ofExcept_apply, Action.modify_apply, bind, Except.bind]
          cases definedForm name u factor offset
          case error => exact ⟨rfl, rfl⟩
          case ok => cases meaning.requireLabel <;> exact ⟨rfl, rfl⟩

-- The answer of a definition and the registry that it leaves behind.
inductive Defines (r : Registry α) (name : String) (meaning : Meaning α) (factor offset : Given α) (replace : Bool) :
    Except Error (BaseForm α) → Registry α → Prop
  | refused (e : Error) : Defines r name meaning factor offset replace (.error e) r
  | entered (valid : isValidName name) (unfrozen : r.frozen = false) (free : r.contains name → replace)
    (base : meaning.base r = .ok u) (form : definedForm name u factor offset = .ok v) :
    Defines r name meaning factor offset replace (meaning.requireLabel.map fun _ => v)
      (r.commit (r.units.insert name v))

theorem define_defines (name : String) (meaning : Meaning α) (factor offset : Given α) (replace : Bool) :
    Defines r name meaning factor offset replace (define name meaning factor offset replace r).result
      (define name meaning factor offset replace r).state := by
  obtain ⟨hresult, hstate⟩ := define_eq (r := r) name meaning factor offset replace
  rw [hresult, hstate]
  cases h : newForm r name meaning factor offset replace
  case error e => exact .refused e
  case ok v =>
    obtain ⟨hvalid, hfrozen, hfree, u, hu, hv⟩ := newForm_ok h
    exact .entered hvalid hfrozen hfree hu hv

-- The same for a definition with all of its names.
inductive Registers (r : Registry α) (d : Definition α) (replace : Bool) : Except Error Unit → Registry α → Prop
  | refused (e : Error) : Registers r d replace (.error e) r
  | entered (unfrozen : r.frozen = false) (units : enterAll r.units d replace = .ok table) :
    Registers r d replace (.ok ()) (r.commit table)

theorem register_registers (d : Definition α) (replace : Bool) :
    Registers r d replace (register d replace r).result (register d replace r).state := by
  simp only [register, Action.bind_result, Action.bind_state, Action.get_apply, Action.ofExcept_apply, Except.bind]
  cases hm : r.requireMutable
  case error => exact .refused _
  case ok =>
    simp only
    cases hu : enterAll r.units d replace
    case error => exact .refused _
    case ok table => exact .entered (frozen_eq_false_of_requireMutable hm) hu

-- One registry at two moments: its version tells its units, and nothing happens to it once it is frozen.
structure Follows (r r' : Registry α) : Prop where
  version_le : r.version ≤ r'.version
  units_eq : r'.version = r.version → r'.units = r.units
  eq_of_frozen : r.frozen → r' = r

namespace Follows

omit [Scalar α]

theorem refl (r : Registry α) : r.Follows r :=
  ⟨Nat.le_refl _, fun _ => rfl, fun _ => rfl⟩

theorem trans (h : r.Follows r') (h' : r'.Follows r'') : r.Follows r'' := by
  have hle := h.version_le
  have hle' := h'.version_le
  refine ⟨by omega, ?_, ?_⟩
  case refine_1 =>
    intro hv
    rw [h'.units_eq (by omega), h.units_eq (by omega)]
  case refine_2 =>
    intro hf
    have := h.eq_of_frozen hf
    subst this
    exact h'.eq_of_frozen hf

theorem commit (h : r.frozen = false) (units : UnitTable α) : r.Follows (r.commit units) :=
  ⟨Nat.le_succ _, fun hv => absurd hv (Nat.succ_ne_self _), fun hf => by simp [h] at hf⟩

theorem freeze (r : Registry α) : r.Follows r.freeze := by
  refine ⟨Nat.le_refl _, fun _ => rfl, ?_⟩
  intro hf
  cases r
  simp_all [Registry.freeze]

end Follows

theorem Defines.follows {name : String} {meaning : Meaning α} {factor offset : Given α} {replace : Bool}
    {x : Except Error (BaseForm α)} (h : r.Defines name meaning factor offset replace x r') : r.Follows r' := by
  cases h
  case refused => exact .refl r
  case entered hu _ _ _ => exact .commit hu _

theorem Registers.follows {d : Definition α} {replace : Bool} {x : Except Error Unit}
    (h : r.Registers d replace x r') : r.Follows r' := by
  cases h
  case refused => exact .refl r
  case entered hu _ => exact .commit hu _

theorem Change.apply_follows (c : Change α) : r.Follows (c.apply r) := by
  cases c
  case define name meaning factor offset replace => exact (define_defines ..).follows
  case register d replace => exact (register_registers ..).follows
  case freeze => exact .freeze r

end Metrology.Registry
