import Mathlib.Algebra.Ring.Rat
import Mathlib.Data.List.Infix
import Metrology.Proofs.Registry.Changes
import Metrology.Proofs.Registry.Entries
import Metrology.Registries
import Metrology.Scalar.Binary64
import Metrology.Scalar.Exact

/-!
Histories of registries: runs in which registries are built, copied, changed and read. The version of a registry
counts its changes, a step that fails changes nothing, a frozen registry stays as it is and registries do not
disturb each other. One failure is too late for that: a definition by a form without a symbol is reported by the
dimensions of the form, and if these are too long to be written, the unit is there already.
-/

namespace Metrology

variable {α σ β γ : Type}

def Outcome.map (f : β → γ) (o : Outcome α σ β) : Outcome α σ γ :=
  { o with result := o.result.map f }

namespace Registry

-- What one can learn from a registry.
inductive Reading
  | lookup (name : String)
  | contains (name : String)
  | names
  | size
  | version
  | frozen
  | describe
  | reduce (text : String)
  | reduceExpression (e : Expression)

inductive Reply (α : Type)
  | unit (u : BaseForm α)
  | truth (b : Bool)
  | number (n : Nat)
  | text (s : String)
  | names (names : List String)
  | done

variable [Scalar α]

def Reading.run (r : Registry α) : Reading → Action α (Registry α) (Reply α)
  | lookup name => return .unit (← Action.ofExcept (r.lookup name))
  | contains name => return .truth (r.contains name)
  | names => return .names r.names
  | size => return .number r.size
  | version => return .number r.version
  | frozen => return .truth r.frozen
  | describe => return .text r.describe
  | reduce text => return .unit (← r.reducing text)
  | reduceExpression e => return .unit (← Action.ofExcept (r.reduce e))

def Change.run : Change α → Action α (Registry α) (Reply α)
  | define name meaning factor offset replace => return .unit (← Registry.define name meaning factor offset replace)
  | register definition replace => do
    Registry.register definition replace
    return .done
  | freeze => do
    Action.modify Registry.freeze
    return .done

-- Whether the change enters units.
def Change.isEntry : Change α → Bool
  | define .. | register .. => true
  | freeze => false

-- Whether the report of the change can be written.
def Change.isReportable : Change α → Bool
  | define _ meaning _ _ _ => meaning.requireLabel.isOk
  | _ => true

inductive Request (α : Type) [Scalar α]
  | read (q : Reading)
  | change (c : Change α)

namespace Request

def run : Request α → Action α (Registry α) (Reply α)
  | read q => do q.run (← Action.get)
  | change c => c.run

def isEntry : Request α → Bool
  | read _ => false
  | change c => c.isEntry

def isReportable : Request α → Bool
  | read _ => true
  | change c => c.isReportable

end Request

end Registry

namespace Registries

inductive Reply (α : Type)
  | place (n : Nat)
  | ofRegistry (reply : Registry.Reply α)

inductive Step (α : Type) [Scalar α]
  | build (definitions : List (Definition α)) (frozen : Bool)
  | copy (place : Nat)
  | request (place : Nat) (q : Registry.Request α)

variable [Scalar α]

namespace Step

-- There is no outcome if there is no registry at the place.
def run (rs : Registries α) : Step α → Option (Outcome α (Registries α) (Reply α))
  | build definitions frozen => some ((rs.build definitions frozen).map .place)
  | copy place => (rs.copy place).map (·.map .place)
  | request place q => (rs.on place q.run).map (·.map .ofRegistry)

def after (rs : Registries α) (step : Step α) : Registries α :=
  ((step.run rs).map (·.state)).getD rs

def succeeds (rs : Registries α) (step : Step α) : Bool :=
  (step.run rs).any (·.result.isOk)

-- Whether the step is made on the registry at a place.
def isAt (place : Nat) : Step α → Bool
  | build .. | copy _ => false
  | request other _ => other = place

-- Whether the step enters units into the registry at a place, if it succeeds.
def isEntryAt (place : Nat) : Step α → Bool
  | build .. | copy _ => false
  | request other q => other = place ∧ q.isEntry

def isReportable : Step α → Bool
  | build .. | copy _ => true
  | request _ q => q.isReportable

end Step

def run (rs : Registries α) (steps : List (Step α)) : Registries α :=
  steps.foldl Step.after rs

-- How many definitions and registrations on the registry at a place succeed.
def entryCount (place : Nat) (rs : Registries α) : List (Step α) → Nat
  | [] => 0
  | step :: rest =>
    (if step.isEntryAt place ∧ step.succeeds rs then 1 else 0) + entryCount place (step.after rs) rest

-- What is expected of the registries in every run that begins with none.
structure Orderly (steps : List (Step α)) : Prop where
  version_eq {first} {place : Nat} {r : Registry α} : first <+: steps → (run [] first)[place]? = some r →
    r.version = entryCount place [] first
  refused_eq {first step o} : first ++ [step] <+: steps → step.run (run [] first) = some o →
    o.result.isOk = false → o.state = run [] first
  frozen_eq {first later} {place : Nat} {r : Registry α} : first <+: later → later <+: steps →
    (run [] first)[place]? = some r → r.frozen → (run [] later)[place]? = some r
  other_eq {first step} {place : Nat} {r : Registry α} : first ++ [step] <+: steps → step.isAt place = false →
    (run [] first)[place]? = some r → (run [] (first ++ [step]))[place]? = some r
  lookup_eq {first second} {place : Nat} {r r' : Registry α} : first <+: steps → second <+: steps →
    (run [] first)[place]? = some r → (run [] second)[place]? = some r' → r.version = r'.version →
    r.lookup = r'.lookup

end Registries

namespace Registry

variable [Scalar α] {r r' : Registry α}

theorem Reading.run_state (q : Reading) (s : Registry α) : (q.run r s).state = s := by
  cases q <;> simp only [run, Action.bind_state, Action.ofExcept_apply, Action.pure_apply, reducing_state] <;>
    split <;> rfl

theorem Change.run_state (c : Change α) : (c.run r).state = c.apply r := by
  cases c <;> simp only [run, apply, Action.bind_state, Action.pure_apply, Action.modify_apply] <;> split <;> rfl

-- A request that fails leaves the registry as it was, the others count its entries.
inductive Settles (r r' : Registry α) (isEntry : Bool) : Bool → Prop
  | refused (eq : r' = r) : Settles r r' isEntry false
  | done (version : r'.version = r.version + if isEntry then 1 else 0) : Settles r r' isEntry true

theorem Defines.settles {name : String} {meaning : Meaning α} {factor offset : Given α} {replace : Bool}
    {x : Except Error (BaseForm α)} (h : r.Defines name meaning factor offset replace x r')
    (hl : meaning.requireLabel.isOk) : Settles r r' true x.isOk := by
  cases h
  case refused => exact .refused rfl
  case entered =>
    cases hx : meaning.requireLabel
    case error => simp [hx, Except.isOk, Except.toBool] at hl
    case ok => exact .done rfl

theorem Registers.settles {d : Definition α} {replace : Bool} {x : Except Error Unit}
    (h : r.Registers d replace x r') : Settles r r' true x.isOk := by
  cases h
  case refused => exact .refused rfl
  case entered => exact .done rfl

omit [Scalar α] in
theorem isOk_bind_ok (x : Except Error β) (f : β → γ) : (x.bind fun b => .ok (f b)).isOk = x.isOk := by
  cases x <;> rfl

theorem Change.run_settles {c : Change α} (h : c.isReportable) :
    Settles r (c.run r).state c.isEntry (c.run r).result.isOk := by
  rw [run_state]
  cases c
  case define name meaning factor offset replace =>
    simp only [run, Action.bind_result, Action.pure_apply, isOk_bind_ok]
    exact (define_defines ..).settles h
  case register d replace =>
    simp only [run, Action.bind_result, Action.pure_apply, isOk_bind_ok]
    exact (register_registers ..).settles
  case freeze => exact .done rfl

namespace Request

theorem run_read_state (q : Reading) (r : Registry α) : ((read q).run r).state = r := by
  rw [run, Action.bind_state]
  exact Reading.run_state q r

theorem run_follows (q : Request α) : r.Follows (q.run r).state := by
  cases q
  case read q => exact (run_read_state q r).symm ▸ .refl r
  case change c => exact (Change.run_state c).symm ▸ c.apply_follows

theorem run_settles {q : Request α} (h : q.isReportable) :
    Settles r (q.run r).state q.isEntry (q.run r).result.isOk := by
  cases q
  case read q =>
    rw [run_read_state]
    cases ((read q : Request α).run r).result.isOk
    case false => exact .refused rfl
    case true => exact .done rfl
  case change c => exact Change.run_settles h

end Request

end Registry

namespace Registries

variable [Scalar α] {rs : Registries α} {step : Step α} {place : Nat} {r r' : Registry α}

-- The version of the registry at a place; one that is not there yet will begin with version zero.
def versionAt (rs : Registries α) (place : Nat) : Nat :=
  (rs[place]?).elim 0 (·.version)

-- New registries go behind the others.
inductive Grows (rs : Registries α) : Registries α → Prop
  | same : Grows rs rs
  | new (r : Registry α) (version : r.version = 0) : Grows rs (rs ++ [r])

namespace Grows

variable {rs' : Registries α}

omit [Scalar α]

theorem getElem?_eq (h : Grows rs rs') (hr : rs[place]? = some r) : rs'[place]? = some r := by
  cases h
  case same => exact hr
  case new => rw [List.getElem?_append_left (List.getElem?_eq_some_iff.1 hr).1, hr]

theorem versionAt_eq (h : Grows rs rs') (place : Nat) : rs'.versionAt place = rs.versionAt place := by
  cases h
  case same => rfl
  case new r hv =>
    rw [versionAt, versionAt, List.getElem?_append]
    split
    case isTrue => rfl
    case isFalse hlt =>
      rw [List.getElem?_eq_none (Nat.le_of_not_lt hlt)]
      cases place - rs.length
      case zero => exact hv
      case succ => rfl

end Grows

namespace Step

theorem build_grows (definitions : List (Definition α)) (frozen : Bool) :
    Grows rs ((build definitions frozen).after rs) := by
  simp only [after, run, Registries.build, Option.map_some, Option.getD_some]
  cases hb : Registry.build definitions frozen
  case error => exact .same
  case ok r => exact .new r (Registry.build_ok hb).2.1

theorem copy_grows (other : Nat) : Grows rs ((copy other).after rs) := by
  simp only [after, run, Registries.copy]
  cases rs[other]?
  case none => exact .same
  case some r => exact .new r.copy rfl

theorem after_request (other : Nat) (q : Registry.Request α) :
    (request other q).after rs = rs.modify other fun r => (q.run r).state := by
  simp only [after, run, on]
  cases h : rs[other]? <;> simp [List.modify_eq_set_getElem?, h, Outcome.map]

theorem succeeds_request (hr : rs[place]? = some r) (q : Registry.Request α) :
    (request place q).succeeds rs = (q.run r).result.isOk := by
  simp only [succeeds, run, on, hr, Option.map_some, Option.any_some, Outcome.map]
  cases (q.run r).result <;> rfl

theorem getElem?_after (hr : rs[place]? = some r) (h : step.isAt place = false) : (step.after rs)[place]? = some r := by
  cases step
  case build definitions frozen => exact (build_grows ..).getElem?_eq hr
  case copy other => exact (copy_grows other).getElem?_eq hr
  case request other q =>
    have hne : other ≠ place := by simpa [isAt] using h
    rw [after_request, List.getElem?_modify_ne _ _ hne, hr]

theorem after_follows (hr : rs[place]? = some r) (step : Step α) :
    ∃ r', (step.after rs)[place]? = some r' ∧ r.Follows r' := by
  cases h : step.isAt place
  case false => exact ⟨r, getElem?_after hr h, .refl r⟩
  case true =>
    cases step
    case build | copy => contradiction
    case request other q =>
      have he : other = place := by simpa [isAt] using h
      subst he
      refine ⟨_, ?_, q.run_follows⟩
      rw [after_request, List.getElem?_modify_eq, hr]
      rfl

-- A step that fails leaves every registry as it was.
theorem after_refused (h : step.isReportable) (hs : step.succeeds rs = false) : step.after rs = rs := by
  cases step
  case build definitions frozen =>
    simp only [succeeds, after, run, Registries.build] at hs ⊢
    cases hb : Registry.build definitions frozen <;> simp_all [Outcome.map, Except.map, Except.isOk, Except.toBool]
  case copy other =>
    simp only [succeeds, after, run, Registries.copy] at hs ⊢
    cases hr : rs[other]? <;> simp_all [Outcome.map, Except.map, Except.isOk, Except.toBool]
  case request other q =>
    rw [after_request]
    cases hr : rs[other]?
    case none => exact List.modify_eq_self (List.getElem?_eq_none_iff.1 hr)
    case some r =>
      rw [succeeds_request hr] at hs
      have hq := q.run_settles (r := r) h
      rw [hs] at hq
      cases hq
      case refused he =>
        obtain ⟨hlt, rfl⟩ := List.getElem?_eq_some_iff.1 hr
        simp [List.modify_eq_set_getElem?, hlt, he]

end Step

-- Only an entry that succeeds makes a new version, and only of its own registry.
theorem versionAt_after (h : step.isReportable) (place : Nat) :
    (step.after rs).versionAt place =
      rs.versionAt place + if step.isEntryAt place ∧ step.succeeds rs then 1 else 0 := by
  cases step
  case build definitions frozen => exact (Step.build_grows ..).versionAt_eq place
  case copy other => exact (Step.copy_grows other).versionAt_eq place
  case request other q =>
    rw [Step.after_request]
    by_cases hne : other = place
    case neg => simp [versionAt, List.getElem?_modify_ne _ _ hne, Step.isEntryAt, hne]
    case pos =>
      subst hne
      cases hr : rs[other]?
      case none => simp [versionAt, List.getElem?_modify_eq, hr, Step.succeeds, Step.run, on]
      case some r =>
        have hq := q.run_settles (r := r) h
        simp only [versionAt, List.getElem?_modify_eq, hr, Step.succeeds_request hr]
        cases hk : (q.run r).result.isOk <;> rw [hk] at hq <;> cases hq
        case refused he => simp [he]
        case done hv => simp [hv, Step.isEntryAt]

theorem run_version {steps : List (Step α)} (h : ∀ step ∈ steps, step.isReportable) (rs : Registries α)
    (place : Nat) : (run rs steps).versionAt place = rs.versionAt place + entryCount place rs steps := by
  induction steps generalizing rs
  case nil => rfl
  case cons step rest hi =>
    obtain ⟨hs, hrest⟩ := List.forall_mem_cons.1 h
    rw [run, List.foldl_cons, ← run, hi hrest, versionAt_after hs, entryCount, Nat.add_assoc]

theorem run_follows (hr : rs[place]? = some r) (steps : List (Step α)) :
    ∃ r', (run rs steps)[place]? = some r' ∧ r.Follows r' := by
  induction steps generalizing rs r
  case nil => exact ⟨r, hr, .refl r⟩
  case cons step rest hi =>
    obtain ⟨r', hr', hf⟩ := Step.after_follows hr step
    obtain ⟨r'', hr'', hf'⟩ := hi hr'
    exact ⟨r'', hr'', hf.trans hf'⟩

theorem run_follows_of_prefix {first later : List (Step α)} (h : first <+: later)
    (hr : (run rs first)[place]? = some r) : ∃ r', (run rs later)[place]? = some r' ∧ r.Follows r' := by
  obtain ⟨rest, rfl⟩ := h
  rw [run, List.foldl_append]
  exact run_follows hr rest

-- Whenever two moments of a run show the same version of a registry, they show the same units.
theorem units_eq_of_version_eq {first second steps : List (Step α)} (hf : first <+: steps) (hs : second <+: steps)
    (hr : (run rs first)[place]? = some r) (hr' : (run rs second)[place]? = some r') (hv : r.version = r'.version) :
    r.units = r'.units := by
  cases List.prefix_or_prefix_of_prefix hf hs
  case inl h =>
    obtain ⟨_, he, h⟩ := run_follows_of_prefix h hr
    rw [he, Option.some.injEq] at hr'
    subst hr'
    exact (h.units_eq hv.symm).symm
  case inr h =>
    obtain ⟨_, he, h⟩ := run_follows_of_prefix h hr'
    rw [he, Option.some.injEq] at hr
    subst hr
    exact h.units_eq hv

theorem run_orderly {steps : List (Step α)} (h : ∀ step ∈ steps, step.isReportable) : Orderly steps where
  version_eq {first place r} hf hr := by
    have hv := run_version (fun step hs => h step (hf.subset hs)) [] place
    simpa [versionAt, hr] using hv
  refused_eq {first step o} hf ho he := by
    have hs : step.succeeds (run [] first) = false := by simp [Step.succeeds, ho, he]
    have ha := Step.after_refused (h step (hf.subset (by simp))) hs
    simpa [Step.after, ho] using ha
  frozen_eq {first later place r} hf hl hr hz := by
    obtain ⟨r', hr', hr''⟩ := run_follows_of_prefix hf hr
    rw [hr', hr''.eq_of_frozen hz]
  other_eq {first step place r} hf ha hr := by
    rw [run, List.foldl_concat]
    exact Step.getElem?_after hr ha
  lookup_eq {first second place r r'} hf hs hr hr' hv := by
    funext name
    rw [Registry.lookup, Registry.lookup, Registry.find?, Registry.find?, units_eq_of_version_eq hf hs hr hr' hv]

-- A registry that gets a unit, a copy of it that is frozen, and the unit once more in both.
def twoRegistries : List (Step Rat) :=
  let metre : Registry.Request Rat :=
    .change (.define "m" (.form ⟨.single .length, 1, 0, "", .composed⟩) (.integer 1) (.integer 0) true)
  [.build [] false, .request 0 metre, .copy 0, .request 1 (.change .freeze), .request 0 metre, .request 1 metre]

theorem twoRegistries_orderly : (∀ step ∈ twoRegistries, step.isReportable) ∧ Orderly twoRegistries := by
  have h : ∀ step ∈ twoRegistries, step.isReportable := by decide +kernel
  exact ⟨h, run_orderly h⟩

example : (run [] twoRegistries).map (fun r => (r.version, r.frozen)) = [(2, false), (0, true)] := by
  decide +kernel

-- A unit is defined by a form whose dimensions are too long to be written: the definition fails, the unit is there.
def lateFailure : List (Step Float) :=
  [.build [] false,
    .request 0 (.change (.define "x" (.form ⟨.scale (1 / 10 ^ 5000) (.single .length), 1, 0, "", .composed⟩)
      (.scalar 1) (.scalar 0) false))]

theorem lateFailure_not_orderly : ¬ Orderly lateFailure := by
  intro h
  have hlate : (lateFailure[1].run (run [] [lateFailure[0]])).map (fun o => (o.result.isOk, o.state.map (·.version))) =
      some (false, [1]) := by
    decide +kernel
  obtain ⟨o, ho, he⟩ := Option.map_eq_some_iff.1 hlate
  obtain ⟨hfailed, hversions⟩ := Prod.mk.inj he
  have hlast : [lateFailure[0]] ++ [lateFailure[1]] <+: lateFailure := List.prefix_refl _
  have hstate := h.refused_eq hlast ho hfailed
  rw [hstate] at hversions
  exact absurd hversions (by decide +kernel)

end Registries

end Metrology
