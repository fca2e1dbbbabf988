import Metrology.Proofs.Converter.Transparency
import Metrology.Proofs.Dimension.Signature
import Metrology.Proofs.Fallible
import Metrology.Scalar.Binary64

/-!
What a converter says about two texts that reduce: it compares their dimensions, shows them and refuses conversions
between different ones, and all three agree.
-/

namespace Metrology

variable {α β : Type} {settings : Settings} {r : Registry α} {u v : BaseForm α} {first second : String}

theorem BaseForm.compatible_eq (u v : BaseForm α) : u.compatible v = decide (u.signature = v.signature) := by
  have hiff : u.dimensions = v.dimensions ↔ u.signature = v.signature :=
    ⟨congrArg Dimensions.signature, Dimensions.signature_injective⟩
  simp only [compatible, ← hiff]
  rfl

variable [Scalar α]

-- A result that is refused for its dimensions.
def IsMismatch (x : Except Error β) : Prop :=
  ∃ source target shown shown', x = .error (.incompatible source target shown shown')

namespace IsMismatch

theorem not_arithmetic (x : Except ArithmeticFault β) : ¬IsMismatch (x.mapError .arithmetic) := by
  rintro ⟨_, _, _, _, h⟩
  cases x <;> cases h

theorem not_toScalar (value : Given α) : ¬IsMismatch value.toScalar := by
  rintro ⟨_, _, _, _, h⟩
  cases value
  case integer n => exact not_arithmetic _ ⟨_, _, _, _, h⟩
  case text s =>
    rw [Given.toScalar] at h
    split at h <;> cases h
  all_goals cases h

theorem not_bind {γ : Type} {x : Except Error β} {f : β → Except Error γ} (hx : ¬IsMismatch x)
    (hf : ∀ b, ¬IsMismatch (f b)) : ¬IsMismatch (x >>= f) := by
  rintro ⟨_, _, _, _, h⟩
  rcases bind_eq_error h with h | ⟨b, -, h⟩
  case inl => exact hx ⟨_, _, _, _, h⟩
  case inr => exact hf b ⟨_, _, _, _, h⟩

theorem not_ok (b : β) : ¬IsMismatch (.ok b : Except Error β) := by
  rintro ⟨_, _, _, _, h⟩
  cases h

end IsMismatch

-- Refused for its dimensions exactly if the condition holds, and never with two equal signatures.
structure RefusedIf (apart : Prop) (x : Except Error β) : Prop where
  isMismatch_iff : IsMismatch x ↔ apart
  ne {source target shown shown' : String} : x = .error (.incompatible source target shown shown') → shown ≠ shown'

namespace Converter.Fresh

-- What is done with two compatible units is of no account, if it is not refused by itself.
theorem refusedIf_reduceBoth (hu : r.reduceText first = .ok u) (hv : r.reduceText second = .ok v)
    {f : BaseForm α × BaseForm α → Except Error β} (hf : ∀ p, ¬IsMismatch (f p)) :
    RefusedIf (u.signature ≠ v.signature) (reduceBoth r first second >>= f) := by
  have hboth : reduceBoth r first second =
      if u.signature = v.signature then .ok (u, v)
      else .error (.incompatible first second u.signature v.signature) := by
    rw [reduceBoth, hu, hv]
    change (if !u.compatible v then _ else _) = _
    rw [BaseForm.compatible_eq]
    by_cases he : u.signature = v.signature
    case pos =>
      rw [if_pos he, decide_eq_true he]
      rfl
    case neg =>
      rw [if_neg he, decide_eq_false he]
      rfl
  rw [hboth]
  split
  case isTrue he =>
    constructor
    case isMismatch_iff => exact iff_of_false (hf (u, v)) (not_not_intro he)
    case ne => exact fun h => absurd ⟨_, _, _, _, h⟩ (hf (u, v))
  case isFalse hne =>
    constructor
    case isMismatch_iff => exact iff_of_true ⟨_, _, _, _, rfl⟩ hne
    case ne =>
      intro _ _ _ _ h
      cases h
      exact hne

theorem refusedIf_conversionFactor (hu : r.reduceText first = .ok u) (hv : r.reduceText second = .ok v) :
    RefusedIf (u.signature ≠ v.signature) (conversionFactor settings r first second) := by
  apply refusedIf_reduceBoth hu hv
  rintro ⟨u, v⟩
  exact IsMismatch.not_bind (IsMismatch.not_arithmetic _) fun _ => IsMismatch.not_ok _

theorem refusedIf_convertValue (hu : r.reduceText first = .ok u) (hv : r.reduceText second = .ok v) (value : Given α) :
    RefusedIf (u.signature ≠ v.signature) (convertValue settings r value first second) := by
  apply refusedIf_reduceBoth hu hv
  rintro ⟨u, v⟩
  refine IsMismatch.not_bind (IsMismatch.not_toScalar value) fun _ => ?_
  exact IsMismatch.not_bind (IsMismatch.not_arithmetic _) fun _ => IsMismatch.not_ok _

theorem isCompatible_eq (hu : r.reduceText first = .ok u) (hv : r.reduceText second = .ok v) :
    isCompatible r first second = .ok (decide (u.signature = v.signature)) := by
  rw [isCompatible, hu, hv, ← BaseForm.compatible_eq]
  rfl

end Converter.Fresh

namespace Session

open Converter

-- What a session says about two texts: both have signatures, the texts are compatible exactly if these are the same,
-- and conversions are refused for their dimensions exactly if they are not.
structure Compares (s : Session α) (first second : String) : Prop where
  isCompatible_iff : ∃ shown shown', (dimensions s.registry first s.converter).result = .ok shown ∧
    (dimensions s.registry second s.converter).result = .ok shown' ∧
    (isCompatible s.registry first second s.converter).result = .ok (decide (shown = shown'))
  conversionFactor : RefusedIf ((isCompatible s.registry first second s.converter).result = .ok false)
    (conversionFactor s.registry first second s.converter).result
  convertValue (value : Given α) : RefusedIf ((isCompatible s.registry first second s.converter).result = .ok false)
    (convertValue s.registry value first second s.converter).result

theorem Faithful.compares {s : Session α} (h : s.Faithful settings) (hu : s.registry.reduceText first = .ok u)
    (hv : s.registry.reduceText second = .ok v) : s.Compares first second := by
  have hdimensions {text : String} {w : BaseForm α} (hw : s.registry.reduceText text = .ok w) :
      (dimensions s.registry text s.converter).result = .ok w.signature := by
    rw [(Agrees.dimensions text _ h).1, Fresh.dimensions, hw]
    rfl
  have hcompatible : (isCompatible s.registry first second s.converter).result =
      .ok (decide (u.signature = v.signature)) := by
    rw [(Agrees.isCompatible first second _ h).1, Fresh.isCompatible_eq hu hv]
  have hapart : (isCompatible s.registry first second s.converter).result = .ok false ↔ u.signature ≠ v.signature := by
    rw [hcompatible, Except.ok.injEq, decide_eq_false_iff_not]
  constructor
  case isCompatible_iff => exact ⟨_, _, hdimensions hu, hdimensions hv, hcompatible⟩
  case conversionFactor =>
    rw [hapart, (Agrees.conversionFactor first second _ h).1]
    exact Fresh.refusedIf_conversionFactor hu hv
  case convertValue =>
    intro value
    rw [hapart, (Agrees.convertValue value first second _ h).1]
    exact Fresh.refusedIf_convertValue hu hv value

-- After any run, compatibility, signatures and refusals of two texts that reduce agree; for no two dimensions have the
-- same signature.
theorem compares_of_reduces (settings : Settings) (r : Registry α) (steps : List (Step α)) (first second : String)
    (hfirst : ((steps.foldl step (start settings r)).registry.reduceText first).isOk)
    (hsecond : ((steps.foldl step (start settings r)).registry.reduceText second).isOk) :
    (steps.foldl step (start settings r)).Compares first second ∧
      ∀ v w : Dimensions, v.signature = w.signature → v = w := by
  have hs : (steps.foldl step (start settings r)).Faithful settings :=
    Faithful.foldl_step (s := start settings r) .create steps
  refine ⟨?_, fun _ _ => Dimensions.signature_injective⟩
  cases hu : (steps.foldl step (start settings r)).registry.reduceText first
  case error => simp [hu, Except.isOk, Except.toBool] at hfirst
  case ok u =>
    cases hv : (steps.foldl step (start settings r)).registry.reduceText second
    case error => simp [hv, Except.isOk, Except.toBool] at hsecond
    case ok v => exact hs.compares hu hv

-- A unit of length and one of time, defined one after the other in an empty registry.
def metreThenSecond : List (Step Float) :=
  [.change (.define "m" (.form ⟨.single .length, 1, 0, "m", .composed⟩) (.integer 1) (.integer 0) false),
    .change (.define "s" (.form ⟨.single .time, 1, 0, "s", .composed⟩) (.integer 1) (.integer 0) false)]

theorem compares_of_reduces_speed :
    let s := metreThenSecond.foldl step (start .standard .empty)
    (s.registry.reduceText "m/s").isOk ∧ (s.registry.reduceText "m").isOk ∧ s.Compares "m/s" "m" := by
  intro s
  have hfirst : (s.registry.reduceText "m/s").isOk := by decide +kernel
  have hsecond : (s.registry.reduceText "m").isOk := by decide +kernel
  exact ⟨hfirst, hsecond, (compares_of_reduces .standard .empty metreThenSecond "m/s" "m" hfirst hsecond).1⟩

end Session

end Metrology
