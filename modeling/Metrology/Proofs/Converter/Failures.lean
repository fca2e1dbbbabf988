import Metrology.Proofs.Catalog.Factors
import Metrology.Proofs.Converter.Transparency
import Metrology.Proofs.Expression.Soundness
import Metrology.Proofs.Registry.Reduction

/-!
How conversions fail. Over the built-in units a conversion either fails for its expressions, with an error about units,
or for its numbers: for a numeral or an exponent that is too long, for a power that is too large, or for a target that
is so small that its factor is zero.
-/

namespace Metrology

open Expression

namespace Registry

-- What a reduction may fail for though nothing is wrong with its units.
inductive Overreaches (r : Registry Float) (text : String) : Error → Prop
  | numeral (ds : List Char) (ht : ds <:+: marked text.toList) (hd : ∀ c ∈ ds, Text.isDigit c)
    (h : DigitBound.standard.admits ds.length = false) : Overreaches r text (.numeralTooLong ds.length)
  | exponent {e : Expression} (hp : parse text = .ok e) (hq : q ∈ e.exponents)
    (h : DigitBound.standard.admitsRat q = false) : Overreaches r text .integerTooLong
  | dimension {e : Expression} (hp : parse text = .ok e) (d : BaseDimension)
    (h : DigitBound.standard.admitsRat (r.share d e.components) = false) : Overreaches r text .integerTooLong
  | power {e : Expression} (hp : parse text = .ok e) (hc : (n, q) ∈ e.components) (hu : r.find? n = some u)
    (h : Binary64.Raises u.factor q (.error f)) : Overreaches r text (.arithmetic f)

variable {e : Expression} {r : Registry Float} {t t' : Total Float} {text : String} {x : Error}

-- Powers of ordinary factors are real, and so is their product.
theorem isSome_factor {cs : List Component} {single : Bool} (hr : r.IsOrdinary)
    (h : cs.foldlM (r.addTerm single) t = .ok t') (ht : t.factor.isSome) : t'.factor.isSome := by
  refine foldlM_preserves (P := fun t => t.factor.isSome) h ht ?_
  intro c _ t t' h ht
  have ha := addTerm_adds (r := r) single t c.1 c.2
  rw [h] at ha
  cases ha
  case added u p hu hp _ =>
    have hraises := Binary64.power_raises (hr _ _ hu) c.2
    rw [hp] at hraises
    cases hraises
    obtain ⟨y, hy⟩ := Option.isSome_iff_exists.1 ht
    simp [hy]

theorem overreaches_of_refused (h : Refused .standard (marked text.toList) x) :
    x.isConversion ∨ r.Overreaches text x := by
  cases h
  case malformed => exact .inl rfl
  case tooLong ds ht hd hb => exact .inr (.numeral ds ht hd hb)

theorem overreaches_of_adds {single : Bool} {c : Component} (hr : r.IsOrdinary) (hp : parse text = .ok e)
    (hc : c ∈ e.components) (h : r.Adds single t c.1 c.2 (.error x)) : x.isConversion ∨ r.Overreaches text x := by
  cases h
  case unknown | misused => exact .inl rfl
  case fault u f hu hf =>
    have hraises := Binary64.power_raises (hr _ _ hu) c.2
    exact .inr (.power hp hc hu (hf ▸ hraises))

theorem overreaches_of_finishes (hr : r.IsOrdinary) (hp : parse text = .ok e)
    (ht : e.components.foldlM (r.addTerm e.isSingle) .start = .ok t) (h : Finishes e t (.error x)) :
    x.isConversion ∨ r.Overreaches text x := by
  cases h
  case notReal hn =>
    have hsome := isSome_factor hr ht rfl
    simp [hn] at hsome
  case tooLong q hq hlong =>
    cases hq
    case inl hq => exact .inr (.exponent hp hq hlong)
    case inr hq =>
      obtain ⟨d, -, rfl⟩ := List.mem_map.1 hq
      exact .inr (.dimension hp d (foldlM_addTerm_share ht d ▸ hlong))

theorem reduceText_overreaches (hr : r.IsOrdinary) (h : r.reduceText text = .error x) :
    x.isConversion ∨ r.Overreaches text x := by
  rcases bind_eq_error h with hp | ⟨e, hp, he⟩
  case inl => exact overreaches_of_refused (refused_of_parseWithin hp)
  case inr =>
    rw [reduce_eq] at he
    rcases bind_eq_error he with ht | ⟨t, ht, hf⟩
    case inl =>
      obtain ⟨c, hc, t, ha⟩ := foldlM_addTerm_error ht
      exact overreaches_of_adds hr hp hc ha
    case inr => exact overreaches_of_finishes hr hp ht (hf ▸ finish_finishes e t)

end Registry

namespace Converter

-- What is asked about conversions, with numbers for values.
inductive Request
  | conversionFactor (source target : String)
  | convertValue (value : Float) (source target : String)
  | isCompatible (first second : String)
  | dimensions (text : String)

namespace Request

def call : Request → Call Float
  | conversionFactor source target => .conversionFactor source target
  | convertValue value source target => .convertValue (.scalar value) source target
  | isCompatible first second => .isCompatible first second
  | dimensions text => .dimensions text

def texts : Request → List String
  | conversionFactor source target | convertValue _ source target => [source, target]
  | isCompatible first second => [first, second]
  | dimensions text => [text]

-- The unit by whose factor is divided.
def divisor? : Request → Option String
  | conversionFactor _ target | convertValue _ _ target => some target
  | isCompatible .. | dimensions _ => none

-- What a conversion may fail for though nothing is wrong with its units.
inductive Overreaches (r : Registry Float) (q : Request) : Error → Prop
  | reduction (ht : text ∈ q.texts) (h : r.Overreaches text x) : Overreaches r q x
  | division (ht : q.divisor? = some target) (hv : r.reduceText target = .ok v) (h : v.factor == 0) :
    Overreaches r q (.arithmetic .divisionByZero)

variable {q : Request} {r : Registry Float} {source target text : String} {u v : BaseForm Float} {x : Error}

theorem overreaches_of_reduceText (hr : r.IsOrdinary) (ht : text ∈ q.texts) (h : r.reduceText text = .error x) :
    x.isConversion ∨ q.Overreaches r x :=
  (Registry.reduceText_overreaches hr h).imp_right (.reduction ht)

theorem overreaches_of_quotient {y : Float} (ht : q.divisor? = some target) (hv : r.reduceText target = .ok v)
    (h : (Scalar.quotient y v.factor).mapError Error.arithmetic = .error x) : q.Overreaches r x := by
  change (Binary64.quotient y v.factor).mapError Error.arithmetic = .error x at h
  rw [Binary64.quotient] at h
  split at h
  case isTrue hz =>
    cases h
    exact .division ht hv hz
  case isFalse => contradiction

theorem reduceBoth_error (hr : r.IsOrdinary) (hs : source ∈ q.texts) (ht : target ∈ q.texts)
    (h : Fresh.reduceBoth r source target = .error x) : x.isConversion ∨ q.Overreaches r x := by
  rw [Fresh.reduceBoth] at h
  rcases bind_eq_error h with h | ⟨u, -, h⟩
  case inl => exact overreaches_of_reduceText hr hs h
  case inr =>
    rcases bind_eq_error h with h | ⟨v, -, h⟩
    case inl => exact overreaches_of_reduceText hr ht h
    case inr =>
      split at h
      case isTrue =>
        cases h
        exact .inl rfl
      case isFalse => contradiction

theorem reduceBoth_ok (h : Fresh.reduceBoth r source target = .ok (u, v)) : r.reduceText target = .ok v := by
  obtain ⟨u', -, h⟩ := exists_of_bind_ok h
  obtain ⟨v', hv, h⟩ := exists_of_bind_ok h
  split at h
  case isTrue => contradiction
  case isFalse =>
    cases h
    exact hv

-- Without a memory, each kind of request fails for its units or overreaches.
theorem conversionFactor_error (hr : r.IsOrdinary) (s : Settings)
    (h : Fresh.conversionFactor s r source target = .error x) :
    x.isConversion ∨ (conversionFactor source target).Overreaches r x := by
  rcases bind_eq_error h with h | ⟨⟨u, v⟩, hboth, h⟩
  case inl => exact reduceBoth_error hr (by simp [texts]) (by simp [texts]) h
  case inr =>
    rcases bind_eq_error h with h | ⟨ratio, -, h⟩
    case inl => exact .inr (overreaches_of_quotient rfl (reduceBoth_ok hboth) h)
    case inr => contradiction

theorem convertValue_error (hr : r.IsOrdinary) (s : Settings) (value : Float)
    (h : Fresh.convertValue s r (.scalar value) source target = .error x) :
    x.isConversion ∨ (convertValue value source target).Overreaches r x := by
  rcases bind_eq_error h with h | ⟨⟨u, v⟩, hboth, h⟩
  case inl => exact reduceBoth_error hr (by simp [texts]) (by simp [texts]) h
  case inr =>
    change ((u.convert v value).mapError Error.arithmetic >>= fun y => .ok (rounded s y)) = .error x at h
    rcases bind_eq_error h with h | ⟨y, -, h⟩
    case inl => exact .inr (overreaches_of_quotient rfl (reduceBoth_ok hboth) h)
    case inr => contradiction

theorem isCompatible_error {first second : String} (hr : r.IsOrdinary)
    (h : Fresh.isCompatible r first second = .error x) :
    x.isConversion ∨ (isCompatible first second).Overreaches r x := by
  rcases bind_eq_error h with h | ⟨u, -, h⟩
  case inl => exact overreaches_of_reduceText hr (by simp [texts]) h
  case inr =>
    rcases bind_eq_error h with h | ⟨v, -, h⟩
    case inl => exact overreaches_of_reduceText hr (by simp [texts]) h
    case inr => contradiction

theorem dimensions_error (hr : r.IsOrdinary) (h : Fresh.dimensions r text = .error x) :
    x.isConversion ∨ (dimensions text).Overreaches r x := by
  rcases bind_eq_error h with h | ⟨u, -, h⟩
  case inl => exact overreaches_of_reduceText hr (by simp [texts]) h
  case inr => contradiction

theorem fresh_error (q : Request) (hr : r.IsOrdinary) (s : Settings) (h : q.call.fresh s r = .error x) :
    x.isConversion ∨ q.Overreaches r x := by
  cases q
  case conversionFactor source target =>
    rcases bind_eq_error h with h | ⟨y, -, h⟩
    case inl => exact conversionFactor_error hr s h
    case inr => contradiction
  case convertValue value source target =>
    rcases bind_eq_error h with h | ⟨y, -, h⟩
    case inl => exact convertValue_error hr s value h
    case inr => contradiction
  case isCompatible first second =>
    rcases bind_eq_error h with h | ⟨y, -, h⟩
    case inl => exact isCompatible_error hr h
    case inr => contradiction
  case dimensions text =>
    rcases bind_eq_error h with h | ⟨y, -, h⟩
    case inl => exact dimensions_error hr h
    case inr => contradiction

end Request

end Converter

namespace Session

open Converter

variable {settings : Settings} {r : Registry Float} {s : Session Float}

-- A frozen registry is still the same after any run.
theorem foldl_step_registry (h : s.registry.frozen) (steps : List (Step Float)) :
    (steps.foldl step s).registry = s.registry := by
  induction steps generalizing s
  case nil => rfl
  case cons e rest hi =>
    have he : (s.step e).registry = s.registry := by
      cases e
      case call => rfl
      case change c => exact c.apply_follows.eq_of_frozen h
    rw [List.foldl_cons, hi (he ▸ h), he]

theorem result_of_isOrdinary (hr : r.IsOrdinary) (hf : r.frozen) (settings : Settings) (steps : List (Step Float))
    (q : Request) :
    let s := steps.foldl step (start settings r)
    match (q.call.run s.registry s.converter).result with
    | .ok _ => True
    | .error x => x.isConversion ∨ q.Overreaches r x := by
  intro s
  have hs : s.Faithful settings := Faithful.foldl_step (s := start settings r) .create steps
  have hsame : s.registry = r := foldl_step_registry (s := start settings r) hf steps
  rw [(Agrees.call q.call _ hs).1, hsame]
  cases h : q.call.fresh settings r
  case ok => trivial
  case error x => exact q.fresh_error hr settings h

-- Whatever a converter over the built-in units has been asked before, a request is answered, or it fails with an error
-- about units, or it overreaches.
theorem result_of_standard (settings : Settings) (steps : List (Step Float)) (q : Request) :
    let s := steps.foldl step (start settings .standard)
    match (q.call.run s.registry s.converter).result with
    | .ok _ => True
    | .error x => x.isConversion ∨ q.Overreaches .standard x :=
  result_of_isOrdinary Registry.standard_isOrdinary Registry.standard_frozen settings steps q

-- The first power of the metre, written with so many zeros that its conversion to metres overreaches.
theorem conversionFactor_zeros :
    let text := String.ofList ('m' :: '^' :: (List.replicate 4300 '0' ++ ['1']))
    (conversionFactor .standard text "m" (.create .standard .standard)).result = .error (.numeralTooLong 4301) ∧
      (Error.numeralTooLong 4301).isConversion = false := by
  intro text
  have hdigits : ∀ c ∈ List.replicate 4300 '0' ++ ['1'], Text.isAsciiDigit c := by
    intro c hc
    cases List.mem_append.1 hc
    case inl hc => exact List.eq_of_mem_replicate hc ▸ by decide
    case inr hc => exact List.mem_singleton.1 hc ▸ by decide
  have hlength : (List.replicate 4300 '0' ++ ['1']).length = 4301 := by
    rw [List.length_append, List.length_replicate, List.length_singleton]
  have hp : parse text = .error (.numeralTooLong 4301) := by
    have hlong := parseWithin_tooLong hdigits (b := .standard) (by rw [hlength]; decide) (.inl rfl)
    rwa [hlength, List.append_nil] at hlong
  have hreduce (r : Registry Float) : Fresh.conversionFactor .standard r text "m" = .error (.numeralTooLong 4301) := by
    rw [Fresh.conversionFactor, Fresh.reduceBoth, Registry.reduceText, hp]
    rfl
  exact ⟨(Agrees.conversionFactor text "m" _ Converter.Faithful.create).1.trans (hreduce _), rfl⟩

end Session

end Metrology
