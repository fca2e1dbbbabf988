import Mathlib.Data.List.Induction
import Metrology.Converter.Shared
import Metrology.Proofs.Converter.Transparency
import Metrology.Proofs.Fallible

/-!
The shared converter keeps the first valid settings. Before a request finds a valid environment, all requests are
refused for theirs and leave nothing behind; from then on each is answered as by a new converter with those settings.
-/

namespace Metrology

namespace Settings

-- What can be wrong with an environment.
inductive IsFault (environment : Environment) : Error → Prop
  | notAnInteger {name text : String} (hn : name = "CACHE_SIZE" ∨ name = "ROUNDING")
    (ht : environment (variableName name) = some text) (h : readInteger? text = none) :
    IsFault environment (.notAnInteger (variableName name) text)
  | negativeCacheSize {text : String} {n : Int} (ht : environment (variableName "CACHE_SIZE") = some text)
    (hn : readInteger? text = some n) (h : n < 0) : IsFault environment .negativeCacheSize
  | negativeRounding {text : String} {n : Int} (ht : environment (variableName "ROUNDING") = some text)
    (hn : readInteger? text = some n) (h : n < 0) : IsFault environment .negativeRounding
  | unknownLogLevel {text : String} (ht : environment (variableName "LOG_LEVEL") = some text)
    (h : Level.named.lookup (Text.uppercase text) = none) : IsFault environment (.unknownLogLevel (Text.uppercase text))

variable {environment : Environment} {name : String} {o : Option Int} {n : Int} {e : Error}

theorem integer?_ok (h : integer? environment name = .ok (some n)) :
    ∃ text, environment (variableName name) = some text ∧ readInteger? text = some n := by
  rw [integer?] at h
  split at h
  case h_1 => cases h
  case h_2 text ht =>
    split at h
    case h_2 => contradiction
    case h_1 m hm =>
      cases h
      exact ⟨text, (Option.filter_eq_some_iff.1 ht).1, hm⟩

theorem integer?_error (hn : name = "CACHE_SIZE" ∨ name = "ROUNDING") (h : integer? environment name = .error e) :
    IsFault environment e := by
  rw [integer?] at h
  split at h
  case h_1 => contradiction
  case h_2 text ht =>
    split at h
    case h_1 => contradiction
    case h_2 hm =>
      cases h
      exact .notAnInteger hn (Option.filter_eq_some_iff.1 ht).1 hm

-- The checks report the first fault, in this order.
theorem make_error {cacheSize : Int} {logLevel : String} (h : make cacheSize o logLevel = .error e) :
    cacheSize < 0 ∧ e = .negativeCacheSize ∨ (∃ n, o = some n ∧ n < 0) ∧ e = .negativeRounding ∨
      Level.named.lookup (Text.uppercase logLevel) = none ∧ e = .unknownLogLevel (Text.uppercase logLevel) := by
  simp only [make] at h
  split at h
  case isTrue hc =>
    cases h
    exact .inl ⟨hc, rfl⟩
  case isFalse =>
    split at h
    case isTrue hr =>
      cases h
      cases o
      case none => contradiction
      case some n => exact .inr (.inl ⟨⟨n, rfl, of_decide_eq_true hr⟩, rfl⟩)
    case isFalse =>
      split at h
      case isFalse => contradiction
      case isTrue hl =>
        cases h
        exact .inr (.inr ⟨by simpa using hl, rfl⟩)

theorem isFault_of_ofEnvironment (h : ofEnvironment environment = .error e) : IsFault environment e := by
  rw [ofEnvironment] at h
  rcases bind_eq_error h with h | ⟨cacheSize, hc, h⟩
  case inl => exact integer?_error (.inl rfl) h
  case inr =>
    rcases bind_eq_error h with h | ⟨rounding, hr, h⟩
    case inl => exact integer?_error (.inr rfl) h
    case inr =>
      rcases make_error h with ⟨hn, rfl⟩ | ⟨⟨n, rfl, hn⟩, rfl⟩ | ⟨hl, rfl⟩
      case inl =>
        -- the standard size is not negative, so one was set
        cases cacheSize
        case none => exact absurd hn (by decide)
        case some n =>
          obtain ⟨text, ht, hi⟩ := integer?_ok hc
          exact .negativeCacheSize ht hi hn
      case inr.inl =>
        obtain ⟨text, ht, hi⟩ := integer?_ok hr
        exact .negativeRounding ht hi hn
      case inr.inr =>
        cases hs : (environment (variableName "LOG_LEVEL")).filter (· ≠ "")
        case none =>
          rw [hs] at hl
          exact absurd hl (by decide)
        case some text =>
          rw [hs] at hl
          exact .unknownLogLevel (Option.filter_eq_some_iff.1 hs).1 hl

end Settings

namespace Shared

open Converter

variable {α : Type} [Scalar α] {r : Registry α} {found : Option Settings} {shared : Shared α}

-- A call of the shared converter, with the environment as it is at that moment.
structure Request (α : Type) where
  environment : Settings.Environment
  call : Call α

namespace Request

def outcome (r : Registry α) (shared : Shared α) (q : Request α) : Outcome α (Shared α) (Answer α) :=
  Shared.call r q.environment (q.call.run r) shared

-- The settings that the environment gives, if it is valid.
def settings? (q : Request α) : Option Settings :=
  (Settings.ofEnvironment q.environment).toOption

end Request

-- The shared converter after some requests. There is none at first.
def after (r : Registry α) (past : List (Request α)) : Shared α :=
  past.foldl (fun shared q => (q.outcome r shared).state) none

-- The settings of the first request that finds a valid environment.
def latched (past : List (Request α)) : Option Settings :=
  past.findSome? Request.settings?

-- There is a converter exactly if settings were found, and it is faithful to these.
inductive Keeps (r : Registry α) : Option Settings → Shared α → Prop
  | unset : Keeps r none none
  | set {settings : Settings} {c : Converter α} (h : c.Faithful settings r) : Keeps r (some settings) (some c)

omit [Scalar α] in
theorem latched_concat (past : List (Request α)) (q : Request α) :
    latched (past ++ [q]) = (latched past).or q.settings? := by
  rw [latched, List.findSome?_append, List.findSome?_singleton]
  rfl

theorem after_concat (r : Registry α) (past : List (Request α)) (q : Request α) :
    after r (past ++ [q]) = (q.outcome r (after r past)).state := by
  rw [after, List.foldl_append]
  rfl

namespace Keeps

-- Settings that were found stay; before that, those of the request count.
theorem outcome (h : Keeps r found shared) (q : Request α) :
    Keeps r (found.or q.settings?) (q.outcome r shared).state := by
  cases h
  case set hc => exact .set (Agrees.call q.call _ hc).2
  case unset =>
    rw [Request.outcome, Shared.call, Request.settings?, Option.none_or]
    cases Settings.ofEnvironment q.environment
    case error => exact .unset
    case ok settings => exact .set (Agrees.call q.call _ .create).2

theorem after (r : Registry α) (past : List (Request α)) : Keeps r (latched past) (after r past) := by
  induction past using List.reverseRecOn
  case nil => exact .unset
  case append_singleton past q hi =>
    rw [latched_concat, after_concat]
    exact hi.outcome q

-- What a request is answered, after settings were found or before.
theorem outcome_eq (h : Keeps r found shared) (q : Request α) :
    match found.or q.settings? with
    | none => shared = none ∧ ∃ e, Settings.ofEnvironment q.environment = .error e ∧
        q.outcome r shared = ⟨.error e, none, []⟩
    | some settings => (q.outcome r shared).result = (q.call.run r (.create settings r)).result := by
  cases h
  case set settings c hc =>
    rw [Option.some_or]
    exact (Agrees.call q.call c hc).1.trans (Agrees.call q.call _ .create).1.symm
  case unset =>
    rw [Option.none_or, Request.settings?, Request.outcome, Shared.call]
    cases Settings.ofEnvironment q.environment
    case ok settings => rfl
    case error e => exact ⟨rfl, e, rfl, rfl⟩

end Keeps

-- As long as no environment was valid, a request is refused for its own and leaves nothing behind. Otherwise it is
-- answered as by a new converter with the settings of the first valid one, whatever was asked before.
theorem outcome_after (r : Registry α) (past : List (Request α)) (q : Request α) :
    match latched (past ++ [q]) with
    | none => after r past = none ∧ ∃ e, Settings.ofEnvironment q.environment = .error e ∧
        Settings.IsFault q.environment e ∧ q.outcome r (after r past) = ⟨.error e, none, []⟩
    | some settings => (q.outcome r (after r past)).result = (q.call.run r (.create settings r)).result := by
  have h := (Keeps.after r past).outcome_eq q
  rw [← latched_concat] at h
  cases hl : latched (past ++ [q])
  case some settings => rwa [hl] at h
  case none =>
    rw [hl] at h
    obtain ⟨hnone, e, he, ho⟩ := h
    exact ⟨hnone, e, he, Settings.isFault_of_ofEnvironment he, ho⟩

end Shared

end Metrology
