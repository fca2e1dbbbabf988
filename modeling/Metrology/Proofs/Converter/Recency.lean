import Mathlib.Data.List.Dedup
import Mathlib.Data.List.DropRight
import Metrology.Proofs.Converter.Transparency

/-!
What a converter remembers. Its memory holds the texts that were used last, each once and in the order of their last
uses, as many of them as the settings allow; it begins anew whenever it is emptied or the registry has changed.
-/

namespace Metrology

namespace Action

variable {α σ β γ : Type} {a : Action α σ β} {f : β → Action α σ γ}

-- An action that leaves the state as it is.
def IsQuiet (a : Action α σ β) : Prop :=
  ∀ s, (a s).state = s

theorem IsQuiet.pure (b : β) : (Pure.pure b : Action α σ β).IsQuiet :=
  fun _ => rfl

theorem IsQuiet.ofExcept (x : Except Error β) : (ofExcept x : Action α σ β).IsQuiet :=
  fun _ => rfl

theorem IsQuiet.report (e : Event α) : (report e : Action α σ Unit).IsQuiet :=
  fun _ => rfl

theorem IsQuiet.bind (ha : a.IsQuiet) (hf : ∀ b, (f b).IsQuiet) : (a >>= f).IsQuiet := by
  intro s
  rw [bind_state, ha]
  split
  case h_1 b _ => exact hf b s
  case h_2 => rfl

theorem IsQuiet.get_bind {f : σ → Action α σ β} (hf : ∀ s, (f s).IsQuiet) : (get >>= f).IsQuiet :=
  fun s => hf s s

theorem bind_state_of_isQuiet (hf : ∀ b, (f b).IsQuiet) (s : σ) : ((a >>= f) s).state = (a s).state := by
  rw [bind_state]
  split
  case h_1 b _ => exact hf b _
  case h_2 => rfl

end Action

namespace Converter

-- The version of the registry that the uses belong to, and the texts that were reduced since they were last forgotten,
-- the latest one last.
structure History where
  version : Nat
  uses : List String

namespace History

variable {α : Type} [Scalar α]

def start (r : Registry α) : History :=
  ⟨r.version, []⟩

-- The latest different texts, at most so many, in the order of their last uses.
def recent (h : History) (size : Nat) : List String :=
  h.uses.dedup.rtake size

-- The uses of an older version are over.
def refresh (h : History) (r : Registry α) : History :=
  if h.version = r.version then h else ⟨r.version, []⟩

-- A reduction is tried; it is a use if it succeeds.
def attempt (h : History) (r : Registry α) (text : String) : History :=
  let h := h.refresh r
  if (r.reduceText text).isOk then { h with uses := h.uses ++ [text] } else h

-- The second reduction is tried if the first one succeeds.
def attemptBoth (h : History) (r : Registry α) (first second : String) : History :=
  let h := h.attempt r first
  if (r.reduceText first).isOk then h.attempt r second else h

def call (h : History) (r : Registry α) : Call α → History
  | .reduce text | .dimensions text => h.attempt r text
  | .conversionFactor source target | .convertValue _ source target => h.attemptBoth r source target
  | .isCompatible first second => h.attemptBoth r first second
  | .forget => { h with uses := [] }

-- The history after a run that begins with a registry; changes of the registry are no uses.
def run (h : History) (r : Registry α) : List (Session.Step α) → History
  | [] => h
  | .call c :: rest => (h.call r c).run r rest
  | .change c :: rest => h.run (c.apply r) rest

end History

end Converter

namespace Memo

variable {α : Type} {m : Memo α} {t text : String} {l keys uses : List String} {n : Nat}

-- A new use goes behind all others, and an older one of the same text does not count any more.
theorem dedup_concat (l : List String) (t : String) : (l ++ [t]).dedup = l.dedup.filter (· ≠ t) ++ [t] := by
  induction l
  case nil => rfl
  case cons a l hi =>
    rw [List.cons_append]
    by_cases ha : a ∈ l
    case pos => rw [List.dedup_cons_of_mem (List.mem_append_left _ ha), List.dedup_cons_of_mem ha, hi]
    case neg =>
      rw [List.dedup_cons_of_notMem ha, List.filter_cons]
      by_cases hat : a = t
      case pos => simp [hat, hi]
      case neg =>
        have hmem : a ∉ l ++ [t] := by simp [ha, hat]
        simp [List.dedup_cons_of_notMem hmem, hi, hat]

theorem rtake_of_length_le (h : l.length ≤ n) : l.rtake n = l := by
  rw [List.rtake, Nat.sub_eq_zero_of_le h, List.drop_zero]

theorem rtake_append_of_le (h : n ≤ l.length) (front : List String) : (front ++ l).rtake n = l.rtake n := by
  have hlength : (front ++ l).length - n = front.length + (l.length - n) := by
    rw [List.length_append]
    omega
  rw [List.rtake, hlength, List.drop_length_add_append, List.rtake]

theorem filter_ne_eq_erase (h : l.Nodup) (t : String) : l.filter (· ≠ t) = l.erase t := by
  rw [h.erase_eq_filter]
  exact List.filter_congr fun a _ => by simp [bne, beq_eq_decide]

theorem filter_eq_of_mem (h : l.Nodup) (ht : t ∈ l) : l.filter (· = t) = [t] := by
  rw [List.filter_eq, List.count_eq_one_of_mem h ht, List.replicate_one]

-- What is older than the latest texts may be forgotten before the next use as well as after it.
theorem rtake_use (h : l.Nodup) (n : Nat) (t : String) :
    ((l.rtake n).filter (· ≠ t) ++ [t]).rtake n = (l.filter (· ≠ t) ++ [t]).rtake n := by
  by_cases hn : l.length ≤ n
  case pos => rw [rtake_of_length_le hn]
  case neg =>
    have hsplit : l = l.take (l.length - n) ++ l.rtake n := (List.take_append_drop ..).symm
    have hnodup : (l.rtake n).Nodup := (List.drop_sublist ..).nodup h
    have hlength : (l.rtake n).length = n := by
      rw [List.rtake, List.length_drop]
      omega
    have hlong : n ≤ ((l.rtake n).filter (· ≠ t) ++ [t]).length := by
      have := List.le_length_erase (a := t) (l := l.rtake n)
      rw [filter_ne_eq_erase hnodup, List.length_append, List.length_singleton]
      omega
    conv => rhs; rw [hsplit, List.filter_append, List.append_assoc, rtake_append_of_le hlong]

theorem keys_insert_eq_rtake (m : Memo α) (size : Nat) (text : String) (unit : BaseForm α) :
    (m.insert size text unit).keys = (m.keys.filter (· ≠ text) ++ [text]).rtake size := by
  rw [keys_insert, List.rtake, List.length_append, List.length_singleton]

theorem keys_touch_eq_rtake (h : m.keys.Nodup) (ht : text ∈ m.keys) (hn : m.keys.length ≤ n) :
    (m.touch text).keys = (m.keys.filter (· ≠ text) ++ [text]).rtake n := by
  have hpos := List.length_pos_of_mem ht
  rw [keys_touch, filter_eq_of_mem h ht, rtake_of_length_le]
  rw [filter_ne_eq_erase h, List.length_append, List.length_erase_of_mem ht, List.length_singleton]
  omega

end Memo

namespace Converter

variable {α β : Type} [Scalar α] {settings : Settings} {r r' : Registry α} {c : Converter α} {h : History} {text : String}

namespace History

@[simp]
theorem recent_nil (version size : Nat) : recent ⟨version, []⟩ size = [] :=
  List.rtake_nil size

@[simp]
theorem recent_zero (h : History) : h.recent 0 = [] :=
  List.rtake_zero _

theorem nodup_recent (h : History) (size : Nat) : (h.recent size).Nodup :=
  (List.drop_sublist ..).nodup (List.nodup_dedup _)

theorem length_recent_le (h : History) (size : Nat) : (h.recent size).length ≤ size := by
  rw [recent, List.rtake, List.length_drop]
  omega

theorem recent_use (h : History) (size : Nat) (text : String) :
    recent ⟨h.version, h.uses ++ [text]⟩ size = ((h.recent size).filter (· ≠ text) ++ [text]).rtake size := by
  rw [recent, recent, Memo.dedup_concat, Memo.rtake_use (List.nodup_dedup _)]

example : recent ⟨0, ["m", "s", "m", "K"]⟩ 2 = ["m", "K"] := by
  decide

end History

-- The memory of a converter is what its history says. A converter without a memory does not look at versions.
structure Tracks (settings : Settings) (r : Registry α) (c : Converter α) (h : History) : Prop where
  faithful : Faithful settings r c
  version_eq : settings.cacheSize ≠ 0 → c.version = h.version
  keys_eq : c.memo.keys = h.recent settings.cacheSize

namespace Tracks

theorem start : Tracks settings r (.create settings r) (.start r) where
  faithful := .create
  version_eq _ := rfl
  keys_eq := (History.recent_nil ..).symm

theorem forget (ht : Tracks settings r c h) : Tracks settings r c.forget { h with uses := [] } where
  faithful := ht.faithful.forget
  version_eq := ht.version_eq
  keys_eq := (History.recent_nil ..).symm

theorem follow (ht : Tracks settings r c h) (hf : r.Follows r') : Tracks settings r' c h :=
  ⟨ht.faithful.follow hf, ht.version_eq, ht.keys_eq⟩

theorem refresh (ht : Tracks settings r c h) (hn : settings.cacheSize ≠ 0) :
    Tracks settings r (c.refresh r) (h.refresh r) := by
  have hv := ht.version_eq hn
  refine ⟨ht.faithful.refresh, ?version, ?keys⟩
  case version =>
    intro _
    rw [Faithful.refresh_version, History.refresh]
    split
    case isTrue he => exact he.symm
    case isFalse => rfl
  case keys =>
    rw [Converter.refresh, History.refresh, hv]
    split
    case isTrue => exact ht.keys_eq
    case isFalse => exact (History.recent_nil ..).symm

-- Whether the text was remembered or has just been reduced, it is the latest one now.
theorem use (ht : Tracks settings r c h) {m : Memo α}
    (hf : Faithful settings r { c with memo := m })
    (hm : m.keys = (c.memo.keys.filter (· ≠ text) ++ [text]).rtake settings.cacheSize) :
    Tracks settings r { c with memo := m } { h with uses := h.uses ++ [text] } where
  faithful := hf
  version_eq := ht.version_eq
  keys_eq := by rw [hm, ht.keys_eq, History.recent_use]

-- A memory without room stays empty.
theorem reduce_zero (ht : Tracks settings r c h) (hn : settings.cacheSize = 0) (text : String) :
    Tracks settings r c (h.attempt r text) where
  faithful := ht.faithful
  version_eq := absurd hn
  keys_eq := by rw [ht.keys_eq, hn, History.recent_zero, History.recent_zero]

theorem touch (ht : Tracks settings r c h) {unit : BaseForm α} (hf : c.memo.find? text = some unit) :
    Tracks settings r (c.touch text) { h with uses := h.uses ++ [text] } := by
  have hmem : text ∈ c.memo.keys := List.mem_map_of_mem (Memo.mem_of_find? hf)
  refine ht.use (ht.faithful.touch text) (Memo.keys_touch_eq_rtake ?_ hmem ?_)
  · exact ht.keys_eq ▸ h.nodup_recent _
  · exact ht.keys_eq ▸ h.length_recent_le _

theorem remember (ht : Tracks settings r c h) {unit : BaseForm α} (hu : r.reduceText text = .ok unit) :
    Tracks settings r (c.remember text unit) { h with uses := h.uses ++ [text] } := by
  refine ht.use (ht.faithful.remember hu) ?_
  rw [Memo.keys_insert_eq_rtake, ht.faithful.settings_eq]

theorem reduce (ht : Tracks settings r c h) (text : String) :
    Tracks settings r (Converter.reduce r text c).state (h.attempt r text) := by
  simp only [Converter.reduce, Action.bind_state, Action.get_apply, ht.faithful.settings_eq]
  split
  case isTrue hn =>
    rw [Registry.reducing_state]
    exact ht.reduce_zero hn text
  case isFalse hn =>
    have hr := ht.refresh hn
    simp only [Action.bind_state, Action.modify_apply, Action.get_apply, History.attempt]
    cases hf : (c.refresh r).memo.find? text
    case some unit =>
      have hu := hr.faithful.memo_eq (Faithful.refresh_version ..) _ (Memo.mem_of_find? hf)
      rw [hu]
      exact hr.touch hf
    case none =>
      simp only [Action.bind_state, Registry.reducing_result, Registry.reducing_state]
      cases hu : r.reduceText text
      case error => exact hr
      case ok unit => exact hr.remember hu

-- Two reductions, and something that leaves the converter alone.
theorem reduceTwo (ht : Tracks settings r c h) (first second : String)
    {f : BaseForm α → BaseForm α → Action α (Converter α) β} (hf : ∀ u v, (f u v).IsQuiet) :
    Tracks settings r ((do let u ← Converter.reduce r first; let v ← Converter.reduce r second; f u v) c).state
      (h.attemptBoth r first second) := by
  have hfirst := ht.reduce first
  rw [Action.bind_state, (Agrees.reduce first c ht.faithful).1, History.attemptBoth]
  cases r.reduceText first
  case error => exact hfirst
  case ok u =>
    simp only
    rw [Action.bind_state_of_isQuiet (hf u)]
    exact hfirst.reduce second

theorem reduceBoth (ht : Tracks settings r c h) (source target : String) :
    Tracks settings r (Converter.reduceBoth r source target c).state (h.attemptBoth r source target) := by
  refine ht.reduceTwo source target ?_
  intro u v s
  split <;> rfl

theorem conversionFactor (ht : Tracks settings r c h) (source target : String) :
    Tracks settings r (Converter.conversionFactor r source target c).state (h.attemptBoth r source target) := by
  rw [Converter.conversionFactor, Action.bind_state_of_isQuiet]
  case hf =>
    rintro ⟨u, v⟩
    exact .bind (.ofExcept _) fun _ => .get_bind fun _ => .bind (.report _) fun _ => .pure _
  exact ht.reduceBoth source target

theorem convertValue (ht : Tracks settings r c h) (value : Given α) (source target : String) :
    Tracks settings r (Converter.convertValue r value source target c).state (h.attemptBoth r source target) := by
  rw [Converter.convertValue, Action.bind_state_of_isQuiet]
  case hf =>
    rintro ⟨u, v⟩
    exact .bind (.ofExcept _) fun _ => .bind (.ofExcept _) fun _ => .get_bind fun _ => .bind (.report _) fun _ => .pure _
  exact ht.reduceBoth source target

theorem call (ht : Tracks settings r c h) (q : Call α) : Tracks settings r (q.run r c).state (h.call r q) := by
  cases q <;> rw [Call.run]
  case forget => exact ht.forget
  all_goals rw [Action.bind_state_of_isQuiet fun _ => .pure _]
  case reduce text => exact ht.reduce text
  case conversionFactor source target => exact ht.conversionFactor source target
  case convertValue value source target => exact ht.convertValue value source target
  case isCompatible first second => exact ht.reduceTwo first second fun _ _ => .pure _
  case dimensions text =>
    rw [Converter.dimensions, Action.bind_state_of_isQuiet fun _ => .pure _]
    exact ht.reduce text

end Tracks

end Converter

namespace Session

open Converter

variable {α : Type} [Scalar α] {settings : Settings} {s : Session α} {h : History}

theorem tracks_run (ht : Tracks settings s.registry s.converter h) (steps : List (Step α)) :
    Tracks settings (steps.foldl step s).registry (steps.foldl step s).converter (h.run s.registry steps) := by
  induction steps generalizing s h
  case nil => exact ht
  case cons e rest hi =>
    cases e
    case call q => exact hi (s := s.step (.call q)) (ht.call q)
    case change q => exact hi (s := s.step (.change q)) (ht.follow q.apply_follows)

-- After every run the memory holds the latest uses, the least recent one first.
theorem keys_eq_recent (settings : Settings) (r : Registry α) (steps : List (Step α)) :
    let memo := (steps.foldl step (start settings r)).converter.memo
    memo.keys = ((History.start r).run r steps).recent settings.cacheSize ∧ (settings.cacheSize = 0 → memo = []) := by
  intro memo
  have hkeys := (tracks_run (s := start settings r) .start steps).keys_eq
  refine ⟨hkeys, ?_⟩
  intro hn
  rw [hn, History.recent_zero] at hkeys
  exact List.map_eq_nil_iff.1 hkeys

end Session

end Metrology
