import Metrology.Proofs.Registry.Changes

/-!
The memory of a converter cannot be seen in its answers: in every session each call answers what it would answer
without a memory, from the registry as it is at that moment.
-/

namespace Metrology

variable {α β γ : Type}

namespace Memo

variable {m : Memo α} {text : String} {unit : BaseForm α} {p : String × BaseForm α}

theorem mem_of_find? (h : m.find? text = some unit) : (text, unit) ∈ m := by
  induction m with
  | nil => simp [find?] at h
  | cons q rest hi =>
    rw [find?, List.lookup_cons] at h
    split at h
    case h_1 hq =>
      injection h with h
      exact List.mem_cons.mpr <| .inl <| Prod.ext (eq_of_beq hq) h.symm
    case h_2 => exact List.mem_cons_of_mem _ (hi h)

theorem mem_touch (h : p ∈ m.touch text) : p ∈ m := by
  cases List.mem_append.mp h
  case inl h => exact (List.mem_filter.mp h).1
  case inr h => exact (List.mem_filter.mp h).1

theorem mem_insert {size : Nat} (h : p ∈ m.insert size text unit) : p ∈ m ∨ p = (text, unit) := by
  cases List.mem_append.mp (List.mem_of_mem_drop h)
  case inl h => exact .inl <| (List.mem_filter.mp h).1
  case inr h => exact .inr <| List.mem_singleton.mp h

end Memo

namespace Registry

variable [Scalar α] {r : Registry α}

-- A reduction looks at nothing but the units.
theorem reduceText_congr {r' : Registry α} (h : r.units = r'.units) (text : String) :
    r.reduceText text = r'.reduceText text := by
  cases r
  cases r'
  subst h
  rfl

end Registry

namespace Converter

variable [Scalar α]

-- The settings of a converter are as given, and whatever it remembers of the present version of the registry is
-- what a reduction gives now. Nothing is said of memories of older versions: the next look-up drops them.
structure Faithful (settings : Settings) (r : Registry α) (c : Converter α) : Prop where
  settings_eq : c.settings = settings
  version_le : c.version ≤ r.version
  memo_eq : c.version = r.version → ∀ p ∈ c.memo, r.reduceText p.1 = .ok p.2

namespace Faithful

variable {settings : Settings} {r r' : Registry α} {c : Converter α}

theorem create : Faithful settings r (.create settings r) where
  settings_eq := rfl
  version_le := Nat.le_refl _
  memo_eq _ _ hp := absurd hp List.not_mem_nil

theorem forget (h : Faithful settings r c) : Faithful settings r c.forget where
  settings_eq := h.settings_eq
  version_le := h.version_le
  memo_eq _ _ hp := absurd hp List.not_mem_nil

-- As long as the version is the same, so are the units.
theorem follow (h : Faithful settings r c) (hf : r.Follows r') : Faithful settings r' c := by
  have hle := h.version_le
  have hle' := hf.version_le
  refine ⟨h.settings_eq, by omega, ?_⟩
  intro he p hp
  rw [Registry.reduceText_congr (hf.units_eq (by omega))]
  exact h.memo_eq (by omega) p hp

theorem refresh (h : Faithful settings r c) : Faithful settings r (c.refresh r) := by
  unfold Converter.refresh
  split
  case isTrue => exact h
  case isFalse => exact ⟨h.settings_eq, Nat.le_refl _, fun _ _ hp => absurd hp List.not_mem_nil⟩

omit [Scalar α] in
theorem refresh_version (c : Converter α) (r : Registry α) : (c.refresh r).version = r.version := by
  unfold Converter.refresh
  split
  case isTrue he => exact he
  case isFalse => rfl

theorem touch (h : Faithful settings r c) (text : String) : Faithful settings r (c.touch text) where
  settings_eq := h.settings_eq
  version_le := h.version_le
  memo_eq he _ hp := h.memo_eq he _ (Memo.mem_touch hp)

theorem remember {text : String} {unit : BaseForm α} (h : Faithful settings r c)
    (hu : r.reduceText text = .ok unit) : Faithful settings r (c.remember text unit) := by
  refine ⟨h.settings_eq, h.version_le, ?_⟩
  intro he p hp
  cases Memo.mem_insert hp
  case inl hp => exact h.memo_eq he p hp
  case inr hp => exact hp ▸ hu

end Faithful

-- On every faithful converter the action answers `x` and leaves a faithful converter behind.
def Agrees (settings : Settings) (r : Registry α) (a : Action α (Converter α) β) (x : Except Error β) : Prop :=
  ∀ c, Faithful settings r c → (a c).result = x ∧ Faithful settings r (a c).state

namespace Agrees

variable {settings : Settings} {r : Registry α}

theorem pure (b : β) : Agrees settings r (Pure.pure b) (.ok b) :=
  fun _ h => ⟨rfl, h⟩

theorem fail (e : Error) : Agrees settings r (Action.fail e : Action α (Converter α) β) (.error e) :=
  fun _ h => ⟨rfl, h⟩

theorem ofExcept (x : Except Error β) : Agrees settings r (Action.ofExcept x) x :=
  fun _ h => ⟨rfl, h⟩

theorem report (e : Event α) : Agrees settings r (Action.report e) (.ok ()) :=
  fun _ h => ⟨rfl, h⟩

theorem bind {a : Action α (Converter α) β} {f : β → Action α (Converter α) γ} {x : Except Error β}
    {g : β → Except Error γ} (ha : Agrees settings r a x) (hf : ∀ b, Agrees settings r (f b) (g b)) :
    Agrees settings r (a >>= f) (x >>= g) := by
  intro c hc
  obtain ⟨hr, hs⟩ := ha c hc
  rw [Action.bind_result, Action.bind_state, hr]
  cases x
  case error e => exact ⟨rfl, hs⟩
  case ok b => exact hf b _ hs

-- What follows may look at the settings, which are the same for all faithful converters.
theorem bind_get {f : Converter α → Action α (Converter α) β} {x : Except Error β}
    (hf : ∀ c, c.settings = settings → Agrees settings r (f c) x) : Agrees settings r (Action.get >>= f) x := by
  intro c hc
  rw [Action.bind_result, Action.bind_state]
  exact hf c hc.settings_eq c hc

theorem reducing (text : String) : Agrees settings r (r.reducing text) (r.reduceText text) := by
  intro c hc
  simp only [Registry.reducing, Action.bind_result, Action.bind_state, Action.ofExcept_apply]
  cases r.reduceText text <;> exact ⟨rfl, hc⟩

-- A hit is right because the memory is up to date; a miss adds what was just reduced.
theorem reduce (text : String) : Agrees settings r (Converter.reduce r text) (r.reduceText text) := by
  unfold Converter.reduce
  refine bind_get fun c _ => ?_
  split
  case isTrue => exact reducing text
  case isFalse =>
    intro c hc
    have hc := hc.refresh
    simp only [Action.bind_result, Action.bind_state, Action.modify_apply, Action.get_apply, Except.bind]
    cases hf : (c.refresh r).memo.find? text
    case some unit =>
      refine ⟨?_, hc.touch text⟩
      exact (hc.memo_eq (Faithful.refresh_version ..) _ (Memo.mem_of_find? hf)).symm
    case none =>
      obtain ⟨hr, hs⟩ := reducing text _ hc
      simp only [Action.bind_result, Action.bind_state, hr]
      cases hx : r.reduceText text
      case error => exact ⟨rfl, hs⟩
      case ok unit => exact ⟨rfl, hs.remember hx⟩

theorem reduceBoth (source target : String) :
    Agrees settings r (Converter.reduceBoth r source target) (Fresh.reduceBoth r source target) := by
  refine (reduce source).bind fun u => (reduce target).bind fun v => ?_
  split
  case isTrue => exact fail _
  case isFalse => exact pure _

theorem conversionFactor (source target : String) :
    Agrees settings r (Converter.conversionFactor r source target)
      (Fresh.conversionFactor settings r source target) := by
  refine (reduceBoth source target).bind ?_
  rintro ⟨u, v⟩
  refine (ofExcept _).bind fun ratio => bind_get fun c hc => ?_
  rw [hc]
  exact (report _).bind fun _ => pure _

theorem convertValue (value : Given α) (source target : String) :
    Agrees settings r (Converter.convertValue r value source target)
      (Fresh.convertValue settings r value source target) := by
  refine (reduceBoth source target).bind ?_
  rintro ⟨u, v⟩
  refine (ofExcept _).bind fun x => (ofExcept _).bind fun y => bind_get fun c hc => ?_
  rw [hc]
  exact (report _).bind fun _ => pure _

theorem isCompatible (first second : String) :
    Agrees settings r (Converter.isCompatible r first second) (Fresh.isCompatible r first second) :=
  (reduce first).bind fun _ => (reduce second).bind fun _ => pure _

theorem dimensions (text : String) :
    Agrees settings r (Converter.dimensions r text) (Fresh.dimensions r text) :=
  (reduce text).bind fun _ => pure _

theorem call (c : Call α) : Agrees settings r (c.run r) (c.fresh settings r) := by
  cases c
  case reduce text => exact (reduce text).bind fun _ => pure _
  case conversionFactor source target => exact (conversionFactor source target).bind fun _ => pure _
  case convertValue value source target => exact (convertValue value source target).bind fun _ => pure _
  case isCompatible first second => exact (isCompatible first second).bind fun _ => pure _
  case dimensions text => exact (dimensions text).bind fun _ => pure _
  case forget => exact fun _ h => ⟨rfl, h.forget⟩

end Agrees

end Converter

namespace Session

variable [Scalar α]

def Faithful (settings : Settings) (s : Session α) : Prop :=
  s.converter.Faithful settings s.registry

theorem Faithful.step {settings : Settings} {s : Session α} (h : s.Faithful settings) (e : Step α) :
    (s.step e).Faithful settings := by
  cases e
  case call c => exact (Converter.Agrees.call c _ h).2
  case change c => exact h.follow c.apply_follows

theorem Faithful.foldl_step {settings : Settings} {s : Session α} (h : s.Faithful settings) (steps : List (Step α)) :
    (steps.foldl Session.step s).Faithful settings := by
  induction steps generalizing s
  case nil => exact h
  case cons e rest hi => exact hi (h.step e)

theorem Faithful.answers_eq {settings : Settings} {s : Session α} (h : s.Faithful settings) (steps : List (Step α)) :
    s.answers steps = freshAnswers settings s.registry steps := by
  induction steps generalizing s
  case nil => rfl
  case cons e rest hi =>
    cases e
    case call c =>
      obtain ⟨hr, _⟩ := Converter.Agrees.call c _ h
      rw [answers, freshAnswers, hr, hi (h.step _)]
      rfl
    case change c => exact hi (h.step (.change c))

-- Whatever happens to the registry in between, no call can tell that there is a memory.
theorem answers_eq_freshAnswers (settings : Settings) (r : Registry α) (steps : List (Step α)) :
    (start settings r).answers steps = freshAnswers settings r steps :=
  Faithful.answers_eq (s := start settings r) Converter.Faithful.create steps

end Session

end Metrology
