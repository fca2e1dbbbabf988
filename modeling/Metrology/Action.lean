import Metrology.Log

/-!
Actions: operations on a state that answer with a value or an error, keep the state they leave behind in
either case and report events.
-/

namespace Metrology

structure Outcome (α σ β : Type) where
  result : Except Error β
  state : σ
  events : List (Event α)

-- The outcome with earlier events in front of its own.
def Outcome.after {α σ β : Type} (events : List (Event α)) (o : Outcome α σ β) : Outcome α σ β :=
  { o with events := events ++ o.events }

def Action (α σ β : Type) := σ → Outcome α σ β

namespace Action

variable {α σ β γ : Type}

def pure (b : β) : Action α σ β :=
  fun s => ⟨.ok b, s, []⟩

def bind (a : Action α σ β) (f : β → Action α σ γ) : Action α σ γ := fun s =>
  match a s with
  | ⟨.ok b, s, events⟩ => (f b s).after events
  | ⟨.error e, s, events⟩ => ⟨.error e, s, events⟩

instance : Monad (Action α σ) where
  pure := pure
  bind := bind

def fail (e : Error) : Action α σ β :=
  fun s => ⟨.error e, s, []⟩

def get : Action α σ σ :=
  fun s => ⟨.ok s, s, []⟩

def modify (f : σ → σ) : Action α σ Unit :=
  fun s => ⟨.ok (), f s, []⟩

def report (e : Event α) : Action α σ Unit :=
  fun s => ⟨.ok (), s, [e]⟩

-- A computation that does not touch the state.
def ofExcept (r : Except Error β) : Action α σ β :=
  fun s => ⟨r, s, []⟩

@[simp] theorem pure_apply (b : β) (s : σ) : (Pure.pure b : Action α σ β) s = ⟨.ok b, s, []⟩ := rfl

@[simp] theorem get_apply (s : σ) : (get : Action α σ σ) s = ⟨.ok s, s, []⟩ := rfl

@[simp] theorem modify_apply (f : σ → σ) (s : σ) : (modify f : Action α σ Unit) s = ⟨.ok (), f s, []⟩ := rfl

@[simp] theorem ofExcept_apply (r : Except Error β) (s : σ) : (ofExcept r : Action α σ β) s = ⟨r, s, []⟩ := rfl

theorem bind_apply (a : Action α σ β) (f : β → Action α σ γ) (s : σ) :
    (a >>= f) s =
      match a s with
      | ⟨.ok b, s, events⟩ => (f b s).after events
      | ⟨.error e, s, events⟩ => ⟨.error e, s, events⟩ := rfl

theorem bind_result (a : Action α σ β) (f : β → Action α σ γ) (s : σ) :
    ((a >>= f) s).result = (a s).result.bind fun b => (f b (a s).state).result := by
  rw [bind_apply]
  rcases a s with ⟨_ | _, _, _⟩ <;> rfl

theorem bind_state (a : Action α σ β) (f : β → Action α σ γ) (s : σ) :
    ((a >>= f) s).state =
      match (a s).result with
      | .ok b => (f b (a s).state).state
      | .error _ => (a s).state := by
  rw [bind_apply]
  rcases a s with ⟨_ | _, _, _⟩ <;> rfl

end Action

end Metrology
