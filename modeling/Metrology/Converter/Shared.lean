import Metrology.Converter

/-!
The shared converter. It is made by the first call that finds a valid environment and then serves every call,
whatever the environment says later.
-/

namespace Metrology

abbrev Shared (α : Type) := Option (Converter α)

namespace Shared

variable {α β : Type} [Scalar α]

-- Runs a conversion on the shared converter, making it first if there is none.
def call (r : Registry α) (environment : Settings.Environment) (a : Action α (Converter α) β) :
    Action α (Shared α) β := fun shared =>
  let run (c : Converter α) : Outcome α (Shared α) β :=
    let o := a c
    ⟨o.result, some o.state, o.events⟩
  match shared with
  | some c => run c
  | none =>
    match Settings.ofEnvironment environment with
    | .ok settings => run (.create settings r)
    | .error e => ⟨.error e, none, []⟩

end Shared

end Metrology
