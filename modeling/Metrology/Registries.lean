import Metrology.Registry

/-!
Several registries side by side, each known by its place. What is done to one of them leaves the others as
they are.
-/

namespace Metrology

abbrev Registries (α : Type) := List (Registry α)

namespace Registries

variable {α β : Type}

-- Does something to the registry at a place.
def on (rs : Registries α) (place : Nat) (a : Action α (Registry α) β) : Option (Outcome α (Registries α) β) :=
  rs[place]?.map fun r =>
    let o := a r
    ⟨o.result, rs.set place o.state, o.events⟩

-- Builds a registry behind the others; the answer is its place.
def build [Scalar α] (rs : Registries α) (definitions : List (Definition α)) (frozen : Bool) :
    Outcome α (Registries α) Nat :=
  match Registry.build definitions frozen with
  | .ok r => ⟨.ok rs.length, rs ++ [r], [.built r.size]⟩
  | .error e => ⟨.error e, rs, []⟩

-- Copies the registry at a place behind the others, into a registry that was empty when it was built.
def copy (rs : Registries α) (place : Nat) : Option (Outcome α (Registries α) Nat) :=
  rs[place]?.map fun r => ⟨.ok rs.length, rs ++ [r.copy], [.built 0]⟩

end Registries

end Metrology
