import Metrology.Catalog.Base
import Metrology.Catalog.Derived
import Metrology.Registry

/-!
The built-in units and the frozen registry that holds them.
-/

namespace Metrology

def Catalog.definitions : List (Definition Float) :=
  lengths ++ masses ++ times ++ currents ++ temperatures ++ amounts ++ luminousIntensities ++ ratios ++
    areas ++ volumes ++ velocities ++ accelerations ++ frequencies ++ forces ++ energies ++ powerUnits ++
    powerOverTime ++ pressures ++ charges ++ electricUnits

def Catalog.find (symbol : String) : Except Error (Definition Float) :=
  match definitions.find? (·.symbol == symbol) with
  | some d => .ok d
  | none => .error (.unknownDefinition symbol)

-- No name is given to two different units.
theorem Catalog.isSome_build : (Registry.build definitions true).toOption.isSome := by
  decide +kernel

def Registry.standard : Registry Float :=
  (build Catalog.definitions true).toOption.get Catalog.isSome_build

end Metrology
