import Metrology.Definition
import Metrology.Scalar.Binary64

/-!
Catalog entries: units of one kind of quantity, each by its size in base units and its names.
-/

namespace Metrology.Catalog

structure Entry where
  symbol : String
  factor : Float := 1
  offset : Float := 0
  aliases : List String := []
  longNames : List String := []
  siPrefixes : List (SiPrefix Float) := []

namespace Entry

-- What makes an entry a definition.
def IsValid (e : Entry) : Prop :=
  e.symbol ≠ "" ∧ (e.siPrefixes = [] ∨ Scalar.isZero e.offset)

instance : DecidablePred IsValid :=
  fun _ => inferInstanceAs (Decidable (_ ∧ _))

def definition (family : Definition.Family) (dimensions : Dimensions) (e : Entry) (valid : e.IsValid) :
    Definition Float where
  family := family
  symbol := e.symbol
  form := ⟨dimensions, e.factor, e.offset, e.symbol, .composed⟩
  aliases := e.aliases
  longNames := e.longNames
  siPrefixes := e.siPrefixes
  named := valid.1
  linear := valid.2.imp_right (Bool.not_not _).trans

-- Definitions of units with the same dimensions.
def definitions (family : Definition.Family) (dimensions : Dimensions) (entries : List Entry)
    (valid : ∀ e ∈ entries, e.IsValid := by decide +kernel) : List (Definition Float) :=
  entries.pmap (definition family dimensions) valid

end Entry

-- Integer powers of base dimensions.
def powers (terms : List (BaseDimension × Int)) : Dimensions :=
  Dimensions.ofTerms (terms.map fun (d, n) => (d, (n : Rat)))

end Metrology.Catalog
