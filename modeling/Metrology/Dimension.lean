/-!
Base dimensions and products of their rational powers.
-/

namespace Metrology

inductive BaseDimension
  | length
  | mass
  | time
  | current
  | temperature
  | amount
  | luminousIntensity
  deriving DecidableEq, Repr

namespace BaseDimension

def all : List BaseDimension :=
  [length, mass, time, current, temperature, amount, luminousIntensity]

theorem mem_all (d : BaseDimension) : d ∈ all := by
  cases d <;> decide

def name : BaseDimension → String
  | length => "Length"
  | mass => "Mass"
  | time => "Time"
  | current => "Current"
  | temperature => "Temperature"
  | amount => "Amount"
  | luminousIntensity => "LuminousIntensity"

-- The symbol of the base unit.
def symbol : BaseDimension → String
  | length => "m"
  | mass => "kg"
  | time => "s"
  | current => "A"
  | temperature => "K"
  | amount => "mol"
  | luminousIntensity => "cd"

def ofName? (name : String) : Option BaseDimension :=
  all.find? (·.name == name)

-- The order in which signatures list the dimensions.
def bySymbol : List BaseDimension :=
  [current, temperature, luminousIntensity, mass, length, amount, time]

theorem mem_bySymbol (d : BaseDimension) : d ∈ bySymbol := by
  cases d <;> decide

theorem bySymbol_sorted : bySymbol.Pairwise (·.symbol < ·.symbol) := by
  decide

theorem symbol_injective {d e : BaseDimension} (h : d.symbol = e.symbol) : d = e := by
  cases d <;> cases e <;> first | rfl | exact absurd h (by decide)

end BaseDimension

-- The exponent of every base dimension.
structure Dimensions where
  length : Rat
  mass : Rat
  time : Rat
  current : Rat
  temperature : Rat
  amount : Rat
  luminousIntensity : Rat
  deriving DecidableEq

namespace Dimensions

def get (v : Dimensions) : BaseDimension → Rat
  | .length => v.length
  | .mass => v.mass
  | .time => v.time
  | .current => v.current
  | .temperature => v.temperature
  | .amount => v.amount
  | .luminousIntensity => v.luminousIntensity

def ofFn (f : BaseDimension → Rat) : Dimensions where
  length := f .length
  mass := f .mass
  time := f .time
  current := f .current
  temperature := f .temperature
  amount := f .amount
  luminousIntensity := f .luminousIntensity

@[simp]
theorem get_ofFn (f : BaseDimension → Rat) (d : BaseDimension) : (ofFn f).get d = f d := by
  cases d <;> rfl

@[ext]
theorem ext {v w : Dimensions} (h : ∀ d, v.get d = w.get d) : v = w := by
  cases v
  cases w
  simp only [mk.injEq]
  exact ⟨h .length, h .mass, h .time, h .current, h .temperature, h .amount, h .luminousIntensity⟩

instance : Zero Dimensions := ⟨ofFn fun _ => 0⟩
instance : Add Dimensions := ⟨fun v w => ofFn fun d => v.get d + w.get d⟩
instance : Sub Dimensions := ⟨fun v w => ofFn fun d => v.get d - w.get d⟩

-- The exponents of a power.
def scale (r : Rat) (v : Dimensions) : Dimensions :=
  ofFn fun d => v.get d * r

def single (d : BaseDimension) : Dimensions :=
  ofFn fun e => if e = d then 1 else 0

-- Replaces the exponent of one dimension.
def set (v : Dimensions) (d : BaseDimension) (r : Rat) : Dimensions :=
  ofFn fun e => if e = d then r else v.get e

@[simp] theorem get_zero (d : BaseDimension) : (0 : Dimensions).get d = 0 := get_ofFn ..
@[simp] theorem get_add (v w : Dimensions) (d : BaseDimension) : (v + w).get d = v.get d + w.get d := get_ofFn ..
@[simp] theorem get_sub (v w : Dimensions) (d : BaseDimension) : (v - w).get d = v.get d - w.get d := get_ofFn ..
@[simp] theorem get_scale (r : Rat) (v : Dimensions) (d : BaseDimension) : (v.scale r).get d = v.get d * r := get_ofFn ..

def toList (v : Dimensions) : List Rat :=
  BaseDimension.all.map v.get

def ofList? : List Rat → Option Dimensions
  | [length, mass, time, current, temperature, amount, luminousIntensity] =>
    some { length, mass, time, current, temperature, amount, luminousIntensity }
  | _ => none

-- The dimensions that occur, with their exponents.
def terms (v : Dimensions) : List (BaseDimension × Rat) :=
  (BaseDimension.all.map fun d => (d, v.get d)).filter (·.2 ≠ 0)

-- Adds up the exponents listed for each dimension.
def ofTerms (terms : List (BaseDimension × Rat)) : Dimensions :=
  terms.foldl (fun v (d, r) => v.set d (v.get d + r)) 0

theorem mem_terms_iff {v : Dimensions} {d : BaseDimension} {r : Rat} :
    (d, r) ∈ v.terms ↔ r = v.get d ∧ r ≠ 0 := by
  simp only [terms, List.mem_filter, List.mem_map, Prod.mk.injEq, decide_eq_true_eq]
  constructor
  · rintro ⟨⟨e, -, rfl, rfl⟩, h⟩
    exact ⟨rfl, h⟩
  · rintro ⟨rfl, h⟩
    exact ⟨⟨d, BaseDimension.mem_all d, rfl, rfl⟩, h⟩

end Dimensions

end Metrology
