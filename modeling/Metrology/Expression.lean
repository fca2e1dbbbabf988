import Metrology.Error

/-!
Unit expressions: products of rational powers of named units. A product is kept with its names in order, each
once and with an exponent other than zero, so that equal products are equal values.
-/

namespace Metrology

abbrev Component := String × Rat

structure Expression where
  components : List Component
  deriving DecidableEq

namespace Expression

-- Adds a power of a name to a list ordered by name.
def accumulate (name : String) (r : Rat) : List Component → List Component
  | [] => [(name, r)]
  | (other, s) :: rest =>
    if name = other then (other, s + r) :: rest
    else if name < other then (name, r) :: (other, s) :: rest
    else (other, s) :: accumulate name r rest

-- Sums the exponents of each name and drops the names whose sum is zero.
def ofComponents (components : List Component) : Expression where
  components := (components.foldl (fun sums (name, r) => accumulate name r sums) []).filter (·.2 ≠ 0)

def isEmpty (e : Expression) : Bool :=
  e.components.isEmpty

def powerText (name : String) (r : Rat) : String :=
  if r = 1 then name
  else if r.den = 1 then s!"{name}^{r.num}"
  else s!"{name}^({r.num}/{r.den})"

-- Positive powers above the line, the others below it with the opposite sign.
def render (e : Expression) : String :=
  if e.components = [] then "dimensionless" else
  let above := (e.components.filter (0 < ·.2)).map fun (name, r) => powerText name r
  let below := (e.components.filter (¬ 0 < ·.2)).map fun (name, r) => powerText name (-r)
  let numerator := if above = [] then "1" else "*".intercalate above
  if below = [] then numerator else numerator ++ "/" ++ "*".intercalate below

def exponents (e : Expression) : List Rat :=
  e.components.map (·.2)

-- Whether the expression is one unit with exponent one.
def isSingle (e : Expression) : Bool :=
  match e.components with
  | [(_, r)] => r = 1
  | _ => false

theorem ofComponents_ne_zero {components : List Component} {c : Component}
    (h : c ∈ (ofComponents components).components) : c.2 ≠ 0 := by
  simp only [ofComponents, List.mem_filter, decide_eq_true_eq] at h
  exact h.2

end Expression

end Metrology
