import Mathlib.Data.List.Perm.Basic
import Metrology.Catalog
import Metrology.Proofs.Expression.Canonical

/-!
Lists of components that differ in how like terms are grouped. Changing the order, splitting a component or joining two
of one name, and leaving out a component with the exponent zero are all that two lists of the same sums can differ in.
The expression that a list makes does not depend on any of it, and neither does what the expression reduces to.
-/

namespace Metrology.Expression

inductive Regrouped : List Component → List Component → Prop
  | perm (h : cs.Perm cs') : Regrouped cs cs'
  | split (n : String) (q r : Rat) (cs : List Component) : Regrouped ((n, q + r) :: cs) ((n, q) :: (n, r) :: cs)
  | zero (n : String) (cs : List Component) : Regrouped ((n, 0) :: cs) cs
  | symm (h : Regrouped cs cs') : Regrouped cs' cs
  | trans (h : Regrouped cs cs') (h' : Regrouped cs' ds) : Regrouped cs ds

variable {c : Component} {cs cs' ds : List Component}

theorem exponentOf_perm (h : cs.Perm cs') (n : String) : exponentOf n cs = exponentOf n cs' := by
  induction h
  case nil => rfl
  case cons c _ hi => rw [exponentOf, exponentOf, hi]
  case swap c d cs => simp only [exponentOf, Rat.add_left_comm]
  case trans hi hi' => exact hi.trans hi'

namespace Regrouped

protected theorem rfl : Regrouped cs cs :=
  perm (.refl cs)

-- By induction on how the lists are regrouped. No move changes what is listed for a name in all.
theorem exponentOf_eq (h : Regrouped cs cs') (n : String) : exponentOf n cs = exponentOf n cs' := by
  induction h
  case perm h => exact exponentOf_perm h n
  case split m q r cs =>
    simp only [exponentOf]
    split
    case isTrue => rw [Rat.add_assoc]
    case isFalse => rw [Rat.zero_add, Rat.zero_add]
  case zero m cs => rw [exponentOf, ite_self, Rat.zero_add]
  case symm hi => exact hi.symm
  case trans hi hi' => exact hi.trans hi'

-- Moves are made at the front. Behind a component they are made by taking it out of the way.
theorem cons (c : Component) (h : Regrouped cs cs') : Regrouped (c :: cs) (c :: cs') := by
  induction h
  case perm h => exact perm (h.cons c)
  case split n q r cs =>
    have hfront : Regrouped (c :: (n, q + r) :: cs) ((n, q + r) :: c :: cs) := perm (.swap ..)
    have hback : Regrouped ((n, q) :: (n, r) :: c :: cs) (c :: (n, q) :: (n, r) :: cs) :=
      perm (.trans (.cons _ (.swap ..)) (.swap ..))
    exact hfront.trans ((split n q r (c :: cs)).trans hback)
  case zero n cs =>
    have hfront : Regrouped (c :: (n, 0) :: cs) ((n, 0) :: c :: cs) := perm (.swap ..)
    exact hfront.trans (zero n (c :: cs))
  case symm hi => exact hi.symm
  case trans hi hi' => exact hi.trans hi'

theorem append_left (ds : List Component) (h : Regrouped cs cs') : Regrouped (ds ++ cs) (ds ++ cs') := by
  induction ds
  case nil => exact h
  case cons d ds hi => exact hi.cons d

theorem accumulate (n : String) (r : Rat) (cs : List Component) : Regrouped ((n, r) :: cs) (accumulate n r cs) := by
  fun_induction Expression.accumulate n r cs
  case case1 => exact .rfl
  case case2 s rest =>
    have hfront : Regrouped ((n, r) :: (n, s) :: rest) ((n, s) :: (n, r) :: rest) := perm (.swap ..)
    exact hfront.trans (split n s r rest).symm
  case case3 => exact .rfl
  case case4 other s rest _ _ hi =>
    have hfront : Regrouped ((n, r) :: (other, s) :: rest) ((other, s) :: (n, r) :: rest) := perm (.swap ..)
    exact hfront.trans (hi.cons (other, s))

theorem foldl_accumulate (cs cs' : List Component) :
    Regrouped (cs ++ cs') (cs.foldl (fun sums (name, r) => Expression.accumulate name r sums) cs') := by
  induction cs generalizing cs'
  case nil => exact .rfl
  case cons c cs hi =>
    have hfront : Regrouped (c :: (cs ++ cs')) (cs ++ c :: cs') := perm List.perm_middle.symm
    have hsum : Regrouped (cs ++ c :: cs') (cs ++ Expression.accumulate c.1 c.2 cs') :=
      (accumulate c.1 c.2 cs').append_left cs
    exact hfront.trans (hsum.trans (hi _))

theorem filter_ne_zero (cs : List Component) : Regrouped cs (cs.filter (·.2 ≠ 0)) := by
  induction cs
  case nil => exact .rfl
  case cons c cs hi =>
    rw [List.filter_cons]
    split
    case isTrue => exact hi.cons c
    case isFalse h =>
      obtain ⟨n, r⟩ := c
      obtain rfl : r = 0 := by simpa using h
      exact (zero n cs).trans hi

-- A list is a regrouping of the components that it combines to.
theorem ofComponents (cs : List Component) : Regrouped cs (ofComponents cs).components := by
  have hsums := foldl_accumulate cs []
  rw [List.append_nil] at hsums
  exact hsums.trans (filter_ne_zero _)

end Regrouped

-- The moves are enough to get from a list to any other of the same sums.
theorem regrouped_iff : Regrouped cs cs' ↔ ∀ n, exponentOf n cs = exponentOf n cs' := by
  constructor
  case mp => exact Regrouped.exponentOf_eq
  case mpr =>
    intro h
    have hcanonical := Regrouped.ofComponents cs
    rw [ofComponents_eq_ofComponents_iff.2 h] at hcanonical
    exact hcanonical.trans (Regrouped.ofComponents cs').symm

theorem ofComponents_components (cs : List Component) :
    ofComponents (ofComponents cs).components = ofComponents cs := by
  rw [ofComponents_eq_ofComponents_iff]
  exact fun n => exponentOf_ofComponents n cs

-- What combining like terms comes to, and that no registry can tell how they were grouped.
theorem ofComponents_normalizes (cs cs' : List Component) :
    (ofComponents cs = ofComponents cs' ↔ ∀ n, exponentOf n cs = exponentOf n cs') ∧ (ofComponents cs).IsCanonical ∧
      ofComponents (ofComponents cs).components = ofComponents cs ∧
      (Regrouped cs cs' → ∀ r : Registry Float, r.reduce (ofComponents cs) = r.reduce (ofComponents cs')) := by
  refine ⟨ofComponents_eq_ofComponents_iff, isCanonical_ofComponents cs, ofComponents_components cs, ?_⟩
  intro h r
  have hsame : ofComponents cs = ofComponents cs' := ofComponents_eq_ofComponents_iff.2 (regrouped_iff.1 h)
  rw [hsame]

theorem ofComponents_normalizes_speed :
    let together : List Component := [("m", 1), ("s", -1)]
    let apart : List Component := [("s", -2), ("m", 1), ("s", 1)]
    Regrouped together apart ∧
      Registry.standard.reduce (ofComponents together) = Registry.standard.reduce (ofComponents apart) := by
  intro together apart
  have h : Regrouped together apart := by
    have hfront : Regrouped together [("s", -1), ("m", 1)] := .perm (.swap ..)
    have hsum : (-2 + 1 : Rat) = -1 := by decide +kernel
    have hsplit : Regrouped [("s", -1), ("m", 1)] [("s", -2), ("s", 1), ("m", 1)] :=
      hsum ▸ .split "s" (-2) 1 [("m", 1)]
    have hback : Regrouped [("s", -2), ("s", 1), ("m", 1)] apart := .perm (.cons _ (.swap ..))
    exact hfront.trans (hsplit.trans hback)
  exact ⟨h, (ofComponents_normalizes together apart).2.2.2 h Registry.standard⟩

end Metrology.Expression
