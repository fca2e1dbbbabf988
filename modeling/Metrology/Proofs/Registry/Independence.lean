import Metrology.Proofs.Registry.Algebra
import Metrology.Proofs.Registry.Changes

/-!
Definitions that have nothing to do with each other. None of them is named in the definition of another, so each one
answers as it would alone, whether it succeeds or fails, and their order does not matter.
-/

namespace Metrology.Registry

open Expression

-- A unit that is to be defined.
structure NewUnit (α : Type) where
  name : String
  meaning : Meaning α
  factor : Given α
  offset : Given α
  replace : Bool

namespace NewUnit

variable {α : Type}

-- Whether the unit is defined by an expression with a name.
def mentions (c : NewUnit α) (n : String) : Bool :=
  match c.meaning with
  | .text t => (parse t).toOption.any fun e => e.components.any (·.1 == n)
  | .form _ => false

-- Units with different names, none of them defined by the other.
structure Independent (c c' : NewUnit α) : Prop where
  name_ne : c.name ≠ c'.name
  not_mentions : c.mentions c'.name = false
  not_mentioned : c'.mentions c.name = false

theorem Independent.symm {c c' : NewUnit α} (h : Independent c c') : Independent c' c :=
  ⟨h.name_ne.symm, h.not_mentioned, h.not_mentions⟩

instance (c c' : NewUnit α) : Decidable (Independent c c') :=
  decidable_of_iff (c.name ≠ c'.name ∧ c.mentions c'.name = false ∧ c'.mentions c.name = false)
    ⟨fun h => ⟨h.1, h.2.1, h.2.2⟩, fun h => ⟨h.name_ne, h.not_mentions, h.not_mentioned⟩⟩

variable [Scalar α]

def define (c : NewUnit α) : Action α (Registry α) (BaseForm α) :=
  Registry.define c.name c.meaning c.factor c.offset c.replace

-- The form that is entered for the unit.
def form (c : NewUnit α) (r : Registry α) : Except Error (BaseForm α) :=
  newForm r c.name c.meaning c.factor c.offset c.replace

end NewUnit

variable {α : Type} [Scalar α]

-- The registry after some definitions, whether they succeed or fail.
def defineEach (r : Registry α) (cs : List (NewUnit α)) : Registry α :=
  cs.foldl (fun r c => (c.define r).state) r

-- What the definitions answer.
def answers (r : Registry α) : List (NewUnit α) → List (NewUnit α × Except Error (BaseForm α))
  | [] => []
  | c :: rest => (c, (c.define r).result) :: answers (c.define r).state rest

-- Registries that are the same for a definition: it looks at its own name and at those in its expression.
structure Alike (c : NewUnit α) (r r' : Registry α) : Prop where
  frozen_eq : r'.frozen = r.frozen
  find?_name : r'.find? c.name = r.find? c.name
  find?_mentioned {n : String} : c.mentions n → r'.find? n = r.find? n

variable {r r' : Registry α} {c c' : NewUnit α} {cs cs' : List (NewUnit α)} {n : String} {v : BaseForm α}

theorem Alike.base_eq (h : Alike c r r') : c.meaning.base r' = c.meaning.base r := by
  cases hm : c.meaning
  case form => rfl
  case text t =>
    simp only [Meaning.base, reduceText]
    cases hp : parse t
    case error => rfl
    case ok e =>
      have hmentions : ∀ d ∈ e.components, c.mentions d.1 := by
        intro d hd
        simp only [NewUnit.mentions, hm, hp, Except.toOption, Option.any_some, List.any_eq_true]
        exact ⟨d, hd, beq_self_eq_true d.1⟩
      exact reduce_congr fun d hd => h.find?_mentioned (hmentions d hd)

theorem Alike.form_eq (h : Alike c r r') : c.form r' = c.form r := by
  have hm : r'.requireMutable = r.requireMutable := by rw [requireMutable, requireMutable, h.frozen_eq]
  have hc : r'.contains c.name = r.contains c.name := by rw [contains, contains, h.find?_name]
  simp only [NewUnit.form, newForm, hm, hc, h.base_eq]

theorem result_define (c : NewUnit α) (r : Registry α) :
    (c.define r).result = (c.form r).bind fun v => c.meaning.requireLabel.map fun _ => v :=
  (define_eq ..).1

theorem state_define (c : NewUnit α) (r : Registry α) :
    (c.define r).state = (c.form r).toOption.elim r fun v => r.commit (r.units.insert c.name v) :=
  (define_eq ..).2

theorem find?_state_define (c : NewUnit α) (r : Registry α) (h : ∀ v, c.form r = .ok v → c.name ≠ n) :
    (c.define r).state.find? n = r.find? n := by
  rw [state_define]
  cases hv : c.form r
  case error => rfl
  case ok v => exact (UnitTable.getElem?_insert r.units c.name n v).trans (if_neg (h v hv))

-- What is defined independently looks the same before and after.
theorem alike_define (h : c.Independent c') (r : Registry α) : Alike c r (c'.define r).state where
  frozen_eq := by
    rw [state_define]
    cases c'.form r <;> rfl
  find?_name := find?_state_define c' r fun _ _ => h.name_ne.symm
  find?_mentioned {n} hn := by
    apply find?_state_define
    rintro _ _ rfl
    simp [h.not_mentions] at hn

theorem form_define (h : c.Independent c') (r : Registry α) : c.form (c'.define r).state = c.form r :=
  (alike_define h r).form_eq

-- Each definition answers as it does alone.
theorem answers_eq (h : cs.Pairwise NewUnit.Independent) (r : Registry α) :
    answers r cs = cs.map fun c => (c, (c.define r).result) := by
  induction cs generalizing r
  case nil => rfl
  case cons c rest hi =>
    obtain ⟨hc, hrest⟩ := List.pairwise_cons.1 h
    have hsame : ∀ d ∈ rest, (d.define (c.define r).state).result = (d.define r).result := by
      intro d hd
      rw [result_define, result_define, form_define (hc d hd).symm]
    rw [answers, hi hrest, List.map_cons]
    exact congrArg _ (List.map_congr_left fun d hd => congrArg _ (hsame d hd))

-- A name that no definition enters stands for what it did.
theorem find?_defineEach_other (h : cs.Pairwise NewUnit.Independent) (r : Registry α)
    (hn : ∀ c ∈ cs, ∀ v, c.form r = .ok v → c.name ≠ n) : (defineEach r cs).find? n = r.find? n := by
  induction cs generalizing r
  case nil => rfl
  case cons c rest hi =>
    obtain ⟨hc, hrest⟩ := List.pairwise_cons.1 h
    obtain ⟨hnc, hnrest⟩ := List.forall_mem_cons.1 hn
    rw [defineEach, List.foldl_cons, ← defineEach, hi hrest, find?_state_define c r hnc]
    intro d hd v hv
    rw [form_define (hc d hd).symm] at hv
    exact hnrest d hd v hv

-- A name that a definition enters stands for its form.
theorem find?_defineEach (h : cs.Pairwise NewUnit.Independent) (r : Registry α) (hm : c ∈ cs)
    (hv : c.form r = .ok v) : (defineEach r cs).find? c.name = some v := by
  induction cs generalizing r
  case nil => contradiction
  case cons d rest hi =>
    obtain ⟨hd, hrest⟩ := List.pairwise_cons.1 h
    rw [defineEach, List.foldl_cons, ← defineEach]
    rcases List.mem_cons.1 hm with rfl | hm
    case inr => exact hi hrest _ hm ((form_define (hd c hm).symm r).trans hv)
    case inl =>
      rw [find?_defineEach_other hrest _ fun d hm _ _ => (hd d hm).name_ne.symm, state_define, hv]
      exact Std.TreeMap.getElem?_insert_self

theorem frozen_defineEach (r : Registry α) (cs : List (NewUnit α)) : (defineEach r cs).frozen = r.frozen := by
  induction cs generalizing r
  case nil => rfl
  case cons c rest hi =>
    rw [defineEach, List.foldl_cons, ← defineEach, hi, state_define]
    cases c.form r <;> rfl

theorem version_defineEach (h : cs.Pairwise NewUnit.Independent) (r : Registry α) :
    (defineEach r cs).version = r.version + cs.countP fun c => (c.form r).isOk := by
  induction cs generalizing r
  case nil => rfl
  case cons c rest hi =>
    obtain ⟨hc, hrest⟩ := List.pairwise_cons.1 h
    have hcount : rest.countP (fun d => (d.form (c.define r).state).isOk) = rest.countP fun d => (d.form r).isOk :=
      List.countP_congr fun d hd => by rw [form_define (hc d hd).symm]
    rw [defineEach, List.foldl_cons, ← defineEach, hi hrest, hcount, List.countP_cons, state_define]
    cases c.form r
    case error => rfl
    case ok => exact Nat.add_right_comm ..

-- What comes of two orders of some definitions: the answers are the same, each for its definition, and so are the
-- units, the version and whether the registry is frozen.
structure Commutes (r : Registry α) (cs cs' : List (NewUnit α)) : Prop where
  answers : (answers r cs).Perm (answers r cs')
  units : (defineEach r cs).units.Equiv (defineEach r cs').units
  version_eq : (defineEach r cs).version = (defineEach r cs').version
  frozen_eq : (defineEach r cs).frozen = (defineEach r cs').frozen

theorem find?_defineEach_perm (hp : cs.Perm cs') (h : cs.Pairwise NewUnit.Independent) (r : Registry α) (n : String) :
    (defineEach r cs).find? n = (defineEach r cs').find? n := by
  have h' : cs'.Pairwise NewUnit.Independent := (hp.pairwise_iff NewUnit.Independent.symm).1 h
  by_cases hn : ∃ c ∈ cs, ∃ v, c.form r = .ok v ∧ c.name = n
  case pos =>
    obtain ⟨c, hc, v, hv, rfl⟩ := hn
    rw [find?_defineEach h r hc hv, find?_defineEach h' r (hp.mem_iff.1 hc) hv]
  case neg =>
    have hother : ∀ c ∈ cs, ∀ v, c.form r = .ok v → c.name ≠ n := fun c hc v hv hcn => hn ⟨c, hc, v, hv, hcn⟩
    rw [find?_defineEach_other h r hother, find?_defineEach_other h' r fun c hc => hother c (hp.mem_iff.2 hc)]

-- The order of independent definitions does not matter.
theorem defineEach_perm (r : Registry α) (hp : cs.Perm cs') (h : cs.Pairwise NewUnit.Independent) :
    Commutes r cs cs' := by
  have h' : cs'.Pairwise NewUnit.Independent := (hp.pairwise_iff NewUnit.Independent.symm).1 h
  constructor
  case answers =>
    rw [answers_eq h, answers_eq h']
    exact hp.map _
  case units => exact .of_forall_constGet?_eq (find?_defineEach_perm hp h r)
  case version_eq => rw [version_defineEach h, version_defineEach h', hp.countP_eq]
  case frozen_eq => rw [frozen_defineEach, frozen_defineEach]

-- A definition that succeeds, one by an unknown unit and one that replaces a unit by a ready form.
def threeUnits : List (NewUnit Float) :=
  [⟨"foot", .text "m", .scalar 0.3048, .scalar 0, false⟩, ⟨"rod", .text "chain", .scalar 0.25, .scalar 0, false⟩,
    ⟨"s", .form ⟨.single .time, 60, 0, "min", .composed⟩, .integer 1, .integer 0, true⟩]

theorem defineEach_perm_threeUnits :
    threeUnits.Perm threeUnits.reverse ∧ threeUnits.Pairwise NewUnit.Independent ∧
      (answers metreAndSecond threeUnits).map (·.2.isOk) = [true, false, true] ∧
      Commutes metreAndSecond threeUnits threeUnits.reverse := by
  have hp : threeUnits.Perm threeUnits.reverse := (List.reverse_perm _).symm
  have hi : threeUnits.Pairwise NewUnit.Independent := by decide +kernel
  exact ⟨hp, hi, by decide +kernel, defineEach_perm metreAndSecond hp hi⟩

end Metrology.Registry
