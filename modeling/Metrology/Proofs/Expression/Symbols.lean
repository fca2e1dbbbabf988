import Metrology.Expression.Spelling
import Metrology.Proofs.Expression.Balance

/-!
The characters of normalised text. Other spellings of operators, superscripts and blanks are gone from it, and
text without them is not changed.
-/

namespace Metrology.Expression

open Text

variable {c x : Char} {s t : List Char} {inRun : Bool}

-- A character that normalisation leaves as it is.
structure IsSettled (c : Char) : Prop where
  operator : plainOperator c = c
  superscript : plainSuperscript? c = none
  blank : isBlank c = false

instance (c : Char) : Decidable (IsSettled c) :=
  decidable_of_iff (plainOperator c = c ∧ plainSuperscript? c = none ∧ isBlank c = false)
    ⟨fun ⟨h₁, h₂, h₃⟩ => ⟨h₁, h₂, h₃⟩, fun ⟨h₁, h₂, h₃⟩ => ⟨h₁, h₂, h₃⟩⟩

theorem isSettled_of_isAsciiDigit (h : isAsciiDigit c) : IsSettled c := by
  simp only [isAsciiDigit, Bool.and_eq_true, decide_eq_true_eq] at h
  have hall : ∀ n : Nat, n < 0x3a → 0x30 ≤ n → IsSettled (Char.ofNat n) := by decide
  have hc := hall c.toNat (by omega) h.1
  rwa [Char.ofNat_toNat] at hc

theorem isSettled_joined (hs : ∀ c ∈ s, IsSettled c) (hx : IsSettled x) (ht : ∀ c ∈ t, IsSettled c) :
    ∀ c ∈ s ++ x :: t, IsSettled c :=
  List.forall_mem_append.mpr ⟨hs, List.forall_mem_cons.mpr ⟨hx, ht⟩⟩

theorem isSettled_group (h : ∀ c ∈ t, IsSettled c) : ∀ c ∈ group t, IsSettled c :=
  List.forall_mem_cons.mpr ⟨by decide, isSettled_joined h (by decide) (List.forall_mem_nil _)⟩

theorem isSettled_wrap (h : ∀ c ∈ t, IsSettled c) (k : Nat) : ∀ c ∈ wrap k t, IsSettled c := by
  induction k
  case zero => exact h
  case succ k hi => exact isSettled_group hi

theorem plainOperator_cases (c : Char) : plainOperator c = c ∨ plainOperator c = '*' ∨ plainOperator c = '-' := by
  fun_cases plainOperator c
  all_goals simp

theorem plainOperator_idem (c : Char) : plainOperator (plainOperator c) = plainOperator c := by
  rcases plainOperator_cases c with h | h | h
  · rw [h, h]
  all_goals rw [h]; rfl

-- A superscript stands for a digit or a sign.
theorem plainSuperscript?_cases (h : plainSuperscript? x = some c) : isAsciiDigit c ∨ isSign c := by
  rw [plainSuperscript?.eq_def] at h
  split at h
  case h_13 => contradiction
  all_goals
    injection h with h
    subst h
    decide

theorem isSettled_of_isSign (h : isSign c) : IsSettled c := by
  cases (Bool.or_eq_true ..).mp h
  case inl h => exact eq_of_beq h ▸ by decide
  case inr h => exact eq_of_beq h ▸ by decide

theorem plainSuperscript?_settled (h : plainSuperscript? x = some c) : IsSettled c :=
  (plainSuperscript?_cases h).elim isSettled_of_isAsciiDigit isSettled_of_isSign

theorem lowerFrom_settled (h : ∀ c ∈ t, plainSuperscript? c = none) : lowerFrom inRun t = t := by
  induction t generalizing inRun
  case nil => rfl
  case cons c t hi =>
    rw [lowerFrom, h c List.mem_cons_self]
    simp only
    rw [hi fun x hx => h x (List.mem_cons_of_mem c hx)]

theorem mem_lowerFrom (h : c ∈ lowerFrom inRun t) :
    c ∈ t ∧ plainSuperscript? c = none ∨ c = '^' ∨ ∃ x, plainSuperscript? x = some c := by
  induction t generalizing inRun
  case nil => simp [lowerFrom] at h
  case cons x t hi =>
    have hrest (inRun : Bool) (h : c ∈ lowerFrom inRun t) :
        c ∈ x :: t ∧ plainSuperscript? c = none ∨ c = '^' ∨ ∃ x, plainSuperscript? x = some c :=
      (hi h).imp_left fun h => ⟨List.mem_cons_of_mem x h.1, h.2⟩
    rw [lowerFrom] at h
    split at h
    case h_2 hx =>
      cases List.mem_cons.mp h
      case inl h => exact .inl ⟨h ▸ List.mem_cons_self, h ▸ hx⟩
      case inr h => exact hrest _ h
    case h_1 y hx =>
      split at h
      case isTrue =>
        cases List.mem_cons.mp h
        case inl h => exact .inr <| .inr ⟨x, h ▸ hx⟩
        case inr h => exact hrest _ h
      case isFalse =>
        simp only [List.mem_cons] at h
        rcases h with h | h | h
        · exact .inr <| .inl h
        · exact .inr <| .inr ⟨x, h ▸ hx⟩
        · exact hrest _ h

theorem plainSymbols_settled (h : ∀ c ∈ t, IsSettled c) : plainSymbols t = t := by
  have hmap : t.map plainOperator = t := by
    rw [List.map_congr_left (g := id) fun c hc => (h c hc).operator, List.map_id]
  rw [plainSymbols, hmap, lowerFrom_settled fun c hc => (h c hc).superscript]

theorem withoutBlanks_settled (h : ∀ c ∈ t, IsSettled c) : withoutBlanks t = t := by
  rw [withoutBlanks, List.filter_eq_self]
  intro c hc
  simp [(h c hc).blank]

-- Nothing is left to replace in normalised text.
theorem isSettled_of_mem (h : c ∈ withoutBlanks (plainSymbols t)) : IsSettled c := by
  obtain ⟨hc, hb⟩ := mem_withoutBlanks_iff.mp h
  rcases mem_lowerFrom hc with ⟨hm, hs⟩ | rfl | ⟨x, hx⟩
  · obtain ⟨y, _, hy⟩ := List.mem_map.mp hm
    exact ⟨by rw [← hy, plainOperator_idem], hs, hb⟩
  · decide
  · exact plainSuperscript?_settled hx

theorem plainSymbols_cons (h : IsSettled c) (t : List Char) : plainSymbols (c :: t) = c :: plainSymbols t := by
  simp only [plainSymbols, List.map_cons, h.operator, lowerFrom, h.superscript]

theorem plainSymbols_append (h : ∀ c ∈ s, IsSettled c) (t : List Char) :
    plainSymbols (s ++ t) = s ++ plainSymbols t := by
  induction s
  case nil => rfl
  case cons c s hi =>
    obtain ⟨hc, hs⟩ := List.forall_mem_cons.mp h
    rw [List.cons_append, plainSymbols_cons hc, hi hs, List.cons_append]

-- A run of superscripts ends in front of the text.
def EndsRun (t : List Char) : Prop :=
  t.head?.all fun c => plainSuperscript? (plainOperator c) == none

theorem lowerFrom_of_endsRun (h : EndsRun t) : lowerFrom inRun (t.map plainOperator) = plainSymbols t := by
  cases t
  case nil => rfl
  case cons c t =>
    have hc : plainSuperscript? (plainOperator c) = none := by simpa [EndsRun] using h
    simp only [plainSymbols, List.map_cons, lowerFrom, hc]

-- Superscripts are written as a caret and plain characters.
theorem plainSymbols_run {f : Char → Char} (hs : ∀ c ∈ s, plainOperator (f c) = f c ∧ plainSuperscript? (f c) = some c)
    (hn : s ≠ []) (ht : EndsRun t) : plainSymbols (s.map f ++ t) = '^' :: (s ++ plainSymbols t) := by
  have hrun : lowerFrom true ((s.map f ++ t).map plainOperator) = s ++ plainSymbols t := by
    clear hn
    induction s
    case nil => exact lowerFrom_of_endsRun ht
    case cons c s hi =>
      obtain ⟨hc, hs⟩ := List.forall_mem_cons.mp hs
      simp only [List.map_cons, List.cons_append, hc.1, lowerFrom, hc.2, if_true, hi hs]
  cases s
  case nil => contradiction
  case cons c s =>
    obtain ⟨ho, hc⟩ := hs c List.mem_cons_self
    simp only [List.map_cons, List.cons_append, plainSymbols, ho, lowerFrom, hc, if_true, Bool.false_eq_true,
      if_false] at hrun ⊢
    rw [hrun]

end Metrology.Expression
