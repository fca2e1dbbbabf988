import Metrology.Proofs.Expression.Grouped

/-!
The plain spelling is a normal form: it is its own plain spelling, and it is read as what the text is that it was made
from.
-/

namespace Metrology.Expression

open Text

variable {b : DigitBound} {s t : List Char}

-- How two texts that are the same to a reader are read: as one expression, or they are both refused, for their syntax
-- or for a run of digits that is too long.
inductive Agrees (b : DigitBound) : Except Error Expression → Except Error Expression → Prop
  | read (e : Expression) : Agrees b (.ok e) (.ok e)
  | malformed (s t : List Char) (fault : SyntaxFault) :
    Agrees b (.error (.syntaxAt s fault)) (.error (.syntaxAt t fault))
  | tooLong (n : Nat) (h : b.admits n = false) : Agrees b (.error (.numeralTooLong n)) (.error (.numeralTooLong n))

theorem agrees_self (b : DigitBound) (text : String) : Agrees b (parseWithin b text) (parseWithin b text) := by
  cases h : parseWithin b text
  case ok e => exact .read e
  case error e =>
    have hrefused := refused_of_parseWithin h
    cases hrefused
    case malformed s fault => exact .malformed s s fault
    case tooLong ds _ _ hb => exact .tooLong ds.length hb

-- All that is read of a text is its plain spelling.
theorem parseWithin_congr (h : plain s = plain t) :
    parseWithin b (String.ofList s) = parseWithin b (String.ofList t) := by
  rw [parseWithin, parseWithin, String.toList_ofList, String.toList_ofList, h]

theorem isBalanced_plain (h : plain s = .ok t) : isBalanced 0 t := by
  obtain ⟨hb, -, ht⟩ := plain_eq_ok_iff.1 h
  exact ht ▸ isBalanced_unwrap hb

-- Normalisation has nothing left to do for a plain text.
theorem plain_plain (h : plain s = .ok t) : plain t = .ok t := by
  have hsettled : ∀ c ∈ t, IsSettled c := fun c hc => isSettled_of_mem_plain h hc
  rw [plain_eq_ok_iff, marked_settled hsettled, marked_plain h, plain_unwrap h]
  exact ⟨isBalanced_plain h, Classical.em (t = []), rfl⟩

-- A spelling of a text that normalisation leaves as it is, and that stands for the text.
structure IsNormalForm (b : DigitBound) (s t : List Char) : Prop where
  again : plain t = .ok t
  settled : ∀ c ∈ t, IsSettled c
  balanced : isBalanced 0 t
  ne_group : ∀ u, isBalanced 0 u → t ≠ group u
  agrees : Agrees b (parseWithin b (String.ofList s)) (parseWithin b (String.ofList t))

theorem plain_isNormalForm (b : DigitBound) (h : plain s = .ok t) : IsNormalForm b s t := by
  constructor
  case again => exact plain_plain h
  case settled => exact fun c hc => isSettled_of_mem_plain h hc
  case balanced => exact isBalanced_plain h
  case ne_group =>
    intro u hu
    rw [← plain_unwrap h]
    exact unwrap_ne_group t hu
  case agrees =>
    have hsame : plain s = plain t := h.trans (plain_plain h).symm
    exact parseWithin_congr hsame ▸ agrees_self b _

theorem plain_isNormalForm_square :
    plain ['(', 'm', '²', ' ', ')'] = .ok ['m', '^', '2'] ∧
      IsNormalForm .standard ['(', 'm', '²', ' ', ')'] ['m', '^', '2'] := by
  have h : plain ['(', 'm', '²', ' ', ')'] = .ok ['m', '^', '2'] := by decide +kernel
  exact ⟨h, plain_isNormalForm .standard h⟩

theorem plain_group (h : plain s = .ok t) (hn : t ≠ []) : plain (group t) = .ok t := by
  have hb := isBalanced_plain h
  have hsettled : ∀ c ∈ group t, IsSettled c := isSettled_group fun c hc => isSettled_of_mem_plain h hc
  rw [plain_eq_ok_iff, marked_settled hsettled, markFrom_group hb, marked_plain h, unwrap_group hb, plain_unwrap h]
  exact ⟨isBalanced_group hb, .inr hn, rfl⟩

-- Both texts are refused, and neither for its syntax.
theorem parse_tooLong_not_agrees :
    let t := 'm' :: '^' :: List.replicate 4301 '3'
    plain (group t) = .ok t ∧ parse (String.ofList t) = .error (.numeralTooLong 4301) ∧
      ¬Agrees none (parse (String.ofList (group t))) (parse (String.ofList t)) := by
  intro t
  have hd : ∀ c ∈ List.replicate 4301 '3', isAsciiDigit c := fun c hc => List.eq_of_mem_replicate hc ▸ by decide
  have hb : DigitBound.standard.admits (List.replicate 4301 '3').length = false := by rw [List.length_replicate]; decide
  have hn : List.replicate 4301 '3' ≠ [] := List.ne_nil_of_length_pos (by rw [List.length_replicate]; decide)
  have hp : plain t = .ok t := by
    have h := plain_metrePower hd hn (.inl rfl)
    rwa [List.append_nil] at h
  have hgroup : plain (group t) = .ok t := plain_group hp (List.cons_ne_nil _ _)
  have hparse : parse (String.ofList t) = .error (.numeralTooLong 4301) := by
    have h := parseWithin_tooLong hd hb (.inl rfl)
    rwa [List.append_nil, List.length_replicate] at h
  have hsame : parse (String.ofList (group t)) = parse (String.ofList t) := parseWithin_congr (hgroup.trans hp.symm)
  refine ⟨hgroup, hparse, ?_⟩
  rw [hsame, hparse]
  intro h
  cases h
  case tooLong h => exact absurd h (by decide)

end Metrology.Expression
