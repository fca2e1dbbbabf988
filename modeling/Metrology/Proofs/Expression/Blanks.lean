import Metrology.Proofs.Expression.NormalForm
import Metrology.Proofs.Fallible

/-!
Blanks in texts. Where a blank stands does not matter, unless it parts a run of superscripts: then each part is an
exponent of its own, and a text in which an exponent follows another one is not read at all.
-/

namespace Metrology.Expression

open Text

def isSuperscript (c : Char) : Bool :=
  (plainSuperscript? c).isSome

-- Whether a blank between a character and a text parts a run of superscripts.
def partsRun (previous : Option Char) (text : List Char) : Bool :=
  previous.any isSuperscript && text.head?.any isSuperscript

-- A text behind a character, and the text with more blanks in it. The flag tells whether one of them parts a run.
inductive Spaced : Bool → Option Char → List Char → List Char → Prop
  | nil : Spaced false p [] []
  | keep (h : Spaced parted (some c) s t) : Spaced parted p (c :: s) (c :: t)
  | blank (hc : isBlank c) (hp : partsRun p s = false) (h : Spaced parted p s t) : Spaced parted p s (c :: t)
  | parting (hc : isBlank c) (hp : partsRun p s) (h : Spaced parted p s t) : Spaced true p s (c :: t)

variable {b : DigitBound} {c : Char} {p : Option Char} {s t u x : List Char} {inRun parted r : Bool} {q : Rat}
variable {cs : List Component} {e : Expression}

theorem plainSuperscript?_plainOperator (c : Char) : plainSuperscript? (plainOperator c) = plainSuperscript? c := by
  fun_cases plainOperator c
  all_goals rfl

theorem plainOperator_blank (h : isBlank c) : plainOperator c = c := by
  fun_cases plainOperator c
  case case5 => rfl
  all_goals contradiction

theorem plainSuperscript?_blank (h : isBlank c) : plainSuperscript? c = none := by
  fun_cases plainSuperscript? c
  case case13 => rfl
  all_goals contradiction

theorem withoutBlanks_blank (h : isBlank c) (t : List Char) : withoutBlanks (c :: t) = withoutBlanks t :=
  List.filter_cons_of_neg (by simp [h])

theorem withoutBlanks_cons (h : isBlank c = false) (t : List Char) : withoutBlanks (c :: t) = c :: withoutBlanks t :=
  List.filter_cons_of_pos (by simp [h])

theorem withoutBlanks_cons_congr (h : withoutBlanks s = withoutBlanks t) (c : Char) :
    withoutBlanks (c :: s) = withoutBlanks (c :: t) := by
  simp only [withoutBlanks, List.filter_cons] at h ⊢
  rw [h]

theorem lowerFrom_superscript {x : Char} (h : plainSuperscript? c = some x) (t : List Char) :
    lowerFrom inRun ((c :: t).map plainOperator) =
      if inRun then x :: lowerFrom true (t.map plainOperator)
      else '^' :: x :: lowerFrom true (t.map plainOperator) := by
  simp only [List.map_cons, lowerFrom, plainSuperscript?_plainOperator, h]

theorem lowerFrom_other (h : plainSuperscript? c = none) (t : List Char) :
    lowerFrom inRun ((c :: t).map plainOperator) = plainOperator c :: lowerFrom false (t.map plainOperator) := by
  simp only [List.map_cons, lowerFrom, plainSuperscript?_plainOperator, h]

-- A blank ends a run.
theorem lowerFrom_blank (h : isBlank c) (t : List Char) :
    lowerFrom inRun ((c :: t).map plainOperator) = c :: lowerFrom false (t.map plainOperator) := by
  rw [lowerFrom_other (plainSuperscript?_blank h), plainOperator_blank h]

section Apart

-- By induction on where the blanks are. Behind a blank the second text is in no run, and the first is not in one that
-- goes on.
theorem Spaced.withoutBlanks_lowerFrom (h : Spaced parted p s t) (hp : parted = false)
    (hrun : inRun = p.any isSuperscript ∨ s.head?.any isSuperscript = false) :
    withoutBlanks (lowerFrom (p.any isSuperscript) (s.map plainOperator)) =
      withoutBlanks (lowerFrom inRun (t.map plainOperator)) := by
  induction h generalizing inRun
  case nil => rfl
  case keep parted c s t p h hi =>
    have hrest := hi hp (.inl rfl)
    rw [Option.any_some, isSuperscript] at hrest
    cases hc : plainSuperscript? c
    case none =>
      rw [hc] at hrest
      rw [lowerFrom_other hc, lowerFrom_other hc]
      exact withoutBlanks_cons_congr hrest _
    case some x =>
      rw [hc] at hrest
      have hsame : inRun = p.any isSuperscript := hrun.resolve_right (by simp [isSuperscript, hc])
      rw [lowerFrom_superscript hc, lowerFrom_superscript hc, hsame]
      cases p.any isSuperscript
      case true => exact withoutBlanks_cons_congr hrest x
      case false => exact withoutBlanks_cons_congr (withoutBlanks_cons_congr hrest x) '^'
  case blank c p s parted t hc hparts h hi =>
    rw [lowerFrom_blank hc, withoutBlanks_blank hc]
    apply hi hp
    cases ha : p.any isSuperscript
    case false => exact .inl rfl
    case true => exact .inr (by simpa [partsRun, ha] using hparts)
  case parting => contradiction

theorem Spaced.marked_congr (h : Spaced false none s t) : marked s = marked t := by
  have hsettled : settled s = settled t := h.withoutBlanks_lowerFrom rfl (.inl rfl)
  rw [marked_eq, marked_eq, hsettled]

-- The marked text is what is read. The text as it was is only repeated where it is refused.
theorem agrees_of_marked (h : marked s = marked t) :
    Agrees b (parseWithin b (String.ofList s)) (parseWithin b (String.ofList t)) := by
  have hplain : plain s = plain t ∨
      ∃ fault, plain s = .error (.syntaxAt s fault) ∧ plain t = .error (.syntaxAt t fault) := by
    rw [plain, plain, h]
    split
    case isTrue => exact .inr ⟨_, rfl, rfl⟩
    case isFalse =>
      split
      case isTrue => exact .inr ⟨_, rfl, rfl⟩
      case isFalse => exact .inl rfl
  cases hplain
  case inl hsame => exact parseWithin_congr hsame ▸ agrees_self b _
  case inr hfault =>
    obtain ⟨fault, hs, ht⟩ := hfault
    rw [parseWithin, parseWithin, String.toList_ofList, String.toList_ofList, hs, ht]
    exact .malformed s t fault

end Apart

section Chains

-- Whether a caret follows another one with neither an operator nor a parenthesis in between. The flag tells whether
-- there is such a caret in front of the text.
def isChained (caret : Bool) : List Char → Bool
  | [] => false
  | c :: rest => if c = '^' then caret || isChained true rest else isChained (caret && !isReserved c) rest

theorem isChained_caret (t : List Char) : isChained r ('^' :: t) = (r || isChained true t) :=
  if_pos rfl

theorem isChained_other (hc : c ≠ '^') (t : List Char) : isChained r (c :: t) = isChained (r && !isReserved c) t :=
  if_neg hc

theorem isChained_operator (hc : c ≠ '^') (hr : isReserved c) (t : List Char) :
    isChained r (c :: t) = isChained false t := by
  rw [isChained_other hc, hr, Bool.not_true, Bool.and_false]

theorem isChained_behind (hc : c ≠ '^') (hr : isReserved c) (t : List Char) :
    isChained true (c :: t) = isChained false (c :: t) := by
  rw [isChained_operator hc hr, isChained_operator hc hr]

theorem isChained_unreserved (h : ∀ c ∈ s, isReserved c = false) (t : List Char) :
    isChained r (s ++ t) = isChained r t := by
  induction s
  case nil => rfl
  case cons c s hi =>
    obtain ⟨hc, hs⟩ := List.forall_mem_cons.1 h
    have hcaret : c ≠ '^' := fun he => absurd hc (he ▸ by decide)
    rw [List.cons_append, isChained_other hcaret, hc, Bool.not_false, Bool.and_true, hi hs]

-- A caret in front makes no chain less.
theorem isChained_mono (h : isChained r t) : isChained true t := by
  cases r
  case true => exact h
  case false =>
    induction t
    case nil => contradiction
    case cons c t hi =>
      by_cases hc : c = '^'
      case pos => rw [hc, isChained_caret, Bool.true_or]
      case neg =>
        rw [isChained_other hc, Bool.false_and] at h
        rw [isChained_other hc]
        cases isReserved c
        case true => exact h
        case false => exact hi h

theorem isChained_append_of (h : ∀ r, isChained r t → isChained r u) (x : List Char) (hx : isChained r (x ++ t)) :
    isChained r (x ++ u) := by
  induction x generalizing r
  case nil => exact h r hx
  case cons c x hi =>
    by_cases hc : c = '^'
    case pos =>
      subst hc
      rw [List.cons_append, isChained_caret, Bool.or_eq_true] at hx ⊢
      exact hx.imp_right hi
    case neg =>
      rw [List.cons_append, isChained_other hc] at hx ⊢
      exact hi hx

theorem isChained_cons (h : ∀ r, isChained r t) (c : Char) : isChained r (c :: t) := by
  by_cases hc : c = '^'
  case pos => rw [hc, isChained_caret, h, Bool.or_true]
  case neg =>
    rw [isChained_other hc]
    exact h _

-- Marking takes no caret away.
theorem isChained_markFrom (p : Option Char) (h : isChained r t) : isChained r (markFrom p t) := by
  induction scanned t generalizing r p
  case nil => contradiction
  case caret x t hx _ hi =>
    rw [markFrom_caret hx]
    exact isChained_append_of (fun _ => hi _) ('^' :: x) h
  case digits ds t hn hd hh _ hi =>
    have hrest : isChained r (ds ++ markFrom ds.getLast? t) := isChained_append_of (fun _ => hi _) ds h
    rw [markFrom_digits hn hd hh]
    split
    case isFalse => exact hrest
    case isTrue =>
      rw [List.cons_append, isChained_caret, Bool.or_eq_true]
      exact .inr (isChained_mono hrest)
  case other c t hc hd _ hi =>
    rw [markFrom_other hc hd]
    exact isChained_append_of (fun _ => hi _) [c] h

theorem IsNumber.isChained (h : IsNumber b x q) (t : List Char) :
    isChained r (x ++ ')' :: t) = isChained false t := by
  cases h
  case integer h => rw [isChained_unreserved h.unreserved, isChained_operator (by decide) (by decide)]
  case fraction hx hy _ =>
    rw [List.append_assoc, isChained_unreserved hx.unreserved, List.cons_append,
      isChained_operator (by decide) (by decide), isChained_unreserved hy.unreserved,
      isChained_operator (by decide) (by decide)]

theorem isChained_group (r : Bool) (s t : List Char) :
    isChained r (group s ++ t) = isChained false (s ++ ')' :: t) := by
  have hgroup : group s ++ t = '(' :: (s ++ ')' :: t) := by simp [group]
  rw [hgroup, isChained_operator (by decide) (by decide)]

theorem IsExponent.isChained (h : IsExponent b x q) (ht : isChained true t = isChained false t) :
    isChained true (x ++ t) = isChained false t := by
  cases h
  case integer h => rw [isChained_unreserved h.unreserved, ht]
  case fraction hx hy _ _ =>
    rw [List.append_assoc, isChained_unreserved hx.unreserved, List.cons_append,
      isChained_operator (by decide) (by decide), isChained_unreserved hy.unreserved]
  case wrapped x k h =>
    -- inside of all the pairs is a number, behind it only parentheses
    have hwrap (r : Bool) (u : List Char) :
        Expression.isChained r (wrap (k + 1) x ++ u) = Expression.isChained false u := by
      induction k generalizing r u
      case zero => rw [wrap, wrap, isChained_group, h.isChained]
      case succ k hi =>
        rw [wrap, isChained_group, hi, isChained_operator (by decide) (by decide)]
    exact hwrap true t

-- By induction on what is read. A caret has its exponent behind it, and behind that comes an operator, a parenthesis or
-- the end of the text.
theorem Reads.isChained {part : Part} (h : Reads b part t cs)
    (hu : part ≠ .base → isChained true u = isChained false u) : isChained false (t ++ u) = isChained false u := by
  induction h generalizing u
  case one => rfl
  case name h => exact isChained_unreserved h.unreserved u
  case group hi =>
    rw [isChained_group, hi fun _ => isChained_behind (by decide) (by decide) u,
      isChained_operator (by decide) (by decide)]
  case bare hi => exact hi fun h => absurd rfl h
  case power hx hi =>
    rw [List.append_assoc, hi fun h => absurd rfl h, List.cons_append, isChained_caret, Bool.false_or]
    exact hx.isChained (hu (by simp))
  case single hi => exact hi fun _ => hu (by simp)
  case times hi hi' | per hi hi' =>
    rw [List.append_assoc, List.cons_append, hi fun _ => isChained_behind (by decide) (by decide) _,
      isChained_operator (by decide) (by decide), hi' fun _ => hu (by simp)]

-- No text with a chain is read.
theorem not_isChained (h : parseWithin b (String.ofList s) = .ok e) : isChained false (marked s) = false := by
  by_cases hm : marked s = []
  case pos => rw [hm, isChained]
  case neg =>
    obtain ⟨cs, hr, -⟩ := reads_marked h hm
    rw [← List.append_nil (marked s), hr.isChained fun _ => rfl, isChained]

end Chains

section Parted

theorem isReserved_of_plainSuperscript? {x : Char} (h : plainSuperscript? c = some x) : isReserved x = false :=
  (plainSuperscript?_cases h).elim (fun h => isReserved_of_isDigit (isDigit_of_isAsciiDigit h)) isReserved_of_isSign

-- What is left of a run behind a blank starts with a caret.
theorem Spaced.isChained_of_parts (h : Spaced parted p s t) (hs : s.head?.any isSuperscript) :
    isChained true (withoutBlanks (lowerFrom false (t.map plainOperator))) := by
  induction h
  case nil => contradiction
  case keep c s t _ _ _ =>
    obtain ⟨x, hx⟩ := Option.isSome_iff_exists.1 hs
    rw [lowerFrom_superscript hx]
    rfl
  case blank hc _ _ hi | parting hc _ _ hi =>
    rw [lowerFrom_blank hc, withoutBlanks_blank hc]
    exact hi hs

-- By induction on where the blanks are, up to the one that parts a run. In front of it stands the caret of the run.
theorem Spaced.isChained (h : Spaced parted p s t) (hp : parted) (hrun : inRun → r) (hs : p.any isSuperscript → r) :
    isChained r (withoutBlanks (lowerFrom inRun (t.map plainOperator))) := by
  induction h generalizing inRun r
  case nil => contradiction
  case keep c s t p h hi =>
    cases hc : plainSuperscript? c
    case some x =>
      have hx : isReserved x = false := isReserved_of_plainSuperscript? hc
      have hb : isBlank x = false := (plainSuperscript?_settled hc).blank
      have hcaret : x ≠ '^' := fun he => absurd hx (he ▸ by decide)
      have hrest : Expression.isChained true (withoutBlanks (lowerFrom true (t.map plainOperator))) :=
        hi hp id fun _ => rfl
      rw [lowerFrom_superscript hc]
      split
      case isTrue h =>
        rw [withoutBlanks_cons hb, isChained_other hcaret, hx, hrun h]
        exact hrest
      case isFalse =>
        rw [withoutBlanks_cons (by decide), isChained_caret, withoutBlanks_cons hb, isChained_other hcaret, hx,
          Bool.or_eq_true]
        exact .inr hrest
    case none =>
      have hrest (r : Bool) : Expression.isChained r (withoutBlanks (lowerFrom false (t.map plainOperator))) :=
        hi hp (fun h => absurd h Bool.false_ne_true) fun h => by simp [isSuperscript, hc] at h
      rw [lowerFrom_other hc]
      cases hb : isBlank (plainOperator c)
      case true =>
        rw [withoutBlanks_blank hb]
        exact hrest r
      case false =>
        rw [withoutBlanks_cons hb]
        exact isChained_cons hrest _
  case blank hc _ _ hi =>
    rw [lowerFrom_blank hc, withoutBlanks_blank hc]
    exact hi hp (fun h => absurd h Bool.false_ne_true) hs
  case parting hc hparts h _ =>
    obtain ⟨hprevious, hhead⟩ := Bool.and_eq_true_iff.1 hparts
    rw [lowerFrom_blank hc, withoutBlanks_blank hc]
    exact hs hprevious ▸ h.isChained_of_parts hhead

-- More blanks make no difference to what is read. Where they part a run of superscripts, nothing is read any more.
theorem parseWithin_spaced (b : DigitBound) (h : Spaced parted none s t) :
    (parted = false → Agrees b (parseWithin b (String.ofList s)) (parseWithin b (String.ofList t))) ∧
      (parted = true → ∀ e, parseWithin b (String.ofList t) ≠ .ok e) := by
  constructor
  case left =>
    rintro rfl
    exact agrees_of_marked h.marked_congr
  case right =>
    intro hp e he
    have hchain : isChained false (settled t) := h.isChained hp id id
    exact Bool.false_ne_true ((not_isChained he).symm.trans (isChained_markFrom none hchain))

theorem parseWithin_spaced_speed :
    Spaced false none ['m', '/', 's', '²'] ['m', ' ', '/', '\t', 's', '²'] ∧
      Agrees .standard (parse (String.ofList ['m', '/', 's', '²']))
        (parse (String.ofList ['m', ' ', '/', '\t', 's', '²'])) := by
  have h : Spaced false none ['m', '/', 's', '²'] ['m', ' ', '/', '\t', 's', '²'] :=
    .keep <| .blank (by decide) rfl <| .keep <| .blank (by decide) rfl <| .keep <| .keep .nil
  exact ⟨h, (parseWithin_spaced .standard h).1 rfl⟩

-- One exponent of two digits, and two exponents of one digit.
theorem parse_parted :
    Spaced true none ['m', '²', '³'] ['m', '²', ' ', '³'] ∧
      parse (String.ofList ['m', '²', '³']) = .ok ⟨[("m", 23)]⟩ ∧
      ¬Agrees none (parse (String.ofList ['m', '²', '³'])) (parse (String.ofList ['m', '²', ' ', '³'])) := by
  have h : Spaced true none ['m', '²', '³'] ['m', '²', ' ', '³'] :=
    .keep <| .keep <| .parting (by decide) rfl <| .keep .nil
  have hread : parse (String.ofList ['m', '²', '³']) = .ok ⟨[("m", 23)]⟩ := by
    obtain ⟨e, he, rfl⟩ := exists_of_toOption (g := id) (x := parse (String.ofList ['m', '²', '³']))
      (c := ⟨[("m", 23)]⟩) (by decide +kernel)
    exact he
  refine ⟨h, hread, fun hagrees => ?_⟩
  rw [hread] at hagrees
  generalize ht : parse (String.ofList ['m', '²', ' ', '³']) = result at hagrees
  cases hagrees
  have hchain := not_isChained ht
  exact absurd hchain (by decide +kernel)

end Parted

end Metrology.Expression
