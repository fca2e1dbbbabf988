import Mathlib.Data.List.Basic
import Metrology.Proofs.Expression.Cuts
import Metrology.Proofs.Expression.Marking
import Metrology.Proofs.Expression.Reading

/-!
Where an explicit exponent ends. Marking takes exponents off a text from the front, and cutting a product looks back
from a slash: both find the same slashes inside of exponents, whatever the text, as long as digits are those from `0` to
`9` and no line ends.
-/

namespace Metrology.Expression

open Text

variable {D : Char → Bool} {P : Bool} {c : Char} {e k : Nat} {p : Option Char} {s t u x y z : List Char}

-- Marking as it goes through a text: each character, the carets that are put in with a mark.
def insertFrom (previous : Option Char) : List Char → List (Char × Bool)
  | [] => []
  | c :: rest =>
    if c = '^' then
      let taken := takeExponent rest
      unmarked ('^' :: taken.1) ++ insertFrom (some (taken.1.getLast?.getD '^')) taken.2
    else if isAsciiDigit c then
      let digits := c :: rest.takeWhile isAsciiDigit
      (if carriesExponent previous then ('^', true) :: unmarked digits else unmarked digits) ++
        insertFrom digits.getLast? (rest.dropWhile isAsciiDigit)
    else (c, false) :: insertFrom (some c) rest
  termination_by text => text.length
  decreasing_by
    · have := takeExponent_length rest
      simp only [List.length_cons]
      omega
    · have := (List.dropWhile_suffix isAsciiDigit (l := rest)).length_le
      simp only [List.length_cons]
      omega
    · simp

-- The place behind the exponent that starts at a place of a text.
def exponentEnd (t : List Char) (start : Nat) : Nat :=
  start + (takeExponent (t.drop start)).1.length

-- A place between a caret outside of parentheses and the end of the exponent behind it.
def InExponent (t : List Char) (k : Nat) : Prop :=
  ∃ i, t[i]? = some '^' ∧ nesting (t.take i) = 0 ∧ i < k ∧ k < exponentEnd t (i + 1)

-- The text `t` is `s` with carets put in, and outside of parentheses a product is cut at the slashes of `t` that are not
-- in an exponent.
structure IsMarking (s t : List Char) (l : List (Char × Bool)) : Prop where
  written : l.map (·.1) = t
  carets : ∀ c, (c, true) ∈ l → c = '^'
  erased : (l.filter (!·.2)).map (·.1) = s
  bars : ∀ k, t[k]? = some '/' → nesting (t.take k) = 0 →
    (isCutAt (cut isProductOperator true t) k = false ↔ InExponent t k)

section Insertions

theorem map_fst_insertFrom : (insertFrom p t).map (·.1) = markFrom p t := by
  fun_induction insertFrom p t
  case case1 => rw [markFrom_nil]; rfl
  case case2 p rest taken hi =>
    rw [markFrom, if_pos rfl, List.map_append, map_fst_unmarked, hi]
  case case3 p c rest hc hd digits hi =>
    rw [markFrom, if_neg hc, if_pos hd, List.map_append, hi, apply_ite (List.map _), List.map_cons, map_fst_unmarked]
  case case4 p c rest hc hd hi => rw [markFrom, if_neg hc, if_neg hd, List.map_cons, hi]

theorem not_mem_unmarked : (c, true) ∉ unmarked t := by
  simp [unmarked]

theorem filter_unmarked (t : List Char) : (unmarked t).filter (!·.2) = unmarked t := by
  simp [unmarked]

theorem caret_of_mem_insertFrom (h : (c, true) ∈ insertFrom p t) : c = '^' := by
  fun_induction insertFrom p t
  case case1 => contradiction
  case case2 p rest taken hi => exact hi ((List.mem_append.mp h).resolve_left not_mem_unmarked)
  case case3 p d rest hc hd digits hi =>
    cases List.mem_append.mp h
    case inr h => exact hi h
    case inl h =>
      split at h
      case isFalse => exact absurd h not_mem_unmarked
      case isTrue =>
        cases List.mem_cons.mp h
        case inl h => exact (Prod.mk.inj h).1
        case inr h => exact absurd h not_mem_unmarked
  case case4 p d rest hc hd hi => exact hi (List.mem_of_ne_of_mem (by simp) h)

-- Without the carets that were put in, it is the text again.
theorem erase_insertFrom : ((insertFrom p t).filter (!·.2)).map (·.1) = t := by
  fun_induction insertFrom p t
  case case1 => rfl
  case case2 p rest taken hi =>
    rw [List.filter_append, filter_unmarked, List.map_append, map_fst_unmarked, hi, List.cons_append, takeExponent_append]
  case case3 p c rest hc hd digits hi =>
    have hdigits : ((if carriesExponent p then ('^', true) :: unmarked digits else unmarked digits).filter (!·.2)) =
        unmarked digits := by
      split
      case isTrue => rw [List.filter_cons_of_neg (by simp), filter_unmarked]
      case isFalse => exact filter_unmarked digits
    rw [List.filter_append, hdigits, List.map_append, map_fst_unmarked, hi, List.cons_append,
      List.takeWhile_append_dropWhile]
  case case4 p c rest hc hd hi => rw [List.filter_cons_of_pos (by simp), List.map_cons, hi]

end Insertions

section Separators

-- Cutting at characters that no power contains.
variable (hD : ∀ c, D c → OutsidePower c)

include hD

-- Whether a slash is protected can be told from all of the text in front of it.
theorem isProtected_sinceCut (s u v : List Char) :
    isProtected c (sinceCut (cut D P (s ++ u)) s.length).reverse v ↔ isProtected c s.reverse v := by
  have hs : ((trace (cut D P (s ++ u))).take s.length).map (·.1) = s := by
    rw [trace_cut, List.map_take, map_fst_traceFrom, List.take_left]
  cases behindMark_cases ((trace (cut D P (s ++ u))).take s.length)
  case inl h => rw [sinceCut, ← h, hs]
  case inr h =>
    obtain ⟨front, x, hx, h⟩ := h
    have hx : D x := delimiter_of_mem_traceFrom (trace_cut ▸ List.mem_of_mem_take hx)
    rw [sinceCut]
    generalize behindMark _ = y at h ⊢
    have hy : s = front ++ x :: y := hs.symm.trans h
    rw [hy]
    constructor
    case mp =>
      intro hp
      simpa using isProtected_append (front ++ [x]) hp
    case mpr => exact isProtected_of_append (hD x hx)

end Separators

section Spans

-- Up to the end of what is wrapped, a parenthesis is open.
theorem nesting_takeWrapped (he : 1 ≤ e) (h : (takeWrapped e t).1 = y ++ c :: z) : 0 < e + nesting y := by
  induction t generalizing e y
  case nil => simp [takeWrapped] at h
  case cons x t hi =>
    cases y
    case nil =>
      have hn : nesting [] = 0 := rfl
      omega
    case cons x' y =>
      by_cases hend : x = ')' ∧ e = 1
      case pos => simp [takeWrapped, hend] at h
      case neg =>
        obtain ⟨e', he', hpos, htake⟩ := takeWrapped_cons he hend
        rw [htake] at h
        obtain ⟨hx, h⟩ := List.cons.inj h
        have := hi hpos h
        rw [nesting_cons, ← hx]
        omega

theorem slash_notMem (h : ∀ c ∈ s, isReserved c = false) : '/' ∉ s :=
  fun hc => absurd (h _ hc) (by decide)

-- A slash that is taken with an exponent, but not in parentheses, is the bar of a fraction.
theorem Taken.power (h : Taken x t) (hx : x = y ++ '/' :: z) (hn : nesting y = 0) :
    EndsInPower ('^' :: y) ∧ z.head?.any isAsciiDigit := by
  have hwrapped (w u : List Char) (hw : takeWrapped 1 w = (w, u)) : '(' :: w ≠ y ++ '/' :: z := by
    intro hy
    cases y
    case nil => simp at hy
    case cons c y =>
      obtain ⟨hc, hy⟩ := List.cons.inj hy
      have hpos := nesting_takeWrapped (Nat.le_refl 1) ((congrArg Prod.fst hw).trans hy)
      have hopen : nesting [c] = 1 := by rw [← hc]; rfl
      rw [nesting_cons] at hn
      omega
  cases h
  case unclosed w hw => exact absurd hx (hwrapped w [] hw)
  case closed w hw => exact absurd hx (hwrapped w [] (by simpa using hw []))
  case number sign ds hs hd _ _ _ =>
    have hslash := slash_notMem (unreserved_signed hs fun c hc => isDigit_of_isAsciiDigit (hd c hc))
    exact absurd (hx ▸ List.mem_append_right y List.mem_cons_self) hslash
  case fraction sign ds ds' hs hne hd hne' hd' _ =>
    have hdigit : ∀ c ∈ ds, isDigit c := fun c hc => isDigit_of_isAsciiDigit (hd c hc)
    have hdigit' : ∀ c ∈ ds', isReserved c = false := fun c hc => isReserved_of_isDigit (isDigit_of_isAsciiDigit (hd' c hc))
    have hfront := slash_notMem (unreserved_signed hs hdigit)
    obtain ⟨hy, -, hz⟩ := (List.append_cons_inj_of_notMem hfront (slash_notMem hdigit')).mp hx
    have hhead := head?_digits hne' hd' []
    rw [List.append_nil, hz] at hhead
    exact ⟨⟨[], sign, ds, by simp [← hy], hs, hne, hdigit⟩, hhead⟩

theorem power_of_takeExponent (hn : nesting y = 0) (h : y.length < (takeExponent (y ++ '/' :: u)).1.length) :
    EndsInPower ('^' :: y) ∧ u.head?.any isAsciiDigit := by
  obtain ⟨x, v, hx, htaken⟩ := taken_cases (y ++ '/' :: u)
  rw [hx, htaken.takeExponent] at h
  have hlength : (y ++ ['/']).length ≤ x.length := by
    rw [List.length_append]
    exact h
  obtain ⟨z, hz⟩ := List.prefix_of_prefix_length_le ⟨u, by simp⟩ (hx ▸ List.prefix_append x v) hlength
  have hz : x = y ++ '/' :: z := by simp [← hz]
  have hu : u = z ++ v := by
    rw [hz] at hx
    simpa using hx
  obtain ⟨hpower, hdigit⟩ := htaken.power hz hn
  refine ⟨hpower, ?_⟩
  rw [hu]
  cases z
  case nil => contradiction
  case cons c z => exact hdigit

theorem lt_takeExponent (hs : IsSignPart s) (hn : x ≠ []) (hx : ∀ c ∈ x, isAsciiDigit c)
    (hu : u.head?.any isAsciiDigit) : (s ++ x).length < (takeExponent (s ++ x ++ '/' :: u)).1.length := by
  obtain ⟨y, v, hv, hne, hy, hhead⟩ := exists_digits hu
  have htaken : Taken (s ++ x ++ '/' :: y) v := .fraction hs hn hx hne hy hhead
  have hassoc : s ++ x ++ '/' :: u = s ++ x ++ '/' :: y ++ v := by simp [hv]
  rw [hassoc, htaken.takeExponent]
  simp only [List.length_append, List.length_cons]
  omega

theorem exponentEnd_append (s x : List Char) :
    exponentEnd (s ++ '^' :: x) (s.length + 1) = s.length + 1 + (takeExponent x).1.length := by
  simp [exponentEnd]

-- A slash outside of parentheses is in an exponent if it stands between a complete one and a digit.
theorem inExponent_iff (hd : ∀ c ∈ s, isDigit c → isAsciiDigit c) (hn : nesting s = 0) :
    InExponent (s ++ '/' :: u) s.length ↔ EndsInPower s ∧ u.head?.any isAsciiDigit := by
  constructor
  case mp =>
    rintro ⟨i, hcaret, hfront, hi, hend⟩
    rw [List.getElem?_append_left hi] at hcaret
    obtain ⟨front, y, hs, hl⟩ := exists_of_getElem? hcaret
    rw [hs, List.append_assoc, List.cons_append, ← hl] at hfront hend
    rw [List.take_left] at hfront
    rw [exponentEnd_append, List.length_append, List.length_cons] at hend
    have hy : nesting y = 0 := by
      rwa [hs, nesting_append, hfront, nesting_cons_other (by decide) (by decide), Int.zero_add] at hn
    obtain ⟨hpower, hu⟩ := power_of_takeExponent hy (u := u) (by omega)
    exact ⟨hs ▸ hpower.append_left front, hu⟩
  case mpr =>
    rintro ⟨⟨front, sign, ds, hs, hsign, hne, hds⟩, hu⟩
    have hascii : ∀ c ∈ ds, isAsciiDigit c := fun c hc => hd c (hs ▸ List.mem_append_right _ hc) (hds c hc)
    have hlt := lt_takeExponent hsign hne hascii hu
    have hs : s = front ++ '^' :: (sign ++ ds) := by simp [hs]
    have hl : s.length = front.length + 1 + (sign ++ ds).length := by
      rw [hs, List.length_append, List.length_cons]
      omega
    have ht : s ++ '/' :: u = front ++ '^' :: (sign ++ ds ++ '/' :: u) := by simp [hs]
    have hbare : IsBare (sign ++ ds) := .of_unreserved (unreserved_signed hsign hds)
    have hfront : nesting front = 0 := by
      rwa [hs, nesting_append, nesting_cons_other (by decide) (by decide), hbare.nesting, Int.add_zero] at hn
    refine ⟨front.length, by simp [ht], by rw [ht, List.take_left, hfront], by omega, ?_⟩
    rw [ht, exponentEnd_append]
    omega

theorem isCutAt_slash (hl : '\n' ∉ s) (hn : nesting s = 0) :
    isCutAt (cut isProductOperator true (s ++ '/' :: u)) s.length = false ↔
      EndsInPower s ∧ u.head?.any isAsciiDigit := by
  have hline : ¬∃ x, s = x ++ ['\n'] ∧ EndsInPower x := by
    rintro ⟨x, hs, -⟩
    exact hl (hs ▸ by simp)
  have hp : isProtected '/' s.reverse u ↔ EndsInPower s ∧ u.head?.any isAsciiDigit := by
    rw [isProtected, Bool.and_eq_true, endsInExponent_iff, or_iff_left hline, and_comm]
    simp
  have hsep (c : Char) (hc : isProductOperator c) : OutsidePower c := outsidePower_of_operator hc
  rw [← Bool.not_eq_true, isCutAt_iff_divides, Divides, isProtected_sinceCut hsep, hp]
  simp [hn, isProductOperator]

end Spans

-- Neither balance nor the other blanks matter here.
theorem markImplicit_isMarking (hl : '\n' ∉ s) (hd : ∀ c ∈ s, isDigit c → isAsciiDigit c) :
    IsMarking s (markImplicit s) (insertFrom none s) := by
  refine ⟨map_fst_insertFrom, fun _ => caret_of_mem_insertFrom, erase_insertFrom, ?bars⟩
  intro k hk hn
  obtain ⟨front, u, ht, hfront⟩ := exists_of_getElem? hk
  have hmem (c : Char) (hc : c ∈ front) : c = '^' ∨ c ∈ s := mem_markFrom (ht ▸ List.mem_append_left _ hc)
  have hl' : '\n' ∉ front := fun hc => (hmem _ hc).elim (by decide) hl
  have hd' : ∀ c ∈ front, isDigit c → isAsciiDigit c := by
    intro c hc hdigit
    cases hmem c hc
    case inl h => exact absurd (h ▸ hdigit) (by decide)
    case inr h => exact hd c h hdigit
  rw [ht, ← hfront] at hn ⊢
  rw [List.take_left] at hn
  exact (isCutAt_slash hl' hn).trans (inExponent_iff hd' hn).symm

theorem markImplicit_isMarking_root :
    '\n' ∉ ['m', '1', '/', '2', '/', 's'] ∧ (∀ c ∈ ['m', '1', '/', '2', '/', 's'], isDigit c → isAsciiDigit c) ∧
      IsMarking ['m', '1', '/', '2', '/', 's'] ['m', '^', '1', '/', '2', '/', 's']
        (('m', false) :: ('^', true) :: unmarked ['1', '/', '2', '/', 's']) := by
  have hl : '\n' ∉ ['m', '1', '/', '2', '/', 's'] := by decide
  have hd : ∀ c ∈ ['m', '1', '/', '2', '/', 's'], isDigit c → isAsciiDigit c := by
    have h : ['m', '1', '/', '2', '/', 's'].all fun c => !isDigit c || isAsciiDigit c := by decide
    intro c hc hdigit
    simpa [hdigit] using List.all_eq_true.mp h c hc
  have ht : markImplicit ['m', '1', '/', '2', '/', 's'] = ['m', '^', '1', '/', '2', '/', 's'] := by decide +kernel
  have hinserted : insertFrom none ['m', '1', '/', '2', '/', 's'] =
      ('m', false) :: ('^', true) :: unmarked ['1', '/', '2', '/', 's'] := by decide +kernel
  exact ⟨hl, hd, ht ▸ hinserted ▸ markImplicit_isMarking hl hd⟩

-- Marking ends an exponent at a line end, while cutting looks behind it.
example : exponentEnd ['m', '^', '2', '\n', '/', '3'] 2 = 3 ∧
    isCutAt (cut isProductOperator true ['m', '^', '2', '\n', '/', '3']) 4 = false := by
  decide +kernel

end Metrology.Expression
