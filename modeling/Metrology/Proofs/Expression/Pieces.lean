import Mathlib.Data.List.TakeWhile
import Metrology.Expression.Cut
import Metrology.Proofs.Expression.Balance

/-!
Where texts are cut: at the delimiters outside of all parentheses, but not inside of an exponent. The pieces of a
text are those of the part in front of its last cut and the part behind it.
-/

namespace Metrology.Expression

open Text

variable {D : Char → Bool} {P : Bool} {o : Option Char} {d : Int} {c x : Char} {r s t u : List Char}

-- A list whose front has a property that the rest does not begin with is split there.
theorem takeWhile_append_of_head {α : Type} {p : α → Bool} {l m : List α} (hl : ∀ a ∈ l, p a)
    (hm : m.head?.any p = false) : (l ++ m).takeWhile p = l ∧ (l ++ m).dropWhile p = m := by
  rw [List.takeWhile_append_of_pos hl, List.dropWhile_append_of_pos hl]
  cases m
  case nil => simp
  case cons a m =>
    have ha : p a = false := by simpa using hm
    simp [ha]

theorem isDigit_of_isSign (h : isSign c) : isDigit c = false := by
  simp only [isSign, Bool.or_eq_true, beq_iff_eq] at h
  cases h
  case inl h => exact h ▸ by decide
  case inr h => exact h ▸ by decide

theorem isSign_of_isDigit (h : isDigit c) : isSign c = false := by
  apply Bool.eq_false_iff.mpr
  intro hs
  simp [isDigit_of_isSign hs] at h

-- A sign or nothing.
def IsSignPart (s : List Char) : Prop :=
  s = [] ∨ ∃ c, s = [c] ∧ isSign c

-- The text ends in a caret with an integer.
def EndsInPower (s : List Char) : Prop :=
  ∃ front sign ds, s = front ++ '^' :: sign ++ ds ∧ IsSignPart sign ∧ ds ≠ [] ∧ ∀ c ∈ ds, isDigit c

-- What `endsInExponent` looks for in a text without a line end.
def endsInCaret (r : List Char) : Bool :=
  r.head?.any isDigit &&
    match r.dropWhile isDigit with
    | '^' :: _ => true
    | c :: '^' :: _ => isSign c
    | _ => false

theorem endsInPower_of_endsInCaret (h : endsInCaret s.reverse) : EndsInPower s := by
  rw [endsInCaret, Bool.and_eq_true] at h
  obtain ⟨hh, hm⟩ := h
  have hds : ∀ c ∈ (s.reverse.takeWhile isDigit).reverse, isDigit c :=
    fun c hc => List.mem_takeWhile_imp (List.mem_reverse.mp hc)
  have hne : (s.reverse.takeWhile isDigit).reverse ≠ [] := by
    cases hr : s.reverse <;> simp_all
  have hsplit : s = (s.reverse.dropWhile isDigit).reverse ++ (s.reverse.takeWhile isDigit).reverse := by
    rw [← List.reverse_append, List.takeWhile_append_dropWhile, List.reverse_reverse]
  split at hm
  case h_1 front he =>
    rw [he] at hsplit
    exact ⟨front.reverse, [], _, by simpa using hsplit, .inl rfl, hne, hds⟩
  case h_2 c front _ he =>
    rw [he] at hsplit
    exact ⟨front.reverse, [c], _, by simpa using hsplit, .inr ⟨c, rfl, hm⟩, hne, hds⟩
  case h_3 => contradiction

theorem EndsInPower.endsInCaret (h : EndsInPower s) : endsInCaret s.reverse := by
  obtain ⟨front, sign, ds, hs, hsign, hne, hds⟩ := h
  have hds' : ∀ c ∈ ds.reverse, isDigit c := fun c hc => hds c (List.mem_reverse.mp hc)
  have hr : s.reverse = ds.reverse ++ (sign.reverse ++ '^' :: front.reverse) := by simp [hs]
  have hcaret : isDigit '^' = false := by decide
  rw [Expression.endsInCaret, Bool.and_eq_true, hr, List.dropWhile_append_of_pos hds']
  constructor
  case left =>
    obtain ⟨c, hc⟩ := List.exists_mem_of_ne_nil _ hne
    cases he : ds.reverse
    case nil => simp_all
    case cons c rest => simp [hds' c (he ▸ List.mem_cons_self)]
  case right =>
    cases hsign
    case inl hsign => simp [hsign, hcaret]
    case inr hsign =>
      obtain ⟨c, hc, hsign⟩ := hsign
      have hd := isDigit_of_isSign hsign
      simp only [hc, List.reverse_singleton, List.singleton_append, List.dropWhile_cons, hd, Bool.false_eq_true,
        if_false]
      split
      case h_1 => rfl
      case h_2 he => simp_all
      case h_3 he => simp_all

theorem endsInExponent_newline (r : List Char) : endsInExponent ('\n' :: r) = endsInCaret r :=
  rfl

theorem endsInExponent_of_head (h : r.head? ≠ some '\n') : endsInExponent r = endsInCaret r := by
  rw [endsInExponent]
  case x_1 =>
    intro rest hr
    simp [hr] at h
  rfl

theorem endsInExponent_iff :
    endsInExponent s.reverse ↔ EndsInPower s ∨ ∃ u, s = u ++ ['\n'] ∧ EndsInPower u := by
  constructor
  case mp =>
    intro h
    by_cases hn : s.reverse.head? = some '\n'
    case pos =>
      obtain ⟨u, hu⟩ := List.getLast?_eq_some_iff.mp (List.head?_reverse ▸ hn)
      rw [hu, List.reverse_append, List.reverse_singleton, List.singleton_append, endsInExponent_newline] at h
      exact .inr ⟨u, hu, endsInPower_of_endsInCaret h⟩
    case neg =>
      rw [endsInExponent_of_head hn] at h
      exact .inl <| endsInPower_of_endsInCaret h
  case mpr =>
    intro h
    cases h
    case inl h =>
      have hc := h.endsInCaret
      rw [endsInExponent_of_head, hc]
      intro hn
      have hd : isDigit '\n' = false := by decide
      simp [endsInCaret, hn, hd] at hc
    case inr h =>
      obtain ⟨u, hs, hu⟩ := h
      rw [hs, List.reverse_append, List.reverse_singleton, List.singleton_append, endsInExponent_newline]
      exact hu.endsInCaret

-- A delimiter that never is part of a power.
structure OutsidePower (c : Char) : Prop where
  digit : isDigit c = false
  sign : isSign c = false
  caret : c ≠ '^'
  lineEnd : c ≠ '\n'

theorem EndsInPower.append_left (h : EndsInPower s) (t : List Char) : EndsInPower (t ++ s) := by
  obtain ⟨front, sign, ds, hs, h⟩ := h
  exact ⟨t ++ front, sign, ds, by simp [hs], h⟩

theorem EndsInPower.isDigit_of_concat (h : EndsInPower (s ++ [c])) : isDigit c := by
  have h := h.endsInCaret
  rw [List.reverse_append, List.reverse_singleton, List.singleton_append, Expression.endsInCaret, Bool.and_eq_true] at h
  simpa using h.1

-- The power at the end of a text lies behind its last separator.
theorem EndsInPower.of_append (hc : OutsidePower c) (h : EndsInPower (s ++ c :: t)) : EndsInPower t := by
  obtain ⟨front, sign, ds, he, hsign, hne, hds⟩ := h
  have hmem : c ∉ '^' :: sign ++ ds := by
    intro hm
    have hd := hc.digit
    have hs := hc.sign
    simp only [List.cons_append, List.mem_cons, List.mem_append] at hm
    rcases hm with hm | hm | hm
    · exact hc.caret hm
    · rcases hsign with rfl | ⟨x, rfl, hx⟩ <;> simp_all
    · simp [hds c hm] at hd
  cases List.append_eq_append_iff.mp (List.append_assoc front _ _ ▸ he)
  case inl h =>
    rcases h with ⟨_ | ⟨x, a⟩, _, ha⟩
    · exact absurd (ha ▸ List.mem_cons_self) hmem
    · exact ⟨a, sign, ds, by simpa using (List.cons.inj ha).2, hsign, hne, hds⟩
  case inr h =>
    obtain ⟨a, _, ha⟩ := h
    exact absurd (ha ▸ List.mem_append_right _ List.mem_cons_self) hmem

theorem isProtected_append (t : List Char) (h : isProtected c s.reverse u) : isProtected c (t ++ s).reverse u := by
  simp only [isProtected, Bool.and_eq_true, endsInExponent_iff] at h ⊢
  refine ⟨h.1, ?_⟩
  cases h.2
  case inl h => exact .inl <| h.append_left t
  case inr h =>
    obtain ⟨v, hs, h⟩ := h
    exact .inr ⟨t ++ v, by simp [hs], h.append_left t⟩

theorem isProtected_of_append (hx : OutsidePower x) (h : isProtected c (s ++ x :: t).reverse u) :
    isProtected c t.reverse u := by
  simp only [isProtected, Bool.and_eq_true, endsInExponent_iff] at h ⊢
  refine ⟨h.1, ?_⟩
  cases h.2
  case inl h => exact .inl <| h.of_append hx
  case inr h =>
    obtain ⟨v, hv, h⟩ := h
    cases List.eq_nil_or_concat t
    case inl ht =>
      subst ht
      have hn := (List.append_inj' hv rfl).2
      exact absurd (List.singleton_inj.mp hn) hx.lineEnd
    case inr ht =>
      obtain ⟨t', y, ht⟩ := ht
      rw [ht, List.concat_eq_append, ← List.cons_append, ← List.append_assoc] at hv
      obtain ⟨hv, hy⟩ := List.append_inj' hv rfl
      exact .inr ⟨t', by rw [ht, List.concat_eq_append, hy], (hv ▸ h).of_append hx⟩

-- A delimiter behind the text is as good as its end.
theorem isProtected_front (hc : isAsciiDigit c = false) (x : Char) (r s t : List Char) :
    isProtected x r (s ++ c :: t) = isProtected x r s := by
  cases s <;> simp [isProtected, hc]

-- Whether a text is cut at a character: `d` parentheses are open there, and `r` is the piece so far, back to front.
def Divides (D : Char → Bool) (P : Bool) (d : Int) (r : List Char) (c : Char) (t : List Char) : Prop :=
  c ≠ '(' ∧ c ≠ ')' ∧ D c ∧ d = 0 ∧ ¬(P ∧ isProtected c r t)

instance : Decidable (Divides D P d r c t) :=
  inferInstanceAs (Decidable (_ ∧ _))

-- A character either starts a new piece or becomes part of the one that is read.
theorem cutFrom_cons : cutFrom D P o d r (c :: t) =
    if Divides D P d r c t then ⟨o, r.reverse⟩ :: cutFrom D P (some c) 0 [] t
    else cutFrom D P o (d + nesting [c]) (c :: r) t := by
  by_cases ho : c = '('
  case pos =>
    subst ho
    rw [cutFrom, if_pos rfl, if_neg (by simp [Divides])]
    rfl
  case neg =>
    by_cases hc : c = ')'
    case pos =>
      subst hc
      rw [cutFrom, if_neg ho, if_pos rfl, if_neg (by simp [Divides])]
      rfl
    case neg =>
      rw [cutFrom, if_neg ho, if_neg hc, nesting_other ho hc, Int.add_zero]
      by_cases h : D c ∧ d = 0 ∧ ¬(P ∧ isProtected c r t)
      case pos => rw [if_pos h, if_pos ⟨ho, hc, h⟩, h.2.1]
      case neg => rw [if_neg h, if_neg fun h' => h h'.2.2]

theorem cutFrom_ne_nil : cutFrom D P o d r t ≠ [] := by
  fun_induction cutFrom D P o d r t <;> simp_all

theorem cutFrom_append (hd : d + nesting s = 0) (hD : D c) (ho : c ≠ '(') (hc : c ≠ ')') (ha : isAsciiDigit c = false)
    (hp : ¬(P ∧ isProtected c (r ++ s).reverse t)) :
    cutFrom D P o d r.reverse (s ++ c :: t) = cutFrom D P o d r.reverse s ++ cutFrom D P (some c) 0 [] t := by
  induction s generalizing d r o
  case nil =>
    have hd : d = 0 := by simpa [nesting] using hd
    have hp : ¬(P ∧ isProtected c r.reverse t) := by simpa using hp
    rw [List.nil_append, cutFrom_cons, if_pos ⟨ho, hc, hD, hd, hp⟩]
    rfl
  case cons x s hi =>
    rw [nesting_cons] at hd
    have hsame : Divides D P d r.reverse x (s ++ c :: t) = Divides D P d r.reverse x s := by
      rw [Divides, isProtected_front ha, Divides]
    rw [List.cons_append, cutFrom_cons, cutFrom_cons, ← List.reverse_concat]
    simp only [hsame]
    split
    case isFalse => exact hi (by omega) (by simpa using hp)
    case isTrue hcut =>
      obtain ⟨hxo, hxc, -, hz, -⟩ := hcut
      rw [nesting_other hxo hxc] at hd
      have h := hi (r := []) (o := some x) (d := 0) (by omega)
        fun h => hp ⟨h.1, by simpa using isProtected_append (r ++ [x]) h.2⟩
      exact congrArg _ h

-- Cutting leaves the text in one piece.
def IsPiece (D : Char → Bool) (P : Bool) (t : List Char) : Prop :=
  ∀ o, cutFrom D P o 0 [] t = [⟨o, t⟩]

-- The last cut of a text, if there is one.
inductive LastCut (D : Char → Bool) (P : Bool) (d : Int) (r : List Char) : List Char → Prop
  | intro (s : List Char) (c : Char) (t : List Char) (hd : d + nesting s = 0) (hD : D c) (ho : c ≠ '(') (hc : c ≠ ')')
    (hp : ¬(P ∧ isProtected c (r ++ s).reverse t)) (ht : IsPiece D P t) : LastCut D P d r (s ++ c :: t)

theorem LastCut.cons (h : LastCut D P (d + nesting [x]) (r ++ [x]) t) : LastCut D P d r (x :: t) := by
  cases h
  case intro s c u hd hD ho hc hp ht =>
    have hn := nesting_cons x s
    exact .intro (x :: s) c u (by omega) hD ho hc (by simpa using hp) ht

theorem cutFrom_cases (hs : P → ∀ c, D c → OutsidePower c) (d : Int) (r t : List Char) :
    (∀ o, cutFrom D P o d r.reverse t = [⟨o, r ++ t⟩]) ∨ LastCut D P d r t := by
  induction t generalizing d r
  case nil =>
    left
    intro o
    simp [cutFrom]
  case cons x t hi =>
    by_cases hcut : Divides D P d r.reverse x t
    case neg =>
      cases hi (d + nesting [x]) (r ++ [x])
      case inr h => exact .inr h.cons
      case inl h =>
        left
        intro o
        rw [cutFrom_cons, if_neg hcut, ← List.reverse_concat, h, List.append_assoc]
        rfl
    case pos =>
      obtain ⟨ho, hc, hD, hd, hp⟩ := hcut
      right
      cases hi 0 []
      case inl h => exact .intro [] x t (by simp [hd, nesting]) hD ho hc (by simpa using hp) h
      case inr h =>
        cases h
        case intro s c u hd' hD' ho' hc' hp' ht =>
          have hn : d + nesting (x :: s) = 0 := by rwa [nesting_cons_other ho hc, hd]
          refine .intro (x :: s) c u hn hD' ho' hc' ?_ ht
          exact fun h => hp' ⟨h.1, isProtected_of_append (hs h.1 x hD) h.2⟩

theorem OutsidePower.asciiDigit (h : OutsidePower c) : isAsciiDigit c = false := by
  apply Bool.eq_false_iff.mpr
  intro ha
  have hd := h.digit
  simp [isDigit_of_isAsciiDigit ha] at hd

-- Cutting passes over the text, whatever was read before.
def Passes (D : Char → Bool) (P : Bool) (t : List Char) : Prop :=
  ∀ o r rest, cutFrom D P o 0 r (t ++ rest) = cutFrom D P o 0 (t.reverse ++ r) rest

namespace Passes

theorem nil : Passes D P [] :=
  fun _ _ _ => rfl

theorem append (hs : Passes D P s) (ht : Passes D P t) : Passes D P (s ++ t) := by
  intro o r rest
  rw [List.append_assoc, hs, ht, List.reverse_append, List.append_assoc]

theorem char (hD : D c = false) (ho : c ≠ '(') (hc : c ≠ ')') : Passes D P [c] := by
  intro o r rest
  simp [cutFrom, hD, ho, hc]

theorem bare (ht : IsBare t) (hD : ∀ c ∈ t, D c = false) : Passes D P t := by
  induction t
  case nil => exact nil
  case cons c t hi =>
    obtain ⟨ho, hc⟩ := ht c List.mem_cons_self
    have hmem (x) (hx : x ∈ t) := List.mem_cons_of_mem c hx
    have hrest := hi (fun x hx => ht x (hmem x hx)) fun x hx => hD x (hmem x hx)
    exact (char (hD c List.mem_cons_self) ho hc).append hrest

theorem isPiece (h : Passes D P t) : IsPiece D P t := by
  intro o
  have := h o [] []
  simpa [cutFrom] using this

end Passes

-- Inside of parentheses nothing is cut.
theorem cutFrom_inside {n : Nat} (h : isBalanced n t) (rest : List Char) :
    cutFrom D P o (n + 1) r (t ++ rest) = cutFrom D P o 1 (t.reverse ++ r) rest := by
  induction t generalizing n r
  case nil =>
    have hn : n = 0 := by simpa [isBalanced] using h
    rw [hn]
    rfl
  case cons c t hi =>
    obtain ⟨m, hm, h⟩ := isBalanced_cons.mp h
    have hcut : ¬Divides D P (n + 1) r c (t ++ rest) := by
      rintro ⟨-, -, -, hd, -⟩
      omega
    have hd : (n : Int) + 1 + nesting [c] = m + 1 := by omega
    rw [List.cons_append, cutFrom_cons, if_neg hcut, hd, hi h, List.reverse_cons, List.append_assoc]
    rfl

theorem Passes.group (h : isBalanced 0 t) : Passes D P (group t) := by
  intro o r rest
  have := cutFrom_inside h (D := D) (P := P) (o := o) (r := '(' :: r) (')' :: rest)
  simpa [Expression.group, cutFrom] using this

theorem Passes.wrap {k : Nat} (hk : k ≠ 0) (h : isBalanced 0 t) : Passes D P (wrap k t) := by
  cases k
  case zero => contradiction
  case succ k => exact group (isBalanced_wrap h)

theorem IsPiece.cut (h : IsPiece D P t) : cut D P t = [⟨none, t⟩] :=
  h none

theorem cut_concat (hn : nesting s = 0) (hD : D c) (ho : c ≠ '(') (hc : c ≠ ')') (ha : isAsciiDigit c = false)
    (hp : ¬(P ∧ isProtected c s.reverse t)) (ht : IsPiece D P t) :
    cut D P (s ++ c :: t) = cut D P s ++ [⟨some c, t⟩] := by
  have h := cutFrom_append (d := 0) (r := []) (o := none) (s := s) (by omega) hD ho hc ha (by simpa using hp)
  rw [ht] at h
  exact h

-- A delimiter that could have been a cut of a piece is part of an exponent.
theorem IsPiece.isProtected (h : IsPiece D P (s ++ c :: t)) (hn : nesting s = 0) (hD : D c) (ho : c ≠ '(')
    (hc : c ≠ ')')
    (ha : isAsciiDigit c = false) : P ∧ isProtected c s.reverse t := by
  by_contra hp
  have hcut := cutFrom_append (d := 0) (r := []) (o := none) (s := s) (by omega) hD ho hc ha (by simpa using hp)
  have hl := congrArg List.length hcut
  have hs := List.length_pos_iff.mpr (cutFrom_ne_nil (D := D) (P := P) (o := none) (d := 0) (r := []) (t := s))
  have ht := List.length_pos_iff.mpr (cutFrom_ne_nil (D := D) (P := P) (o := some c) (d := 0) (r := []) (t := t))
  rw [List.reverse_nil, h, List.length_append, List.length_singleton] at hl
  omega

-- A text is one piece, or its last piece stands behind the others.
theorem cut_cases (hs : P → ∀ c, D c → OutsidePower c) (ha : ∀ c, D c → isAsciiDigit c = false) (t : List Char) :
    IsPiece D P t ∨ ∃ s c u, t = s ++ c :: u ∧ nesting s = 0 ∧ D c ∧ ¬(P ∧ isProtected c s.reverse u) ∧ IsPiece D P u ∧
      cut D P t = cut D P s ++ [⟨some c, u⟩] := by
  cases cutFrom_cases hs 0 [] t
  case inl h => exact .inl h
  case inr h =>
    cases h
    case intro s c u hn hD ho hc hp hu =>
      have hn : nesting s = 0 := by omega
      exact .inr ⟨s, c, u, rfl, hn, hD, hp, hu, cut_concat hn hD ho hc (ha c hD) hp hu⟩

theorem isInfix_of_mem_cutFrom {p : Piece} (h : p ∈ cutFrom D P o d r t) : p.text <:+: r.reverse ++ t := by
  fun_induction cutFrom D P o d r t
  case case1 => simp_all
  case case4 o d r c rest _ _ _ hi =>
    cases List.mem_cons.mp h
    case inl h => exact h ▸ (List.prefix_append ..).isInfix
    case inr h => exact (hi h).trans ⟨r.reverse ++ [c], [], by simp⟩
  all_goals
    rename_i hi
    have := hi h
    simpa using this

theorem isInfix_of_mem_cut {p : Piece} (h : p ∈ cut D P t) : p.text <:+: t :=
  isInfix_of_mem_cutFrom h

end Metrology.Expression
