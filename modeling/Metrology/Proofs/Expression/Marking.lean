import Metrology.Expression.Exponent
import Metrology.Proofs.Expression.Pieces

/-!
Marking implicit exponents. Marking acts on the parts of a text one by one, and marked text is left as it is.
-/

namespace Metrology.Expression

open Text

-- Whether a slash with a digit behind it follows, which goes on with an exponent.
def isFractionBar (t : List Char) : Bool :=
  t.head? == some '/' && t.tail.head?.any isAsciiDigit

theorem isFractionBar_iff {t : List Char} : isFractionBar t ↔ ∃ u, t = '/' :: u ∧ u.head?.any isAsciiDigit := by
  cases t
  case nil => simp [isFractionBar]
  case cons c t =>
    have hbar : isFractionBar (c :: t) ↔ c = '/' ∧ t.head?.any isAsciiDigit := by simp [isFractionBar]
    rw [hbar]
    constructor
    case mp =>
      rintro ⟨hc, h⟩
      exact ⟨t, by rw [hc], h⟩
    case mpr =>
      rintro ⟨u, hu, h⟩
      obtain ⟨hc, ht⟩ := List.cons.inj hu
      exact ⟨hc, ht ▸ h⟩

-- An exponent as it is taken off a text, and what may stand behind it without being part of it.
inductive Taken : List Char → List Char → Prop
  | unclosed (hw : takeWrapped 1 w = (w, [])) : Taken ('(' :: w) []
  | closed (hw : ∀ t, takeWrapped 1 (w ++ t) = (w, t)) : Taken ('(' :: w) t
  | number (hs : IsSignPart sign) (hd : ∀ c ∈ ds, isAsciiDigit c) (ht : t.head?.any isAsciiDigit = false)
    (hb : ds ≠ [] → isFractionBar t = false) (he : sign = [] → ds = [] → t.head?.all (fun c => !isSign c && c != '(')) :
    Taken (sign ++ ds) t
  | fraction (hs : IsSignPart sign) (hn : ds ≠ []) (hd : ∀ c ∈ ds, isAsciiDigit c) (hn' : ds' ≠ [])
    (hd' : ∀ c ∈ ds', isAsciiDigit c) (ht : t.head?.any isAsciiDigit = false) : Taken (sign ++ ds ++ '/' :: ds') t

-- A text as marking goes through it: exponents behind carets, runs of digits, and single characters.
inductive Scanned : List Char → Prop
  | nil : Scanned []
  | caret (hx : Taken x t) (ht : Scanned t) : Scanned ('^' :: (x ++ t))
  | digits (hn : ds ≠ []) (hd : ∀ c ∈ ds, isAsciiDigit c) (hh : t.head?.any isAsciiDigit = false) (ht : Scanned t) :
    Scanned (ds ++ t)
  | other (hc : c ≠ '^') (hd : isAsciiDigit c = false) (ht : Scanned t) : Scanned (c :: t)

variable {c : Char} {d e : Nat} {p q : Option Char} {ds s t u w x : List Char}

theorem head_dropWhile_digits (t : List Char) : (t.dropWhile isAsciiDigit).head?.any isAsciiDigit = false := by
  cases h : t.dropWhile isAsciiDigit
  case nil => rfl
  case cons c rest =>
    have := List.head?_dropWhile_not isAsciiDigit t
    simp_all

theorem head?_digits (hn : ds ≠ []) (hd : ∀ c ∈ ds, isAsciiDigit c) (t : List Char) :
    (ds ++ t).head?.any isAsciiDigit := by
  obtain ⟨c, ds, rfl⟩ := List.exists_cons_of_ne_nil hn
  exact hd c List.mem_cons_self

theorem isAsciiDigit_one : ∀ c ∈ ['1'], isAsciiDigit c :=
  List.forall_mem_singleton.mpr rfl

theorem takeUnsigned_number (hd : ∀ c ∈ ds, isAsciiDigit c) (ht : t.head?.any isAsciiDigit = false)
    (hb : ds ≠ [] → isFractionBar t = false) : takeUnsigned (ds ++ t) = (ds, t) := by
  obtain ⟨hl, hr⟩ := takeWhile_append_of_head hd ht
  rw [takeUnsigned, hl, hr]
  split
  case h_2 => rfl
  case h_1 c ds y rest =>
    have hy : isAsciiDigit y = false := by simpa [isFractionBar] using hb (by simp)
    simp [hy]

theorem takeUnsigned_fraction (hn : ds ≠ []) (hd : ∀ c ∈ ds, isAsciiDigit c) (hn' : s ≠ [])
    (hd' : ∀ c ∈ s, isAsciiDigit c) (ht : t.head?.any isAsciiDigit = false) :
    takeUnsigned (ds ++ '/' :: s ++ t) = (ds ++ '/' :: s, t) := by
  obtain ⟨hl, hr⟩ := takeWhile_append_of_head (m := '/' :: s ++ t) hd rfl
  obtain ⟨x, ds, hds⟩ := List.exists_cons_of_ne_nil hn
  obtain ⟨y, s, hs⟩ := List.exists_cons_of_ne_nil hn'
  subst hds hs
  have hy := hd' y List.mem_cons_self
  obtain ⟨hl', hr'⟩ := takeWhile_append_of_head (fun c hc => hd' c (List.mem_cons_of_mem _ hc)) ht
  rw [takeUnsigned, List.append_assoc, hl, hr]
  simp [hy, hl', hr']

theorem takeBare_sign (hs : IsSignPart s) (he : s = [] → t.head?.any isSign = false) :
    takeBare (s ++ t) = (s ++ (takeUnsigned t).1, (takeUnsigned t).2) := by
  cases hs
  case inr hs =>
    obtain ⟨c, hs, hc⟩ := hs
    rw [hs, List.singleton_append, takeBare, if_pos hc]
    rfl
  case inl hs =>
    subst hs
    cases t
    case nil => rfl
    case cons c t =>
      have hc : isSign c = false := by simpa using he rfl
      simp [takeBare, hc]

theorem takeExponent_of_head (h : t.head? ≠ some '(') : takeExponent t = takeBare t := by
  rw [takeExponent]
  intro rest ht
  simp [ht] at h

theorem takeExponent_number (hs : IsSignPart s) (hd : ∀ c ∈ ds, isAsciiDigit c)
    (he : s = [] → ds = [] → t.head?.all (fun c => !isSign c && c != '(')) :
    takeExponent (s ++ (ds ++ t)) = (s ++ (takeUnsigned (ds ++ t)).1, (takeUnsigned (ds ++ t)).2) := by
  have hstart : s = [] → (ds ++ t).head?.all fun c => !isSign c && c != '(' := by
    intro hs
    cases ds
    case nil => exact he hs rfl
    case cons c ds =>
      have hc := isDigit_of_isAsciiDigit (hd c List.mem_cons_self)
      have hp : c ≠ '(' := fun h => absurd (h ▸ hc) (by decide)
      simp [isSign_of_isDigit hc, hp]
  rw [takeExponent_of_head, takeBare_sign hs]
  · intro h
    have := hstart h
    cases hh : (ds ++ t).head? <;> simp_all
  · cases hs
    case inl h =>
      intro hp
      have := hstart h
      rw [h, List.nil_append] at hp
      simp [hp] at this
    case inr h =>
      obtain ⟨c, h, hc⟩ := h
      rw [h, List.singleton_append, List.head?_cons]
      intro hp
      injection hp with hp
      exact absurd (hp ▸ hc) (by decide)

-- What was taken is taken again, whatever stands behind it now.
theorem Taken.takeExponent (h : Taken x t) : takeExponent (x ++ t) = (x, t) := by
  cases h
  case unclosed w hw => simp [Expression.takeExponent, hw]
  case closed w hw => simp [Expression.takeExponent, hw]
  case number sign ds hs hd ht hb he =>
    rw [List.append_assoc, takeExponent_number hs hd he, takeUnsigned_number hd ht hb]
  case fraction sign ds ds' hs hn hd hn' hd' ht =>
    have hassoc : sign ++ ds ++ '/' :: ds' ++ t = sign ++ (ds ++ ('/' :: ds' ++ t)) := by simp
    rw [hassoc, takeExponent_number hs hd fun _ h => absurd h hn, ← List.append_assoc,
      takeUnsigned_fraction hn hd hn' hd' ht, List.append_assoc]

theorem takeWrapped_cases (d : Nat) (t : List Char) :
    takeWrapped d t = (t, []) ∨ ∃ w u, t = w ++ u ∧ ∀ v, takeWrapped d (w ++ v) = (w, v) := by
  induction t generalizing d
  case nil => exact .inl rfl
  case cons c t hi =>
    by_cases hc : c = ')' ∧ d = 1
    case pos => exact .inr ⟨[c], t, rfl, fun v => by simp [takeWrapped, hc]⟩
    case neg =>
      cases hi (if c = '(' then d + 1 else if c = ')' then d - 1 else d)
      case inl h => exact .inl (by simp [takeWrapped, hc, h])
      case inr h =>
        obtain ⟨w, u, ht, hw⟩ := h
        exact .inr ⟨c :: w, u, by rw [ht]; rfl, fun v => by simp [takeWrapped, hc, hw]⟩

theorem digits_cases (t : List Char) :
    ∃ ds u, t = ds ++ u ∧ (∀ c ∈ ds, isAsciiDigit c) ∧ u.head?.any isAsciiDigit = false :=
  ⟨_, _, List.takeWhile_append_dropWhile.symm, fun _ => List.mem_takeWhile_imp, head_dropWhile_digits t⟩

-- The digits that a text starts with.
theorem exists_digits (h : t.head?.any isAsciiDigit) :
    ∃ ds u, t = ds ++ u ∧ ds ≠ [] ∧ (∀ c ∈ ds, isAsciiDigit c) ∧ u.head?.any isAsciiDigit = false := by
  obtain ⟨ds, u, ht, hd, hu⟩ := digits_cases t
  refine ⟨ds, u, ht, ?_, hd, hu⟩
  intro hn
  rw [ht, hn, List.nil_append, hu] at h
  contradiction

theorem sign_cases (t : List Char) : ∃ s u, t = s ++ u ∧ IsSignPart s ∧ (s = [] → u.head?.any isSign = false) := by
  cases t
  case nil => exact ⟨[], [], rfl, .inl rfl, fun _ => rfl⟩
  case cons c t =>
    by_cases hc : isSign c
    case pos => exact ⟨[c], t, rfl, .inr ⟨c, rfl, hc⟩, by simp⟩
    case neg => exact ⟨[], c :: t, rfl, .inl rfl, fun _ => by simpa using hc⟩

-- Every text starts with an exponent, which may be empty.
theorem taken_cases (t : List Char) : ∃ x u, t = x ++ u ∧ Taken x u := by
  by_cases hp : ∃ w, t = '(' :: w
  case pos =>
    obtain ⟨w, ht⟩ := hp
    cases takeWrapped_cases 1 w
    case inl h => exact ⟨'(' :: w, [], by simp [ht], .unclosed h⟩
    case inr h =>
      obtain ⟨v, u, hw, h⟩ := h
      exact ⟨'(' :: v, u, by simp [ht, hw], .closed h⟩
  case neg =>
    obtain ⟨sign, t', ht, hs, hsign⟩ := sign_cases t
    obtain ⟨ds, u, ht', hd, hu⟩ := digits_cases t'
    subst ht ht'
    by_cases hb : ds ≠ [] ∧ isFractionBar u
    case neg =>
      refine ⟨sign ++ ds, u, by simp, .number hs hd hu (by simpa using hb) ?_⟩
      intro hs hd
      subst hs hd
      cases u
      case nil => rfl
      case cons c u => simp_all
    case pos =>
      obtain ⟨hn, hb⟩ := hb
      obtain ⟨u, hbar, hb⟩ := isFractionBar_iff.mp hb
      obtain ⟨ds', v, hu', hn', hd', hv⟩ := exists_digits hb
      exact ⟨sign ++ ds ++ '/' :: ds', v, by simp [hbar, hu'], .fraction hs hn hd hn' hd' hv⟩

theorem scanned (t : List Char) : Scanned t := by
  induction h : t.length using Nat.strongRecOn generalizing t
  case ind n hi =>
    obtain ⟨ds, u, ht, hd, hu⟩ := digits_cases t
    have hl : t.length = ds.length + u.length := by simp [ht]
    by_cases hn : ds = []
    case neg =>
      have := List.length_pos_iff.mpr hn
      exact ht ▸ .digits hn hd hu (hi _ (by omega) u rfl)
    case pos =>
      rw [hn, List.nil_append] at ht
      subst ht
      cases t
      case nil => exact .nil
      case cons c t =>
        rw [List.length_cons] at h
        by_cases hc : c = '^'
        case neg => exact .other hc (by simpa using hu) (hi _ (by omega) t rfl)
        case pos =>
          obtain ⟨x, u, ht, hx⟩ := taken_cases t
          have hl : t.length = x.length + u.length := by simp [ht]
          exact hc ▸ ht ▸ .caret hx (hi _ (by omega) u rfl)

theorem markFrom_nil (p : Option Char) : markFrom p [] = [] := by
  rw [markFrom]

theorem markFrom_caret (h : Taken x t) :
    markFrom p ('^' :: (x ++ t)) = '^' :: (x ++ markFrom (some (x.getLast?.getD '^')) t) := by
  rw [markFrom, if_pos rfl, h.takeExponent]
  rfl

theorem markFrom_digits (hn : ds ≠ []) (hd : ∀ c ∈ ds, isAsciiDigit c) (ht : t.head?.any isAsciiDigit = false) :
    markFrom p (ds ++ t) = (if carriesExponent p then '^' :: ds else ds) ++ markFrom ds.getLast? t := by
  obtain ⟨c, ds', h⟩ := List.exists_cons_of_ne_nil hn
  subst h
  have hc := hd c List.mem_cons_self
  have hcaret : c ≠ '^' := fun h => absurd (h ▸ hc) (by decide)
  obtain ⟨hl, hr⟩ := takeWhile_append_of_head (fun c hc => hd c (List.mem_cons_of_mem _ hc)) ht
  rw [List.cons_append, markFrom, if_neg hcaret, if_pos hc, hl, hr]

theorem markFrom_other (hc : c ≠ '^') (hd : isAsciiDigit c = false) :
    markFrom p (c :: t) = c :: markFrom (some c) t := by
  rw [markFrom, if_neg hc, if_neg (by simp [hd])]

theorem markFrom_unmarked (h : ∀ c ∈ s, c ≠ '^' ∧ isAsciiDigit c = false) (hn : s ≠ []) (t : List Char) :
    markFrom p (s ++ t) = s ++ markFrom s.getLast? t := by
  induction s generalizing p
  case nil => exact absurd rfl hn
  case cons c s hi =>
    obtain ⟨⟨hc, hd⟩, hs⟩ := List.forall_mem_cons.mp h
    rw [List.cons_append, markFrom_other hc hd]
    by_cases hn : s = []
    case pos => rw [hn]; rfl
    case neg => rw [hi hs hn, List.getLast?_cons_of_ne_nil hn, List.cons_append]

-- What stands in front only matters for digits at the start.
theorem markFrom_congr (h : carriesExponent p = carriesExponent q) (t : List Char) : markFrom p t = markFrom q t := by
  cases scanned t
  case nil => rw [markFrom_nil, markFrom_nil]
  case caret hx _ => rw [markFrom_caret hx, markFrom_caret hx]
  case digits hn hd hh _ => rw [markFrom_digits hn hd hh, markFrom_digits hn hd hh, h]
  case other hc hd _ => rw [markFrom_other hc hd, markFrom_other hc hd]

theorem markFrom_of_head (h : t.head?.any isAsciiDigit = false) : markFrom p t = markFrom q t := by
  cases scanned t
  case nil => rw [markFrom_nil, markFrom_nil]
  case caret hx _ => rw [markFrom_caret hx, markFrom_caret hx]
  case other hc hd _ => rw [markFrom_other hc hd, markFrom_other hc hd]
  case digits hn hd _ _ =>
    rw [head?_digits hn hd] at h
    contradiction

theorem head?_markFrom (h : t.head?.any isAsciiDigit = false) : (markFrom p t).head? = t.head? := by
  cases scanned t
  case nil => rw [markFrom_nil]
  case caret hx _ => rw [markFrom_caret hx]; rfl
  case other hc hd _ => rw [markFrom_other hc hd]; rfl
  case digits hn hd _ _ =>
    rw [head?_digits hn hd] at h
    contradiction

-- Marking adds nothing but carets.
theorem mem_markFrom (h : c ∈ markFrom p t) : c = '^' ∨ c ∈ t := by
  induction scanned t generalizing p
  case nil => simp [markFrom_nil] at h
  case caret x t hx _ hi =>
    rw [markFrom_caret hx] at h
    simp only [List.mem_cons, List.mem_append] at h ⊢
    rcases h with h | h | h
    · exact .inl h
    · exact .inr <| .inr <| .inl h
    · exact (hi h).imp_right fun h => .inr <| .inr h
  case digits ds t hn hd hh _ hi =>
    rw [markFrom_digits hn hd hh] at h
    simp only [List.mem_append] at h ⊢
    cases h
    case inl h =>
      split at h
      case isTrue => exact (List.mem_cons.mp h).imp_right .inl
      case isFalse => exact .inr <| .inl h
    case inr h => exact (hi h).imp_right .inr
  case other c' t hc hd _ hi =>
    rw [markFrom_other hc hd] at h
    cases List.mem_cons.mp h
    case inl h => exact .inr <| h ▸ List.mem_cons_self
    case inr h => exact (hi h).imp_right (List.mem_cons_of_mem _)

theorem length_le_markFrom (p : Option Char) (t : List Char) : t.length ≤ (markFrom p t).length := by
  induction scanned t generalizing p
  case nil => exact Nat.zero_le _
  case caret x t hx _ hi =>
    have := hi (some (x.getLast?.getD '^'))
    simp only [markFrom_caret hx, List.length_cons, List.length_append]
    omega
  case digits ds t hn hd hh _ hi =>
    have := hi ds.getLast?
    rw [markFrom_digits hn hd hh]
    split <;> simp only [List.length_cons, List.length_append] <;> omega
  case other c t hc hd _ hi =>
    have := hi (some c)
    rw [markFrom_other hc hd, List.length_cons, List.length_cons]
    omega

theorem exists_isBalanced_suffix (h : isBalanced d (s ++ t)) : ∃ e, isBalanced e t := by
  induction s generalizing d
  case nil => exact ⟨d, h⟩
  case cons c s hi =>
    obtain ⟨e, -, h⟩ := isBalanced_cons.mp h
    exact hi h

-- A character that does not end what is wrapped is taken, and leaves at least one parenthesis open.
theorem takeWrapped_cons (he : 1 ≤ e) (h : ¬(c = ')' ∧ e = 1)) : ∃ e' : Nat, e + nesting [c] = e' ∧ 1 ≤ e' ∧
    ∀ t, takeWrapped e (c :: t) = (c :: (takeWrapped e' t).1, (takeWrapped e' t).2) := by
  by_cases ho : c = '('
  case pos => exact ⟨e + 1, by rw [ho]; rfl, by omega, fun t => by simp [takeWrapped, ho]⟩
  case neg =>
    by_cases hc : c = ')'
    case pos =>
      have hn : nesting [c] = -1 := by rw [hc]; rfl
      have hne : e ≠ 1 := fun he => h ⟨hc, he⟩
      exact ⟨e - 1, by omega, by omega, fun t => by simp [takeWrapped, hc, hne]⟩
    case neg => exact ⟨e, by rw [nesting_other ho hc, Int.add_zero], he, fun t => by simp [takeWrapped, ho, hc]⟩

-- In a balanced text, parentheses around an exponent are closed.
theorem takeWrapped_closed (h : isBalanced d w) (he : 1 ≤ e) (hd : e ≤ d) :
    ∃ u v, w = u ++ v ∧ ∀ t, takeWrapped e (u ++ t) = (u, t) := by
  induction w generalizing d e
  case nil =>
    have : d = 0 := by simpa [isBalanced] using h
    omega
  case cons c w hi =>
    by_cases hc : c = ')' ∧ e = 1
    case pos => exact ⟨[c], w, rfl, fun t => by simp [takeWrapped, hc]⟩
    case neg =>
      obtain ⟨d', hd', h⟩ := isBalanced_cons.mp h
      obtain ⟨e', he', hpos, htake⟩ := takeWrapped_cons he hc
      obtain ⟨u, v, hw, hu⟩ := hi h hpos (by omega)
      exact ⟨c :: u, v, by rw [hw]; rfl, fun t => by rw [List.cons_append, htake, hu]⟩

theorem takeWrapped_balanced (h : isBalanced d w) (t : List Char) :
    takeWrapped (d + 1) (w ++ ')' :: t) = (w ++ [')'], t) := by
  fun_induction isBalanced d w
  case case1 d =>
    have hd : d = 0 := by simpa using h
    simp [takeWrapped, hd]
  case case2 d w hi => simp [takeWrapped, hi h]
  case case3 d w hi =>
    simp only [Bool.and_eq_true, bne_iff_ne] at h
    have hd : d - 1 + 1 = d := by omega
    have := hi h.2
    rw [hd] at this
    simp [takeWrapped, this, h.1]
  case case4 d c w ho hc hi => simp_all [takeWrapped]

theorem Taken.group (h : isBalanced 0 t) (u : List Char) : Taken (group t) u :=
  .closed fun u => by simpa using takeWrapped_balanced h u

-- The end of the first text and the start of the second one belong to different parts.
structure Parted (s t : List Char) : Prop where
  head : t.head?.all fun c => c == '*' || c == '/' || c == '^' || c == ')'
  power : ¬(EndsInPower s ∧ isFractionBar t)

namespace Parted

theorem of_append (h : Parted (s ++ t) u) : Parted t u :=
  ⟨h.head, fun hp => h.power ⟨hp.1.append_left s, hp.2⟩⟩

theorem of_char (hc : c = '*' ∨ c = '^' ∨ c = ')') (s t : List Char) : Parted s (c :: t) := by
  constructor
  case head => rcases hc with rfl | rfl | rfl <;> rfl
  case power => rcases hc with rfl | rfl | rfl <;> simp [isFractionBar]

theorem nil (s : List Char) : Parted s [] :=
  ⟨rfl, by simp [isFractionBar]⟩

theorem not_digit (h : Parted s t) : t.head?.any isAsciiDigit = false := by
  have h := h.head
  cases t
  case nil => rfl
  case cons c t =>
    simp only [List.head?_cons, Option.all_some, Bool.or_eq_true, beq_iff_eq] at h
    rcases h with ((rfl | rfl) | rfl) | rfl <;> rfl

theorem not_start (h : Parted s t) : t.head?.all fun c => !isSign c && c != '(' := by
  have h := h.head
  cases t
  case nil => rfl
  case cons c t =>
    simp only [List.head?_cons, Option.all_some, Bool.or_eq_true, beq_iff_eq] at h
    rcases h with ((rfl | rfl) | rfl) | rfl <;> rfl

theorem head_append (h : Parted s u) (ht : t.head?.any isAsciiDigit = false) :
    (t ++ u).head?.any isAsciiDigit = false := by
  cases t
  case nil => exact h.not_digit
  case cons => exact ht

end Parted

theorem Taken.append (h : Taken x s) (hb : isBalanced d (x ++ s)) (ht : Parted ('^' :: (x ++ s)) t) :
    Taken x (s ++ t) := by
  cases h
  case unclosed w hw =>
    simp only [List.append_nil, isBalanced] at hb
    obtain ⟨u, v, huv, hu⟩ := takeWrapped_closed hb (Nat.le_refl 1) (by omega)
    -- the closing parenthesis is the last character
    have hwu : w = u := by
      have := hu v
      rw [← huv, hw] at this
      exact (Prod.mk.inj this).1
    exact .closed fun t => hwu ▸ hu t
  case closed w hw => exact .closed hw
  case number sign ds hs hd hh hslash he =>
    apply Taken.number hs hd (ht.head_append hh)
    case hb =>
      intro hn
      cases s
      case cons c s =>
        have := hslash hn
        cases s
        case cons => exact this
        case nil =>
          have := ht.not_digit
          simp_all [isFractionBar]
      case nil =>
        have hp : EndsInPower ('^' :: (sign ++ ds ++ [])) :=
          ⟨[], sign, ds, by simp, hs, hn, fun c hc => isDigit_of_isAsciiDigit (hd c hc)⟩
        simpa using fun h => ht.power ⟨hp, h⟩
    case he =>
      intro hs hd
      cases s
      case nil => exact ht.not_start
      case cons => exact he hs hd
  case fraction sign ds ds' hs hn hd hn' hd' hh => exact .fraction hs hn hd hn' hd' (ht.head_append hh)

-- Parts are marked on their own.
theorem markFrom_append (hb : isBalanced d s) (h : Parted s t) (p q : Option Char) :
    markFrom p (s ++ t) = markFrom p s ++ markFrom q t := by
  induction scanned s generalizing d p
  case nil =>
    rw [markFrom_nil]
    exact markFrom_of_head h.not_digit
  case caret x s hx _ hi =>
    have hbx : isBalanced d (x ++ s) := by simpa [isBalanced] using hb
    obtain ⟨e, hbs⟩ := exists_isBalanced_suffix hbx
    have hx' := hx.append hbx h
    have h' : Parted s t := (List.cons_append ▸ h : Parted (('^' :: x) ++ s) t).of_append
    rw [List.cons_append, List.append_assoc, markFrom_caret hx', markFrom_caret hx, hi hbs h']
    simp
  case digits ds s hn hd hh _ hi =>
    obtain ⟨e, hbs⟩ := exists_isBalanced_suffix hb
    rw [List.append_assoc, markFrom_digits hn hd (h.of_append.head_append hh), markFrom_digits hn hd hh,
      hi hbs h.of_append, List.append_assoc]
  case other c s hc hd _ hi =>
    obtain ⟨e, hbs⟩ := exists_isBalanced_suffix (s := [c]) hb
    have h' : Parted s t := Parted.of_append (s := [c]) h
    rw [List.cons_append, markFrom_other hc hd, markFrom_other hc hd, hi hbs h', List.cons_append]

theorem markFrom_operator (hb : isBalanced 0 s) (h : Parted s (c :: t)) (hc : c = '*' ∨ c = '/') (p : Option Char) :
    markFrom p (s ++ c :: t) = markFrom p s ++ c :: markFrom none t := by
  rw [markFrom_append hb h p none]
  cases hc
  case inl hc => rw [hc, markFrom_other (by decide) rfl, markFrom_congr (p := some '*') (q := none) rfl]
  case inr hc => rw [hc, markFrom_other (by decide) rfl, markFrom_congr (p := some '/') (q := none) rfl]

theorem markFrom_group_append (h : isBalanced 0 t) (u : List Char) :
    markFrom none (group t ++ u) = group (markFrom none t) ++ markFrom (some ')') u := by
  have hp : Parted t (')' :: u) := .of_char (.inr <| .inr rfl) _ _
  have hg (s : List Char) : group s ++ u = '(' :: (s ++ ')' :: u) := by simp [group]
  rw [hg, markFrom_other (by decide) rfl, markFrom_congr (p := some '(') (q := none) rfl,
    markFrom_append h hp none none, markFrom_other (by decide) rfl]
  simp [group]

theorem isFractionBar_markFrom (h : t.head?.any isAsciiDigit = false) (hb : isFractionBar t = false) :
    isFractionBar (markFrom p t) = false := by
  cases t
  case nil => rw [markFrom_nil]; rfl
  case cons c t =>
    by_cases hc : c = '/'
    case neg => simp [isFractionBar, head?_markFrom h, hc]
    case pos =>
      subst hc
      have ht : t.head?.any isAsciiDigit = false := by simpa [isFractionBar] using hb
      rw [markFrom_other (by decide) rfl]
      simpa [isFractionBar, head?_markFrom ht] using hb

theorem Taken.markFrom (h : Taken x t) (p : Option Char) : Taken x (markFrom p t) := by
  cases h
  case unclosed w hw =>
    rw [markFrom_nil]
    exact .unclosed hw
  case closed w hw => exact .closed hw
  case number sign ds hs hd ht hb he =>
    refine .number hs hd ?_ (fun hn => isFractionBar_markFrom ht (hb hn)) fun hs hd => ?_
    · rw [head?_markFrom ht, ht]
    · rw [head?_markFrom ht, he hs hd]
  case fraction sign ds ds' hs hn hd hn' hd' ht =>
    refine .fraction hs hn hd hn' hd' ?_
    rw [head?_markFrom ht, ht]

theorem some_getLast (h : x ≠ []) (c : Char) : some (x.getLast?.getD c) = x.getLast? := by
  rw [List.getLast?_eq_some_getLast h, Option.getD_some]

-- Digits behind a caret are left alone, also if a denominator was not marked together with them.
theorem markFrom_power (hn : ds ≠ []) (hd : ∀ c ∈ ds, isAsciiDigit c) (ht : t.head?.any isAsciiDigit = false)
    (h : markFrom ds.getLast? t = t) : markFrom p ('^' :: (ds ++ t)) = '^' :: (ds ++ t) := by
  cases hb : isFractionBar t
  case false =>
    have hx : Taken ([] ++ ds) t := .number (.inl rfl) hd ht (fun _ => hb) fun _ h => absurd h hn
    rw [List.nil_append] at hx
    rw [markFrom_caret hx, some_getLast hn, h]
  case true =>
    obtain ⟨t, rfl, hb⟩ := isFractionBar_iff.mp hb
    obtain ⟨ds', u, rfl, hn', hd', hu⟩ := exists_digits hb
    rw [markFrom_other (by decide) rfl, markFrom_digits hn' hd' hu] at h
    have hx : Taken ([] ++ ds ++ '/' :: ds') u := .fraction (.inl rfl) hn hd hn' hd' hu
    rw [List.nil_append] at hx
    have hlast : (ds ++ '/' :: ds').getLast? = ds'.getLast? := by
      rw [List.getLast?_append, List.getLast?_cons_of_ne_nil hn', List.getLast?_eq_some_getLast hn']
      rfl
    have hu' : markFrom ds'.getLast? u = u := by simpa [carriesExponent] using h
    have hassoc : ds ++ '/' :: (ds' ++ u) = ds ++ '/' :: ds' ++ u := by simp
    rw [hassoc, markFrom_caret hx, some_getLast (by simp), hlast, hu']

-- Marked text stays as it is.
theorem markFrom_idem (h : carriesExponent q = carriesExponent p) : markFrom q (markFrom p t) = markFrom p t := by
  induction scanned t generalizing p q
  case nil => rw [markFrom_nil, markFrom_nil]
  case caret x t hx _ hi => rw [markFrom_caret hx, markFrom_caret (hx.markFrom _), hi rfl]
  case digits ds t hn hd hh _ hi =>
    have hh' : (markFrom ds.getLast? t).head?.any isAsciiDigit = false := by rw [head?_markFrom hh, hh]
    rw [markFrom_digits hn hd hh]
    cases hp : carriesExponent p
    case true => exact markFrom_power hn hd hh' (hi rfl)
    case false =>
      have hq : ¬carriesExponent q := by simp [h, hp]
      rw [if_neg (by simp), markFrom_digits hn hd hh', if_neg hq, hi rfl]
  case other c t hc hd _ hi => rw [markFrom_other hc hd, markFrom_other hc hd, hi rfl]

end Metrology.Expression
