import Metrology.Expression.Group

/-!
Balanced texts and the parentheses around them. A balanced text may stand in front of anything without changing
what is balanced behind it, and `unwrap` removes exactly the pairs that enclose a whole text.
-/

namespace Metrology.Expression

variable {c : Char} {d e k : Nat} {s t u : List Char}

theorem isBalanced_other (ho : c ≠ '(') (hc : c ≠ ')') : isBalanced d (c :: t) = isBalanced d t :=
  isBalanced.eq_4 d c t ho hc

-- Opening parentheses less closing ones.
def nesting (t : List Char) : Int :=
  t.count '(' - t.count ')'

theorem nesting_append (s t : List Char) : nesting (s ++ t) = nesting s + nesting t := by
  simp only [nesting, List.count_append]
  omega

theorem nesting_cons (c : Char) (t : List Char) : nesting (c :: t) = nesting [c] + nesting t :=
  nesting_append [c] t

theorem nesting_other (ho : c ≠ '(') (hc : c ≠ ')') : nesting [c] = 0 := by
  simp [nesting, ho, hc]

theorem nesting_cons_other (ho : c ≠ '(') (hc : c ≠ ')') (t : List Char) : nesting (c :: t) = nesting t := by
  rw [nesting_cons, nesting_other ho hc, Int.zero_add]

-- What one character leaves open.
theorem isBalanced_cons : isBalanced d (c :: t) ↔ ∃ e : Nat, d + nesting [c] = e ∧ isBalanced e t := by
  by_cases ho : c = '('
  case pos =>
    subst ho
    constructor
    case mp => exact fun h => ⟨d + 1, rfl, h⟩
    case mpr =>
      rintro ⟨e, he, h⟩
      have he : (d : Int) + 1 = e := he
      have he : d + 1 = e := by omega
      rwa [isBalanced, he]
  case neg =>
    by_cases hc : c = ')'
    case pos =>
      subst hc
      rw [isBalanced, Bool.and_eq_true, bne_iff_ne]
      constructor
      case mp =>
        rintro ⟨hd, h⟩
        exact ⟨d - 1, by change (d : Int) + -1 = _; omega, h⟩
      case mpr =>
        rintro ⟨e, he, h⟩
        have he : (d : Int) + -1 = e := he
        have hd : d - 1 = e := by omega
        exact ⟨by omega, hd ▸ h⟩
    case neg =>
      rw [isBalanced_other ho hc, nesting_other ho hc]
      constructor
      case mp => exact fun h => ⟨d, by omega, h⟩
      case mpr =>
        rintro ⟨e, he, h⟩
        have hd : d = e := by omega
        exact hd ▸ h

-- A text is balanced if it closes all that is open and, up to any place in it, no more than that.
theorem isBalanced_iff : isBalanced d t ↔ d + nesting t = 0 ∧ ∀ s, s <+: t → 0 ≤ d + nesting s := by
  induction t generalizing d
  case nil => simp [isBalanced, nesting]
  case cons c t hi =>
    have hcons (s : List Char) := nesting_cons c s
    rw [isBalanced_cons]
    constructor
    case mp =>
      rintro ⟨e, he, h⟩
      obtain ⟨ht, hs⟩ := hi.mp h
      refine ⟨by rw [hcons]; omega, ?_⟩
      intro s hp
      cases List.prefix_cons_iff.mp hp
      case inl hp => exact hp ▸ Int.natCast_nonneg d
      case inr hp =>
        obtain ⟨u, hu, hp⟩ := hp
        have := hs u hp
        rw [hu, hcons]
        omega
    case mpr =>
      rintro ⟨ht, hs⟩
      obtain ⟨e, he⟩ := Int.eq_ofNat_of_zero_le (hs [c] ⟨t, rfl⟩)
      refine ⟨e, he, hi.mpr ⟨by rw [hcons] at ht; omega, ?_⟩⟩
      intro s h
      have := hs (c :: s) (List.cons_prefix_cons.mpr ⟨rfl, h⟩)
      rw [hcons] at this
      omega

-- With more parentheses open in front, the rest of the text has to close just those.
theorem isBalanced_append (h : isBalanced d s) : isBalanced (d + e) (s ++ t) = isBalanced e t := by
  induction s generalizing d
  case nil =>
    have hd : d = 0 := by simpa [isBalanced] using h
    rw [hd, Nat.zero_add, List.nil_append]
  case cons c s hi =>
    obtain ⟨m, hm, h⟩ := isBalanced_cons.mp h
    rw [List.cons_append, ← hi h, Bool.eq_iff_iff, isBalanced_cons]
    constructor
    case mp =>
      rintro ⟨n, hn, h⟩
      have hn : n = m + e := by omega
      exact hn ▸ h
    case mpr => exact fun h => ⟨m + e, by omega, h⟩

theorem nesting_of_isBalanced (h : isBalanced d t) : nesting t = -d := by
  have := (isBalanced_iff.mp h).1
  omega

-- No prefix of a balanced text closes more than was opened.
theorem le_of_isBalanced_append (hs : isBalanced d s) (h : isBalanced e (s ++ t)) : d ≤ e := by
  have hn := nesting_of_isBalanced hs
  have := (isBalanced_iff.mp h).2 s (List.prefix_append s t)
  omega

theorem isBalanced_append_zero (hs : isBalanced 0 s) (ht : isBalanced 0 t) : isBalanced 0 (s ++ t) := by
  have h := isBalanced_append (e := 0) (t := t) hs
  rwa [ht] at h

-- A part that leaves nothing open, and what follows it, are balanced if both together are.
theorem isBalanced_parts (h : isBalanced 0 (s ++ t)) (hn : nesting s = 0) : isBalanced 0 s ∧ isBalanced 0 t := by
  have hs : isBalanced 0 s := by
    refine isBalanced_iff.mpr ⟨by omega, ?_⟩
    exact fun u hu => (isBalanced_iff.mp h).2 u (hu.trans (List.prefix_append s t))
  exact ⟨hs, isBalanced_append (e := 0) hs ▸ h⟩

-- A text without parentheses.
def IsBare (t : List Char) : Prop :=
  ∀ c ∈ t, c ≠ '(' ∧ c ≠ ')'

theorem IsBare.isBalanced (h : IsBare t) : isBalanced 0 t := by
  induction t
  case nil => rfl
  case cons c t hi =>
    obtain ⟨ho, hc⟩ := h c List.mem_cons_self
    rw [isBalanced_other ho hc]
    exact hi fun x hx => h x (List.mem_cons_of_mem _ hx)

theorem IsBare.nesting (h : IsBare t) : nesting t = 0 :=
  nesting_of_isBalanced h.isBalanced

-- A text in a pair of parentheses.
def group (t : List Char) : List Char :=
  '(' :: t ++ [')']

theorem length_group (t : List Char) : (group t).length = t.length + 2 := by
  simp [group]

theorem isBalanced_group (h : isBalanced 0 t) : isBalanced 0 (group t) := by
  have hb : isBalanced 1 (t ++ [')']) = isBalanced 1 [')'] := isBalanced_append (d := 0) (e := 1) h
  rw [group, List.cons_append, isBalanced, hb]
  rfl

-- A text in several pairs of parentheses.
def wrap : Nat → List Char → List Char
  | 0, t => t
  | k + 1, t => group (wrap k t)

theorem isBalanced_wrap (h : isBalanced 0 t) : isBalanced 0 (wrap k t) := by
  induction k
  case zero => exact h
  case succ k hi => exact isBalanced_group hi

theorem closesAtEnd_concat : closesAtEnd (d + 1) (u ++ [c]) = (c == ')' && isBalanced d u) := by
  fun_induction isBalanced d u
  case case1 d => simp [closesAtEnd]
  case case2 d rest hi => simp [closesAtEnd, ← hi]
  case case3 d rest hi =>
    cases d
    case zero => simp [closesAtEnd]
    case succ d => simpa [closesAtEnd] using hi
  case case4 d c' rest ho hc hi => simpa [closesAtEnd, ho, hc] using hi

theorem closesAtEnd_iff : closesAtEnd (d + 1) t ↔ ∃ u, isBalanced d u ∧ t = u ++ [')'] := by
  cases List.eq_nil_or_concat t
  case inl h => simp [h, closesAtEnd]
  case inr h =>
    obtain ⟨u, c, h⟩ := h
    subst h
    simp only [List.concat_eq_append, closesAtEnd_concat, Bool.and_eq_true, beq_iff_eq]
    constructor
    case mp =>
      rintro ⟨hc, hu⟩
      exact ⟨u, hu, by rw [hc]⟩
    case mpr =>
      rintro ⟨v, hv, he⟩
      obtain ⟨hu, hc⟩ := List.append_inj' he rfl
      exact ⟨List.singleton_inj.mp hc, hu ▸ hv⟩

theorem unwrap_group (h : isBalanced 0 t) : unwrap (group t) = unwrap t := by
  have hc : closesAtEnd 1 (t ++ [')']) := closesAtEnd_iff.mpr ⟨t, h, rfl⟩
  rw [group, List.cons_append, unwrap, if_pos hc, List.dropLast_concat]

theorem unwrap_wrap (h : isBalanced 0 t) : unwrap (wrap k t) = unwrap t := by
  induction k
  case zero => rfl
  case succ k hi => rw [wrap, unwrap_group (isBalanced_wrap h), hi]

theorem unwrap_of_head (h : t.head? ≠ some '(') : unwrap t = t := by
  rw [unwrap]
  intro rest ht
  simp [ht] at h

theorem IsBare.unwrap (h : IsBare t) : unwrap t = t := by
  apply unwrap_of_head
  intro ht
  exact (h _ (List.mem_of_head? ht)).1 rfl

-- What stays the same is not enclosed; all else is a pair around a balanced text.
theorem unwrap_cases (t : List Char) :
    unwrap t = t ∨ ∃ u, isBalanced 0 u ∧ t = group u ∧ unwrap t = unwrap u := by
  by_cases h : ∃ u, isBalanced 0 u ∧ t = group u
  case pos =>
    obtain ⟨u, hu, ht⟩ := h
    exact .inr ⟨u, hu, ht, ht ▸ unwrap_group hu⟩
  case neg =>
    left
    rw [unwrap.eq_def]
    split
    case h_2 => rfl
    case h_1 rest =>
      apply if_neg
      intro hc
      obtain ⟨u, hu, hr⟩ := closesAtEnd_iff.mp hc
      exact h ⟨u, hu, by rw [hr, group]; rfl⟩

-- A text that starts with a closed part is not enclosed as a whole.
theorem unwrap_append (hs : isBalanced 0 s) (hne : s ≠ []) (ht : t ≠ []) : unwrap (s ++ t) = s ++ t := by
  cases unwrap_cases (s ++ t)
  case inl h => exact h
  case inr h =>
    obtain ⟨u, hu, he, _⟩ := h
    obtain ⟨x, s', hs'⟩ := List.exists_cons_of_ne_nil hne
    obtain ⟨t', y, ht'⟩ := (List.eq_nil_or_concat t).resolve_left ht
    subst hs' ht'
    obtain ⟨hx, hl⟩ : x = '(' ∧ s' ++ t' ++ [y] = u ++ [')'] := by simpa [group] using he
    subst hx
    have := le_of_isBalanced_append (d := 1) hs <| (List.append_inj' hl rfl).1 ▸ hu
    contradiction

-- Texts are taken out of the pairs around them one by one.
theorem unwrap_induction {P : List Char → Prop} (bare : ∀ t, unwrap t = t → P t)
    (group : ∀ u, isBalanced 0 u → P u → P (group u)) (t : List Char) : P t := by
  induction h : t.length using Nat.strongRecOn generalizing t
  case ind n hi =>
    cases unwrap_cases t
    case inl ht => exact bare t ht
    case inr ht =>
      obtain ⟨u, hu, he, _⟩ := ht
      have hl : u.length < n := by
        rw [← h, he, length_group]
        omega
      exact he ▸ group u hu (hi _ hl u rfl)

-- The text is what remains with the removed pairs around it.
theorem exists_wrap_unwrap (t : List Char) : ∃ k, t = wrap k (unwrap t) := by
  induction t using unwrap_induction
  case bare t ht => exact ⟨0, ht.symm⟩
  case group u hu hi =>
    obtain ⟨k, hk⟩ := hi
    exact ⟨k + 1, by rw [wrap, unwrap_group hu, ← hk]⟩

theorem unwrap_idem (t : List Char) : unwrap (unwrap t) = unwrap t := by
  induction t using unwrap_induction
  case bare t ht => rw [ht, ht]
  case group u hu hi => rw [unwrap_group hu, hi]

theorem isBalanced_unwrap (h : isBalanced 0 t) : isBalanced 0 (unwrap t) := by
  induction t using unwrap_induction
  case bare t ht => rwa [ht]
  case group u hu hi =>
    rw [unwrap_group hu]
    exact hi hu

-- What remains is no pair around a balanced text.
theorem unwrap_ne_group (t : List Char) (hu : isBalanced 0 u) : unwrap t ≠ group u := by
  intro h
  have hsame : unwrap (group u) = group u := h ▸ unwrap_idem t
  have hlength := unwrap_length u
  rw [← unwrap_group hu, hsame, length_group] at hlength
  omega

end Metrology.Expression
