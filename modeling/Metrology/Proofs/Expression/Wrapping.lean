import Metrology.Proofs.Expression.Balance

/-!
Which parentheses belong together, and which of them `unwrap` removes: the pairs that wrap a whole text, from the
outermost one to the last one that does, and nothing else.
-/

namespace Metrology.Expression

variable {i j j' k k' : Nat} {r r' s t u v : List Char}

-- An opening parenthesis stands at the first place and the one that closes it at the second: the text in between is
-- balanced.
def Matches (t : List Char) (i j : Nat) : Prop :=
  ∃ s u v, t = s ++ group u ++ v ∧ isBalanced 0 u ∧ s.length = i ∧ i + u.length + 1 = j

-- What remains of a text without the `k` pairs that wrap it.
structure IsUnwrapped (k : Nat) (t r : List Char) : Prop where
  wrapped : t = List.replicate k '(' ++ r ++ List.replicate k ')'
  matched : ∀ i < k, ∀ j, Matches t i j ↔ i + j + 1 = t.length
  maximal : ∀ j, j + 1 = r.length → ¬Matches r 0 j
  again : unwrap r = r
  balanced : isBalanced 0 t → isBalanced 0 r

-- A balanced text ends in front of a parenthesis that closes an earlier one.
theorem length_le_of_closed (hu : isBalanced 0 u) (hv : isBalanced 0 v) (h : u ++ [')'] <+: t) (h' : v <+: t) :
    v.length ≤ u.length := by
  apply Nat.le_of_not_lt
  intro hlt
  have hl : (u ++ [')']).length ≤ v.length := by
    rw [List.length_append, List.length_singleton]
    omega
  obtain ⟨w, hw⟩ := List.prefix_of_prefix_length_le h h' hl
  have hclosed : isBalanced 1 (u ++ [')']) := (isBalanced_append (d := 0) (e := 1) hu).trans rfl
  have := le_of_isBalanced_append hclosed (hw ▸ hv)
  contradiction

-- A parenthesis is closed in one place only.
theorem Matches.unique (h : Matches t i j) (h' : Matches t i j') : j = j' := by
  obtain ⟨s, u, v, ht, hu, hs, hj⟩ := h
  obtain ⟨s', u', v', ht', hu', hs', hj'⟩ := h'
  have hsame : s ++ '(' :: (u ++ ')' :: v) = s' ++ '(' :: (u' ++ ')' :: v') := by
    simpa [group] using ht.symm.trans ht'
  obtain ⟨-, hsame⟩ := List.append_inj hsame (hs.trans hs'.symm)
  have hsame : u ++ ')' :: v = u' ++ ')' :: v' := (List.cons.inj hsame).2
  have hle := length_le_of_closed hu hu' ⟨v, by simp⟩ ⟨_, hsame.symm⟩
  have hge := length_le_of_closed hu' hu ⟨v', by simp⟩ ⟨_, hsame⟩
  omega

theorem wrap_add (i k : Nat) (t : List Char) :
    wrap (i + k) t = List.replicate i '(' ++ wrap k t ++ List.replicate i ')' := by
  induction i
  case zero => simp
  case succ i hi =>
    rw [Nat.succ_add_eq_add_succ, Nat.add_succ, wrap, hi, List.replicate_succ, List.replicate_succ']
    simp [group]

theorem wrap_eq (k : Nat) (t : List Char) : wrap k t = List.replicate k '(' ++ t ++ List.replicate k ')' :=
  wrap_add k 0 t

-- Each of the parentheses in front of a balanced text is closed by its counterpart behind it.
theorem matches_wrap_iff (h : isBalanced 0 t) (hi : i < k) :
    Matches (wrap k t) i j ↔ i + j + 1 = (wrap k t).length := by
  obtain ⟨m, rfl⟩ := Nat.exists_eq_add_of_lt hi
  have hw : wrap (i + m + 1) t = List.replicate i '(' ++ group (wrap m t) ++ List.replicate i ')' := wrap_add i (m + 1) t
  have hm : Matches (wrap (i + m + 1) t) i (i + (wrap m t).length + 1) :=
    ⟨_, _, _, hw, isBalanced_wrap h, List.length_replicate, rfl⟩
  have hl : (wrap (i + m + 1) t).length = i + ((wrap m t).length + 2) + i := by
    rw [hw, List.length_append, List.length_append, length_group, List.length_replicate, List.length_replicate]
  constructor
  case mp =>
    intro h
    have := h.unique hm
    omega
  case mpr =>
    intro h
    have hj : j = i + (wrap m t).length + 1 := by omega
    exact hj ▸ hm

-- Nothing is removed from a text that is not balanced.
theorem isBalanced_of_unwrap_ne (h : unwrap t ≠ t) : isBalanced 0 t := by
  obtain ⟨u, hu, ht, -⟩ := (unwrap_cases t).resolve_left h
  exact ht ▸ isBalanced_group hu

-- No pair is left that wraps what remains.
theorem not_matches_unwrap (h : j + 1 = (unwrap t).length) : ¬Matches (unwrap t) 0 j := by
  rintro ⟨s, u, v, ht, hu, hs, hj⟩
  have hl := congrArg List.length ht
  rw [List.length_append, List.length_append, length_group] at hl
  have hs : s = [] := List.length_eq_zero_iff.mp hs
  have hv : v = [] := List.length_eq_zero_iff.mp (by omega)
  rw [hs, hv, List.nil_append, List.append_nil] at ht
  exact unwrap_ne_group t hu ht

theorem unwrap_isUnwrapped (t : List Char) : ∃ k, IsUnwrapped k t (unwrap t) := by
  obtain ⟨k, hk⟩ := exists_wrap_unwrap t
  refine ⟨k, ?wrapped, ?matched, fun _ => not_matches_unwrap, unwrap_idem t, isBalanced_unwrap⟩
  case wrapped => rw [← wrap_eq, ← hk]
  case matched =>
    intro i hi j
    have hne : unwrap t ≠ t := by
      intro h
      have hl := congrArg List.length hk
      rw [wrap_eq, List.length_append, List.length_append, h, List.length_replicate] at hl
      omega
    have hr : isBalanced 0 (unwrap t) := isBalanced_unwrap (isBalanced_of_unwrap_ne hne)
    rw [hk]
    exact matches_wrap_iff hr hi

namespace IsUnwrapped

-- A pair that wraps the text and is not removed would wrap what remains.
theorem le (h : IsUnwrapped k t r) (h' : IsUnwrapped k' t r') : k' ≤ k := by
  apply Nat.le_of_not_lt
  intro hlt
  have hl := congrArg List.length h.wrapped
  have hl' := congrArg List.length h'.wrapped
  simp only [List.length_append, List.length_replicate] at hl hl'
  obtain ⟨s, u, v, ht, hu, hs, hj⟩ := (h'.matched k hlt (t.length - 1 - k)).mpr (by omega)
  have hv : v.length = k := by
    have := congrArg List.length ht
    rw [List.length_append, List.length_append, length_group] at this
    omega
  obtain ⟨hfront, -⟩ := List.append_inj' (h.wrapped.symm.trans ht) (by rw [List.length_replicate, hv])
  obtain ⟨-, hr⟩ := List.append_inj hfront (by rw [List.length_replicate, hs])
  refine h.maximal (u.length + 1) (by rw [hr, length_group]) ⟨[], u, [], by simp [hr], hu, rfl, by omega⟩

-- The removed pairs and what remains are given by the text alone.
theorem unique (h : IsUnwrapped k t r) (h' : IsUnwrapped k' t r') : k = k' ∧ r = r' := by
  have hk : k = k' := Nat.le_antisymm (h'.le h) (h.le h')
  subst hk
  have hr := h.wrapped.symm.trans h'.wrapped
  exact ⟨rfl, List.append_cancel_left (List.append_cancel_right hr)⟩

end IsUnwrapped

end Metrology.Expression
