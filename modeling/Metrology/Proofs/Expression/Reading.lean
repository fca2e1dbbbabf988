import Metrology.Proofs.Expression.Exponents

/-!
Reading plain text. The reader accepts exactly the texts of the grammar and returns the powers that the grammar
gives them; what it does not accept it refuses.
-/

namespace Metrology.Expression

open Text

variable {b : DigitBound} {o : Option Char} {c : Char} {r : Rat} {s t x y base term whole : List Char} {e : Error}
variable {cs : List Component} {D : Char → Bool}

-- What `terms` makes of a base with an exponent.
def baseTerms (b : DigitBound) (term base : List Char) (r : Rat) : Except Error (List Component) :=
  if unwrap base = base then atomTerms term base r
  else if unwrap base = [] then .error (.syntaxAt term .emptyOperand)
  else (terms b (unwrap base)).map (raise r)

-- What `terms` makes of a piece between two operators.
def pieceTerms (b : DigitBound) (whole : List Char) (p : Piece) : Except Error (List Component) :=
  if p.text = [] then .error (.syntaxAt whole .emptyOperand)
  else (splitTerm b p.text).bind fun (base, r) => baseTerms b p.text base (signOf p.delimiter * r)

def productTerms (b : DigitBound) (whole t : List Char) : Except Error (List Component) :=
  ((cut isProductOperator true t).mapM (pieceTerms b whole)).map List.flatten

theorem signed_raise (q r : Rat) (cs : List Component) :
    (cs.map fun (name, s) => (name, q * (s * r))) = raise (q * r) cs := by
  apply List.map_congr_left
  intro c _
  simp only [← Rat.mul_assoc, Rat.mul_comm q c.2]

theorem terms_eq (t : List Char) :
    terms b t = if unwrap t = [] then .ok [] else productTerms b (unwrap t) (unwrap t) := by
  rw [terms]
  split
  case isTrue => rfl
  case isFalse =>
    rw [List.mapM_subtype (g := pieceTerms b (unwrap t)), List.unattach_attach]
    · rfl
    · intro p hp
      simp only [pieceTerms]
      congr 1
      split
      case h_1 e hs => rw [hs]; rfl
      case h_2 base r hs =>
        rw [hs]
        simp only [Except.bind, baseTerms, signed_raise, dite_eq_ite]

-- A term without a caret outside of parentheses.
def IsPlain (t : List Char) : Prop :=
  IsPiece (· == '^') false t

theorem splitTerm_plain (h : IsPlain t) : splitTerm b t = .ok (t, 1) := by
  rw [splitTerm, h.cut]

theorem cut_caret (hn : nesting s = 0) (hx : IsPlain x) :
    cut (· == '^') false (s ++ '^' :: x) = cut (· == '^') false s ++ [⟨some '^', x⟩] :=
  cut_concat hn rfl (by decide) (by decide) (by decide) (by simp) hx

theorem splitTerm_power (hn : nesting s = 0) (hs : IsPlain s) (hx : IsPlain x) (hne : s ≠ []) :
    splitTerm b (s ++ '^' :: x) = (exponentValue b (s ++ '^' :: x) x).map (s, ·) := by
  rw [splitTerm, cut_caret hn hx, hs.cut]
  exact if_neg hne

theorem isPlain_cases (t : List Char) :
    IsPlain t ∨ ∃ s x, t = s ++ '^' :: x ∧ nesting s = 0 ∧ IsPlain x ∧
      cut (· == '^') false t = cut (· == '^') false s ++ [⟨some '^', x⟩] := by
  have ha : ∀ c : Char, (c == '^') = true → isAsciiDigit c = false := fun _ hc => beq_iff_eq.mp hc ▸ rfl
  cases cut_cases (D := (· == '^')) (P := false) (by simp) ha t
  case inl h => exact .inl h
  case inr h =>
    obtain ⟨s, c, x, ht, hn, hc, _, hx, hcut⟩ := h
    rw [beq_iff_eq] at hc
    exact .inr ⟨s, x, hc ▸ ht, hn, hx, hc ▸ hcut⟩

-- A term is a base, or a base with the text of an exponent; all else is no term.
theorem splitTerm_cases (b : DigitBound) (t : List Char) :
    IsPlain t ∨ (∃ s x, t = s ++ '^' :: x ∧ nesting s = 0 ∧ IsPlain s ∧ IsPlain x ∧ s ≠ []) ∨
      ∃ fault, splitTerm b t = .error (.syntaxAt t fault) := by
  cases isPlain_cases t
  case inl h => exact .inl h
  case inr h =>
    right
    obtain ⟨s, x, ht, hn, hx, hcut⟩ := h
    cases isPlain_cases s
    case inl hs =>
      by_cases hne : s = []
      case neg => exact .inl ⟨s, x, ht, hn, hs, hx, hne⟩
      case pos =>
        right
        rw [splitTerm, hcut, hs.cut]
        exact ⟨.missingUnit, if_pos hne⟩
    case inr hs =>
      -- with another caret in front there are three pieces or more
      right
      obtain ⟨s', y, _, _, _, hcut'⟩ := hs
      have hne : cut (· == '^') false s' ≠ [] := cutFrom_ne_nil
      have hl := congrArg List.length hcut
      rw [hcut', List.length_append, List.length_append, List.length_singleton, List.length_singleton] at hl
      have := List.length_pos_iff.mpr hne
      rw [splitTerm.eq_def]
      split
      case h_1 he =>
        rw [he, List.length_singleton] at hl
        omega
      case h_2 he =>
        rw [he, List.length_cons, List.length_singleton] at hl
        omega
      case h_3 => exact ⟨.repeatedExponent, rfl⟩

theorem IsBare.isPlain (h : IsBare t) (hc : '^' ∉ t) : IsPlain t := by
  apply (Passes.bare h _).isPiece
  intro c hm
  simp only [beq_eq_false_iff_ne]
  intro he
  exact hc (he ▸ hm)

theorem isPlain_wrap {k : Nat} (hk : k ≠ 0) (h : isBalanced 0 t) : IsPlain (wrap k t) :=
  (Passes.wrap hk h).isPiece

theorem IsExponent.isPlain (h : IsExponent b x r) : IsPlain x := by
  obtain ⟨k, y, hx, hy⟩ := h.eq_wrap
  rw [hx]
  cases k
  case succ k => exact isPlain_wrap (Nat.succ_ne_zero k) hy.bare.isBalanced
  case zero =>
    apply hy.bare.isPlain
    intro hc
    exact absurd (hy.eq_slash hc rfl) (by decide)

theorem Reads.isPlain (h : Reads b .base t cs) : IsPlain t := by
  cases h
  case one => exact IsBare.isPlain (by simp [IsBare]) (by decide)
  case name h =>
    apply h.bare.isPlain
    intro hc
    exact absurd (h.unreserved _ hc) (by decide)
  case group h => exact isPlain_wrap (k := 1) (by decide) h.isBalanced

theorem productTerms_piece (h : IsPiece isProductOperator true t) :
    productTerms b whole t = pieceTerms b whole ⟨none, t⟩ := by
  rw [productTerms, h.cut]
  cases hp : pieceTerms b whole ⟨none, t⟩ <;> simp [hp, Except.map, bind, Except.bind, pure, Except.pure]

theorem productTerms_concat {p : Piece} (h : cut isProductOperator true t = cut isProductOperator true s ++ [p]) :
    productTerms b whole t =
      (productTerms b whole s).bind fun cs => (pieceTerms b whole p).map (cs ++ ·) := by
  rw [productTerms, productTerms, h, List.mapM_append]
  cases hs : (cut isProductOperator true s).mapM (pieceTerms b whole)
  case error => rfl
  case ok css =>
    cases hp : pieceTerms b whole p <;> simp [hp, Except.map, bind, Except.bind, pure, Except.pure]

theorem isProductOperator_cases (h : isProductOperator c) : c = '*' ∨ c = '/' := by
  simpa [isProductOperator] using h

theorem outsidePower_of_operator (h : isProductOperator c) : OutsidePower c := by
  cases isProductOperator_cases h
  case inl h => exact h ▸ ⟨by decide, by decide, by decide, by decide⟩
  case inr h => exact h ▸ ⟨by decide, by decide, by decide, by decide⟩

theorem product_cases (t : List Char) :
    IsPiece isProductOperator true t ∨ ∃ s c u, t = s ++ c :: u ∧ nesting s = 0 ∧ isProductOperator c ∧
      ¬isProtected c s.reverse u ∧ IsPiece isProductOperator true u ∧
        cut isProductOperator true t = cut isProductOperator true s ++ [⟨some c, u⟩] := by
  have hs (c : Char) (hc : isProductOperator c) := outsidePower_of_operator hc
  simpa using cut_cases (P := true) (fun _ => hs) (fun c hc => (hs c hc).asciiDigit) t

theorem EndsInPower.caret_mem (h : EndsInPower s) : '^' ∈ s := by
  obtain ⟨front, sign, ds, hs, _⟩ := h
  simp [hs]

-- A slash that belongs to an exponent stands between a caret and a digit.
theorem caret_mem_of_isProtected (h : isProtected c s.reverse t) : '^' ∈ s := by
  simp only [isProtected, Bool.and_eq_true, endsInExponent_iff] at h
  cases h.2
  case inl h => exact h.caret_mem
  case inr h =>
    obtain ⟨u, hs, h⟩ := h
    exact hs ▸ List.mem_append_left _ h.caret_mem

theorem IsPlain.caret_notMem (h : IsPlain t) (hb : IsBare t) : '^' ∉ t := by
  intro hc
  obtain ⟨s, u, ht⟩ := List.append_of_mem hc
  have hs : IsBare s := fun c hc => hb c (by simp [ht, hc])
  have := IsPiece.isProtected (ht ▸ h) hs.nesting rfl (by decide) (by decide) (by decide)
  simp at this

-- Without a caret there is no exponent that a slash could belong to.
theorem operator_notMem (h : IsPiece isProductOperator true (s ++ t)) (hb : IsBare s) (hc : '^' ∉ s) :
    ∀ c ∈ s, isProductOperator c = false := by
  intro c hm
  by_contra ho
  have ho : isProductOperator c := by simpa using ho
  obtain ⟨s₁, s₂, hs⟩ := List.append_of_mem hm
  have hb₁ : IsBare s₁ := fun c hc => hb c (by simp [hs, hc])
  obtain ⟨hl, hr⟩ := hb c hm
  rw [hs, List.append_assoc, List.cons_append] at h
  have hp := IsPiece.isProtected h hb₁.nesting ho hl hr (outsidePower_of_operator ho).asciiDigit
  exact hc <| hs ▸ List.mem_append_left _ (caret_mem_of_isProtected hp.2)

theorem reads_of_atomTerms (h : atomTerms term base r = .ok cs) (hne : base ≠ []) (hp : IsPlain base)
    (ho : IsPiece isProductOperator true (base ++ t)) : ∃ cs', Reads b .base base cs' ∧ cs = raise r cs' := by
  simp only [atomTerms] at h
  split at h
  case isTrue => contradiction
  case isFalse hb =>
    have hb : IsBare base := by simpa [IsBare] using hb
    split at h
    case isTrue =>
      split at h
      case isFalse => contradiction
      case isTrue h1 =>
        injection h with h
        exact ⟨[], h1 ▸ .one, h.symm⟩
    case isFalse hd =>
      injection h with h
      have hc := hp.caret_notMem hb
      refine ⟨_, .name ⟨hne, ?_, by simpa using hd⟩, by simp [← h, raise]⟩
      intro c hm
      have hop := operator_notMem ho hb hc c hm
      obtain ⟨hl, hr⟩ := hb c hm
      have hcaret : c ≠ '^' := fun he => hc (he ▸ hm)
      simp_all [isReserved, isProductOperator]

section Soundness

-- What is read inside of parentheses, in texts that are shorter than a given one.
def SoundBelow (b : DigitBound) (n : Nat) : Prop :=
  ∀ t cs, t.length < n → terms b t = .ok cs → unwrap t ≠ [] → Reads b .product (unwrap t) cs

theorem SoundBelow.mono {m n : Nat} (h : SoundBelow b n) (hm : m ≤ n) : SoundBelow b m :=
  fun t cs ht => h t cs (Nat.lt_of_lt_of_le ht hm)

theorem reads_wrap {k : Nat} (hk : k ≠ 0) (h : Reads b .product t cs) : Reads b .base (wrap k t) cs := by
  induction k
  case zero => contradiction
  case succ k hi =>
    cases k
    case zero => exact .group h
    case succ k => exact .group <| .single <| .bare <| hi (Nat.succ_ne_zero k)

theorem reads_of_baseTerms (hi : SoundBelow b base.length) (h : baseTerms b term base r = .ok cs) (hne : base ≠ [])
    (hp : IsPlain base) (ho : IsPiece isProductOperator true (base ++ t)) :
    ∃ cs', Reads b .base base cs' ∧ cs = raise r cs' := by
  rw [baseTerms] at h
  split at h
  case isTrue => exact reads_of_atomTerms h hne hp ho
  case isFalse hu =>
    split at h
    case isTrue => contradiction
    case isFalse hn =>
      cases ht : terms b (unwrap base)
      case error => simp [ht, Except.map] at h
      case ok inner =>
        rw [ht] at h
        injection h with h
        have hr := hi _ _ (unwrap_length_lt hu) ht (by rwa [unwrap_idem])
        rw [unwrap_idem] at hr
        obtain ⟨k, hk⟩ := exists_wrap_unwrap base
        have hk0 : k ≠ 0 := fun h0 => hu (by rw [h0] at hk; exact hk.symm)
        have hb := reads_wrap hk0 hr
        rw [← hk] at hb
        exact ⟨inner, hb, h.symm⟩

theorem reads_of_pieceTerms (hi : SoundBelow b t.length) (h : pieceTerms b whole ⟨o, t⟩ = .ok cs)
    (ht : IsPiece isProductOperator true t) : ∃ cs', Reads b .term t cs' ∧ cs = raise (signOf o) cs' := by
  simp only [pieceTerms] at h
  split at h
  case isTrue => contradiction
  case isFalse hne =>
    rcases splitTerm_cases b t with hp | ⟨s, x, rfl, hn, hs, hx, hsne⟩ | ⟨fault, hf⟩
    · rw [splitTerm_plain hp] at h
      obtain ⟨cs', hr, hcs⟩ := reads_of_baseTerms (t := []) hi h hne hp (by rwa [List.append_nil])
      exact ⟨cs', .bare hr, by rw [hcs, Rat.mul_one]⟩
    · rw [splitTerm_power hn hs hx hsne] at h
      cases hv : exponentValue b (s ++ '^' :: x) x
      case error => simp [hv, Except.map, Except.bind] at h
      case ok r =>
        rw [hv] at h
        have hl : s.length ≤ (s ++ '^' :: x).length := by simp
        obtain ⟨cs', hr, hcs⟩ := reads_of_baseTerms (hi.mono hl) h hsne hs ht
        refine ⟨raise r cs', .power hr (isExponent_of_value hv ?_), by rw [hcs, raise_raise]⟩
        -- the slash of a fraction was not taken for an operator
        intro y z he hy
        rw [he, ← List.cons_append, ← List.append_assoc] at ht
        have hn' : nesting (s ++ '^' :: y) = 0 := by
          rw [nesting_append, hn, nesting_cons_other (by decide) (by decide), hy.nesting, Int.add_zero]
        have hp := IsPiece.isProtected ht hn' (c := '/') rfl (by decide) (by decide) (by decide)
        simp only [isProtected, Bool.and_eq_true] at hp
        exact hp.2.1.2
    · simp [hf, Except.bind] at h

theorem reads_of_productTerms (hi : SoundBelow b t.length) (h : productTerms b whole t = .ok cs) :
    Reads b .product t cs := by
  induction hl : t.length using Nat.strongRecOn generalizing t cs
  case ind n hprefix =>
    cases product_cases t
    case inl ht =>
      rw [productTerms_piece ht] at h
      obtain ⟨cs', hr, hcs⟩ := reads_of_pieceTerms hi h ht
      have h1 : signOf none = 1 := rfl
      rw [hcs, h1, raise_one]
      exact .single hr
    case inr ht =>
      obtain ⟨s, c, u, ht, _, hc, hp, hu, hcut⟩ := ht
      subst ht
      rw [productTerms_concat hcut] at h
      cases hs : productTerms b whole s
      case error => simp [hs, Except.bind] at h
      case ok cs₁ =>
        cases hpu : pieceTerms b whole ⟨some c, u⟩
        case error => simp [hs, hpu, Except.bind, Except.map] at h
        case ok cs₂ =>
          simp only [hs, hpu, Except.bind, Except.map, Except.ok.injEq] at h
          have hsl : s.length < (s ++ c :: u).length := by simp
          have hul : u.length ≤ (s ++ c :: u).length := by simp; omega
          have hr := hprefix s.length (hl ▸ hsl) (hi.mono hsl.le) hs rfl
          obtain ⟨cs', hr', hcs⟩ := reads_of_pieceTerms (hi.mono hul) hpu hu
          rw [← h, hcs]
          cases isProductOperator_cases hc
          case inl hc =>
            have h1 : signOf (some '*') = 1 := rfl
            rw [hc, h1, raise_one]
            exact .times hr hr'
          case inr hc =>
            subst hc
            refine .per hr hr' fun hpow => hp ?_
            simp [isProtected, hpow.2, endsInExponent_iff.mpr (.inl hpow.1)]

theorem reads_of_terms (h : terms b t = .ok cs) (ht : unwrap t ≠ []) : Reads b .product (unwrap t) cs := by
  induction hl : t.length using Nat.strongRecOn generalizing t cs
  case ind n hi =>
    rw [terms_eq, if_neg ht] at h
    apply reads_of_productTerms _ h
    intro u cs hu hcs hne
    have := unwrap_length t
    exact hi u.length (by omega) hcs hne rfl

end Soundness

section Completeness

theorem baseTerms_bare (h : IsBare t) : baseTerms b term t r = atomTerms term t r := by
  rw [baseTerms, if_pos h.unwrap]

theorem atomTerms_bare (h : IsBare t) : atomTerms term t r =
    if t.head?.any isAsciiDigit then
      if t = ['1'] then .ok [] else .error (.syntaxAt term .numericFactor)
    else .ok [(String.ofList t, r)] := by
  rw [atomTerms, if_neg]
  simpa [IsBare] using h

theorem pieceTerms_bare (hp : IsPlain t) (hne : t ≠ []) (h : ∀ r, baseTerms b t t r = .ok (raise r cs)) :
    pieceTerms b whole ⟨o, t⟩ = .ok (raise (signOf o) cs) := by
  rw [pieceTerms, if_neg hne, splitTerm_plain hp]
  exact (h (signOf o * 1)).trans (by rw [Rat.mul_one])

theorem pieceTerms_power (hn : nesting t = 0) (hp : IsPlain t) (hne : t ≠ []) (hx : IsExponent b x r)
    (h : ∀ q, baseTerms b (t ++ '^' :: x) t q = .ok (raise q cs)) :
    pieceTerms b whole ⟨o, t ++ '^' :: x⟩ = .ok (raise (signOf o) (raise r cs)) := by
  rw [pieceTerms, if_neg (by simp), splitTerm_power hn hp hx.isPlain hne, hx.value]
  exact raise_raise (signOf o) r cs ▸ h (signOf o * r)

theorem terms_of_productTerms (hne : unwrap t ≠ []) (h : productTerms b (unwrap t) (unwrap t) = .ok cs) :
    terms b t = .ok cs := by
  rw [terms_eq, if_neg hne, h]

theorem terms_unwrap (t : List Char) : terms b (unwrap t) = terms b t := by
  rw [terms_eq, terms_eq, unwrap_idem]

-- A slash between an exponent and a digit is passed over.
theorem Passes.slash (hs : Passes D true s) (ht : Passes D true t) (hp : EndsInPower s)
    (ha : t.head?.any isAsciiDigit) : Passes D true (s ++ '/' :: t) := by
  intro o r rest
  have hr : s.reverse ++ r = (r.reverse ++ s).reverse := by simp
  have hhead : (t ++ rest).head? = t.head? := by cases t <;> simp_all
  have hsl : isProtected '/' (s.reverse ++ r) (t ++ rest) := by
    rw [isProtected, hhead, ha, hr, endsInExponent_iff.mpr (.inl <| hp.append_left _)]
    rfl
  rw [List.append_assoc, hs, List.cons_append, cutFrom, if_neg (by decide), if_neg (by decide), if_neg (by simp [hsl]),
    ht]
  simp

theorem passes_bare (hb : IsBare t) (hr : ∀ c ∈ t, isReserved c = false ∨ c = '^') :
    Passes isProductOperator true t := by
  apply Passes.bare hb
  intro c hc
  cases hr c hc
  case inl h => simp_all [isReserved, isProductOperator]
  case inr h => exact h ▸ by decide

theorem Reads.passes_base (h : Reads b .base t cs) : Passes isProductOperator true t := by
  cases h
  case one => exact passes_bare (by simp [IsBare]) (List.forall_mem_singleton.mpr (.inl rfl))
  case name h => exact passes_bare h.bare fun c hc => .inl <| h.unreserved c hc
  case group h => exact Passes.group h.isBalanced

theorem IsInteger.passes {n : Int} (h : IsInteger b x n) : Passes isProductOperator true x :=
  passes_bare h.bare fun c hc => .inl <| h.unreserved c hc

theorem IsExponent.passes (h : IsExponent b x r) : Passes isProductOperator true ('^' :: x) := by
  have hcaret : Passes isProductOperator true ['^'] := .char (by decide) (by decide) (by decide)
  cases h
  case integer h => exact hcaret.append h.passes
  case wrapped k h => exact hcaret.append <| .wrap (Nat.succ_ne_zero k) h.bare.isBalanced
  case fraction hx hy _ ha => exact .slash (hcaret.append hx.passes) hy.passes (hx.endsInPower []) ha

theorem Reads.passes_term (h : Reads b .term t cs) : Passes isProductOperator true t := by
  cases h
  case bare h => exact h.passes_base
  case power h hx => exact h.passes_base.append hx.passes

theorem nesting_of_balanced (h : isBalanced 0 t) : nesting t = 0 :=
  nesting_of_isBalanced h

theorem productTerms_operator (hs : nesting s = 0) (hc : isProductOperator c) (hp : ¬isProtected c s.reverse t)
    (ht : Passes isProductOperator true t) {cs₁ cs₂ : List Component} (h₁ : productTerms b whole s = .ok cs₁)
    (h₂ : pieceTerms b whole ⟨some c, t⟩ = .ok cs₂) : productTerms b whole (s ++ c :: t) = .ok (cs₁ ++ cs₂) := by
  have ho : c ≠ '(' := by cases isProductOperator_cases hc <;> simp_all
  have hr : c ≠ ')' := by cases isProductOperator_cases hc <;> simp_all
  have ha := (outsidePower_of_operator hc).asciiDigit
  rw [productTerms_concat (cut_concat hs hc ho hr ha (by simpa using hp) ht.isPiece), h₁, Except.bind, h₂]
  rfl

-- What the reader makes of each part.
def Accepts (b : DigitBound) : Part → List Char → List Component → Prop
  | .base, t, cs => ∀ term r, baseTerms b term t r = .ok (raise r cs)
  | .term, t, cs => ∀ whole o, pieceTerms b whole ⟨o, t⟩ = .ok (raise (signOf o) cs)
  | .product, t, cs => ∀ whole, productTerms b whole t = .ok cs

theorem terms_of_pieceTerms (hne : t ≠ []) (hu : unwrap t = t) (hp : Passes isProductOperator true t)
    (h : ∀ whole o, pieceTerms b whole ⟨o, t⟩ = .ok (raise (signOf o) cs)) : terms b t = .ok cs := by
  apply terms_of_productTerms (by rwa [hu])
  rw [hu, productTerms_piece hp.isPiece, h]
  exact congrArg _ (raise_one cs)

theorem terms_group (h : isBalanced 0 t) : terms b (group t) = terms b t := by
  rw [← terms_unwrap, unwrap_group h, terms_unwrap]

theorem baseTerms_group (ht : isBalanced 0 t) (hne : unwrap t ≠ []) (h : terms b t = .ok cs) :
    baseTerms b term (group t) r = .ok (raise r cs) := by
  have hl := unwrap_length t
  have hu : unwrap (group t) ≠ group t := by
    intro he
    have := congrArg List.length he
    rw [unwrap_group ht] at this
    simp only [group, List.length_append, List.length_cons] at this
    omega
  rw [baseTerms, if_neg hu, unwrap_group ht, if_neg hne, terms_unwrap, h]
  rfl

theorem Reads.accepts {p : Part} (h : Reads b p t cs) (hn : '\n' ∉ t) :
    unwrap t ≠ [] ∧ terms b t = .ok cs ∧ Accepts b p t cs := by
  induction h
  case one =>
    have hb : IsBare ['1'] := by simp [IsBare]
    have hacc : Accepts b .base ['1'] [] := fun term r => by rw [baseTerms_bare hb, atomTerms_bare hb]; rfl
    have hr : Reads b .base ['1'] [] := .one
    have hterm : Accepts b .term ['1'] [] := fun _ _ => pieceTerms_bare hr.isPlain hr.ne_nil (hacc _)
    exact ⟨hb.unwrap.symm ▸ hr.ne_nil, terms_of_pieceTerms hr.ne_nil hb.unwrap hr.passes_base hterm, hacc⟩
  case name t h =>
    have hr : Reads b .base t _ := .name h
    have hacc : Accepts b .base t [(String.ofList t, 1)] := fun term r => by
      rw [baseTerms_bare h.bare, atomTerms_bare h.bare, h.head]
      simp [raise]
    have hterm : Accepts b .term t _ := fun _ _ => pieceTerms_bare hr.isPlain h.nonempty (hacc _)
    exact ⟨h.bare.unwrap.symm ▸ h.nonempty, terms_of_pieceTerms h.nonempty h.bare.unwrap hr.passes_base hterm, hacc⟩
  case group t cs h hi =>
    obtain ⟨hne, ht, _⟩ := hi fun hm => hn (by simp [Expression.group, hm])
    have hb := h.isBalanced
    exact ⟨unwrap_group hb ▸ hne, terms_group hb ▸ ht, fun _ _ => baseTerms_group hb hne ht⟩
  case bare t cs h hi =>
    obtain ⟨hne, ht, hacc⟩ := hi hn
    exact ⟨hne, ht, fun _ _ => pieceTerms_bare h.isPlain h.ne_nil (hacc _)⟩
  case power t cs x r h hx hi =>
    obtain ⟨_, _, hacc⟩ := hi fun hm => hn (by simp [hm])
    have hu : unwrap (t ++ '^' :: x) = t ++ '^' :: x := unwrap_append h.isBalanced h.ne_nil (by simp)
    have hterm : Accepts b .term (t ++ '^' :: x) (raise r cs) := fun _ _ =>
      pieceTerms_power (nesting_of_balanced h.isBalanced) h.isPlain h.ne_nil hx (hacc _)
    exact ⟨by rw [hu]; simp, terms_of_pieceTerms (by simp) hu (Reads.power h hx).passes_term hterm, hterm⟩
  case single t cs h hi =>
    obtain ⟨hne, ht, hacc⟩ := hi hn
    refine ⟨hne, ht, fun whole => ?_⟩
    rw [productTerms_piece h.passes_term.isPiece, hacc]
    exact congrArg _ (raise_one cs)
  case times s cs t cs' hs ht hi hi' =>
    obtain ⟨_, _, hacc⟩ := hi fun hm => hn (by simp [hm])
    obtain ⟨_, _, hacc'⟩ := hi' fun hm => hn (by simp [hm])
    have hu : unwrap (s ++ '*' :: t) = s ++ '*' :: t := unwrap_append hs.isBalanced hs.ne_nil (by simp)
    have hprod (whole) : productTerms b whole (s ++ '*' :: t) = .ok (cs ++ cs') := by
      apply productTerms_operator (nesting_of_balanced hs.isBalanced) rfl (by simp [isProtected]) ht.passes_term
      · exact hacc whole
      · exact (hacc' whole (some '*')).trans (congrArg _ (raise_one cs'))
    exact ⟨by rw [hu]; simp, terms_of_productTerms (by rw [hu]; simp) (hu.symm ▸ hprod _), hprod⟩
  case per s cs t cs' hs ht hp hi hi' =>
    obtain ⟨_, _, hacc⟩ := hi fun hm => hn (by simp [hm])
    obtain ⟨_, _, hacc'⟩ := hi' fun hm => hn (by simp [hm])
    have hu : unwrap (s ++ '/' :: t) = s ++ '/' :: t := unwrap_append hs.isBalanced hs.ne_nil (by simp)
    have hprot : ¬isProtected '/' s.reverse t := by
      intro h
      simp only [isProtected, Bool.and_eq_true, endsInExponent_iff] at h
      cases h.2
      case inl he => exact hp ⟨he, h.1.2⟩
      case inr he =>
        obtain ⟨u, hs, _⟩ := he
        exact hn (by simp [hs])
    have hprod (whole) : productTerms b whole (s ++ '/' :: t) = .ok (cs ++ raise (-1) cs') :=
      productTerms_operator (nesting_of_balanced hs.isBalanced) rfl hprot ht.passes_term (hacc whole) (hacc' whole _)
    exact ⟨by rw [hu]; simp, terms_of_productTerms (by rw [hu]; simp) (hu.symm ▸ hprod _), hprod⟩

theorem terms_of_reads {p : Part} (h : Reads b p t cs) (hn : '\n' ∉ t) : terms b t = .ok cs :=
  (h.accepts hn).2.1

end Completeness

section Refusal

theorem exists_of_mapM_error {α β ε : Type} {f : α → Except ε β} {l : List α} {e : ε} (h : l.mapM f = .error e) :
    ∃ a ∈ l, f a = .error e := by
  induction l
  case nil => contradiction
  case cons a l hi =>
    rw [List.mapM_cons] at h
    cases ha : f a
    case error e' =>
      rw [ha] at h
      injection h with h
      exact ⟨a, List.mem_cons_self, h ▸ ha⟩
    case ok b =>
      cases hl : l.mapM f
      case ok => simp [ha, hl, bind, Except.bind, pure, Except.pure] at h
      case error =>
        simp only [ha, hl, bind, Except.bind, Except.error.injEq] at h
        obtain ⟨x, hx, he⟩ := hi (h ▸ hl)
        exact ⟨x, List.mem_cons_of_mem _ hx, he⟩

theorem refused_of_atomTerms (h : atomTerms term base r = .error e) : Refused b t e := by
  simp only [atomTerms] at h
  split at h
  case isTrue =>
    injection h with h
    exact h ▸ .malformed ..
  case isFalse =>
    split at h
    case isFalse => contradiction
    case isTrue =>
      split at h
      case isTrue => contradiction
      case isFalse =>
        injection h with h
        exact h ▸ .malformed ..

theorem refused_of_baseTerms (hi : ∀ u, u.length < base.length → ∀ e, terms b u = .error e → Refused b u e)
    (h : baseTerms b term base r = .error e) : Refused b base e := by
  rw [baseTerms] at h
  split at h
  case isTrue => exact refused_of_atomTerms h
  case isFalse hu =>
    split at h
    case isTrue =>
      injection h with h
      exact h ▸ .malformed ..
    case isFalse =>
      cases ht : terms b (unwrap base)
      case ok => simp [ht, Except.map] at h
      case error =>
        rw [ht] at h
        injection h with h
        exact h ▸ (hi _ (unwrap_length_lt hu) _ ht).mono (isInfix_unwrap base)

theorem refused_of_pieceTerms (hi : ∀ u, u.length < t.length → ∀ e, terms b u = .error e → Refused b u e)
    (h : pieceTerms b whole ⟨o, t⟩ = .error e) : Refused b t e := by
  simp only [pieceTerms] at h
  split at h
  case isTrue =>
    injection h with h
    exact h ▸ .malformed ..
  case isFalse =>
    rcases splitTerm_cases b t with hp | ⟨s, x, rfl, hn, hs, hx, hne⟩ | ⟨fault, hf⟩
    · rw [splitTerm_plain hp] at h
      exact refused_of_baseTerms hi h
    · rw [splitTerm_power hn hs hx hne] at h
      cases hv : exponentValue b (s ++ '^' :: x) x
      case error =>
        simp only [hv, Except.map, Except.bind, Except.error.injEq] at h
        exact h ▸ (refused_of_exponentValue hv).mono ⟨s ++ ['^'], [], by simp⟩
      case ok r =>
        rw [hv] at h
        have hl : s.length ≤ (s ++ '^' :: x).length := by simp
        have hb : Refused b s e := refused_of_baseTerms (fun u hu => hi u (Nat.lt_of_lt_of_le hu hl)) h
        exact hb.mono (List.prefix_append ..).isInfix
    · simp only [hf, Except.bind, Except.error.injEq] at h
      exact h ▸ .malformed ..

theorem refused_of_terms (h : terms b t = .error e) : Refused b t e := by
  induction hl : t.length using Nat.strongRecOn generalizing t e
  case ind n hi =>
    rw [terms_eq] at h
    split at h
    case isTrue => contradiction
    case isFalse =>
      rw [productTerms] at h
      cases hm : (cut isProductOperator true (unwrap t)).mapM (pieceTerms b (unwrap t))
      case ok => simp [hm, Except.map] at h
      case error =>
        simp only [hm, Except.map, Except.error.injEq] at h
        rw [h] at hm
        obtain ⟨⟨o, u⟩, hu, he⟩ := exists_of_mapM_error hm
        have hut : u <:+: t := (isInfix_of_mem_cut hu).trans (isInfix_unwrap t)
        have hle := hut.length_le
        exact (refused_of_pieceTerms (fun v hv e hev => hi v.length (by omega) hev rfl) he).mono hut

end Refusal

end Metrology.Expression
