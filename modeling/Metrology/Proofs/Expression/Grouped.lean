import Metrology.Proofs.Expression.Printing

/-!
Texts made of texts. If two texts can be read, so can their product, their quotient and their powers with parentheses
around each of them, and what is read is the product, quotient or power of the expressions.
-/

namespace Metrology.Expression

open Text

variable {b : DigitBound} {c : Char} {d : Nat} {inRun : Bool} {p : Option Char} {m n : Int} {q : Rat}
variable {s t x y : List Char} {e e' : Expression} {cs : List Component}

def times (e e' : Expression) : Expression :=
  ofComponents (e.components ++ e'.components)

def per (e e' : Expression) : Expression :=
  ofComponents (e.components ++ raise (-1) e'.components)

def toPower (q : Rat) (e : Expression) : Expression :=
  ofComponents (raise q e.components)

section Normalisation

theorem lowerFrom_append (hc : plainSuperscript? c = none) (s t : List Char) :
    lowerFrom inRun (s ++ c :: t) = lowerFrom inRun s ++ c :: lowerFrom false t := by
  induction s generalizing inRun
  case nil => simp only [List.nil_append, lowerFrom, hc]
  case cons x s hi =>
    rw [List.cons_append, lowerFrom, lowerFrom, hi, hi]
    cases plainSuperscript? x
    case none => rfl
    case some => cases inRun <;> rfl

-- A character that normalisation leaves alone keeps its two sides apart.
theorem plainSymbols_joined (hc : IsSettled c) (s t : List Char) :
    plainSymbols (s ++ c :: t) = plainSymbols s ++ c :: plainSymbols t := by
  rw [plainSymbols, List.map_append, List.map_cons, hc.operator, lowerFrom_append hc.superscript]
  rfl

-- The text with its own operators and without blanks.
def settled (s : List Char) : List Char :=
  withoutBlanks (plainSymbols s)

theorem settled_joined (hc : IsSettled c) (s t : List Char) : settled (s ++ c :: t) = settled s ++ c :: settled t := by
  rw [settled, plainSymbols_joined hc, withoutBlanks_append]
  simp [withoutBlanks, hc.blank, settled]

theorem settled_nil : settled [] = [] :=
  rfl

theorem settled_group_append (s t : List Char) : settled (group s ++ t) = group (settled s) ++ settled t := by
  have hopen := settled_joined (by decide : IsSettled '(') [] (s ++ ')' :: t)
  rw [settled_joined (by decide : IsSettled ')'), settled_nil] at hopen
  simpa [group] using hopen

theorem settled_group (s : List Char) : settled (group s) = group (settled s) := by
  simpa [settled_nil] using settled_group_append s []

-- Normalisation drops nothing but blanks.
theorem isBlank_of_lowerFrom (h : ∀ c ∈ lowerFrom inRun t, isBlank c) : ∀ c ∈ t, isBlank c := by
  induction t generalizing inRun
  case nil => exact List.forall_mem_nil _
  case cons c t hi =>
    rw [lowerFrom] at h
    cases hc : plainSuperscript? c
    case none =>
      simp only [hc] at h
      obtain ⟨hb, ht⟩ := List.forall_mem_cons.mp h
      exact List.forall_mem_cons.mpr ⟨hb, hi ht⟩
    case some x =>
      have hx : isBlank x = false := (plainSuperscript?_settled hc).blank
      have : isBlank x = true := by
        cases inRun <;> simp only [hc] at h <;> exact h x (by simp)
      simp [hx] at this

theorem isBlank_of_settled_eq_nil (h : settled s = []) : s.all isBlank := by
  rw [settled, withoutBlanks, List.filter_eq_nil_iff] at h
  have hplain : ∀ c ∈ s.map plainOperator, isBlank c := isBlank_of_lowerFrom (by simpa [plainSymbols] using h)
  rw [List.all_eq_true]
  intro c hc
  have hb := hplain _ (List.mem_map_of_mem hc)
  rcases plainOperator_cases c with ho | ho | ho
  case inl => rwa [ho] at hb
  all_goals
    rw [ho] at hb
    contradiction

theorem isBalanced_congr (h : ∀ d, isBalanced d s = isBalanced d t) (u : List Char) :
    isBalanced d (u ++ s) = isBalanced d (u ++ t) := by
  induction u generalizing d
  case nil => exact h d
  case cons c u hi =>
    rw [List.cons_append, List.cons_append, Bool.eq_iff_iff, isBalanced_cons, isBalanced_cons]
    simp only [hi]

-- Marking adds no parentheses.
theorem isBalanced_markFrom (d : Nat) (p : Option Char) (t : List Char) :
    isBalanced d (markFrom p t) = isBalanced d t := by
  have hcaret (d : Nat) (s : List Char) : isBalanced d ('^' :: s) = isBalanced d s :=
    isBalanced_other (by decide) (by decide)
  induction scanned t generalizing d p
  case nil => rw [markFrom_nil]
  case caret x t hx _ hi =>
    rw [markFrom_caret hx, hcaret, hcaret]
    exact isBalanced_congr (fun d => hi d _) x
  case digits ds t hn hd hh _ hi =>
    rw [markFrom_digits hn hd hh]
    split
    case isTrue =>
      rw [List.cons_append, hcaret]
      exact isBalanced_congr (fun d => hi d _) ds
    case isFalse => exact isBalanced_congr (fun d => hi d _) ds
  case other c t hc hd _ hi =>
    rw [markFrom_other hc hd]
    exact isBalanced_congr (fun d => hi d _) [c]

theorem marked_eq (s : List Char) : marked s = markFrom none (settled s) :=
  rfl

theorem marked_group_append (h : isBalanced 0 (marked s)) (t : List Char) :
    marked (group s ++ t) = group (marked s) ++ markFrom (some ')') (settled t) := by
  rw [marked_eq, isBalanced_markFrom] at h
  rw [marked_eq, settled_group_append, markFrom_group_append h, marked_eq]

-- A group behind an operator is marked like one that stands alone.
theorem marked_joined (hs : isBalanced 0 (marked s)) (ht : isBalanced 0 (marked t)) (hc : c = '*' ∨ c = '/') :
    marked (group s ++ c :: group t) = group (marked s) ++ c :: group (marked t) := by
  have hsettled : settled (c :: group t) = c :: group (settled t) := by
    have hc : IsSettled c := by rcases hc with rfl | rfl <;> decide
    simpa [settled_nil, settled_group] using settled_joined hc [] (group t)
  rw [marked_eq, isBalanced_markFrom] at ht
  have hgroup (p : Option Char) : markFrom p (group (settled t)) = group (marked t) :=
    (markFrom_of_head rfl).trans (markFrom_group ht)
  rw [marked_group_append hs, hsettled]
  cases hc
  case inl hc => rw [hc, markFrom_other (by decide) rfl, hgroup]
  case inr hc => rw [hc, markFrom_other (by decide) rfl, hgroup]

-- So is an exponent in parentheses.
theorem marked_power (hs : isBalanced 0 (marked s)) (hx : isBalanced 0 x) (hset : ∀ c ∈ x, IsSettled c) :
    marked (group s ++ '^' :: group x) = group (marked s) ++ '^' :: group x := by
  have hsettled : settled ('^' :: group x) = '^' :: group x := by
    have hg : settled x = x := by rw [settled, plainSymbols_settled hset, withoutBlanks_settled hset]
    simpa [settled_nil, settled_group, hg] using settled_joined (by decide : IsSettled '^') [] (group x)
  have hcaret := markFrom_caret (p := some ')') (Taken.group hx [])
  rw [List.append_nil, markFrom_nil, List.append_nil] at hcaret
  rw [marked_group_append hs, hsettled, hcaret]

end Normalisation

section Readings

-- What is read of a text that is not blank is also read of it in parentheses.
theorem reads_group_marked (h : parseWithin b (String.ofList s) = .ok e) (hs : s.all isBlank = false) :
    isBalanced 0 (marked s) ∧ ∃ cs, Reads b .base (group (marked s)) cs ∧ e = ofComponents cs := by
  have hm : marked s ≠ [] := by
    intro hm
    have hl := length_le_markFrom none (settled s)
    rw [← marked_eq, hm, List.length_nil, Nat.le_zero, List.length_eq_zero_iff] at hl
    rw [isBlank_of_settled_eq_nil hl] at hs
    contradiction
  obtain ⟨cs, hr, he⟩ := reads_marked h hm
  exact ⟨hr.isBalanced, cs, .group hr, he⟩

-- Sums of exponents do not care whether like terms were combined before.
theorem times_ofComponents (cs cs' : List Component) :
    times (ofComponents cs) (ofComponents cs') = ofComponents (cs ++ cs') := by
  rw [times, ofComponents_eq_ofComponents_iff]
  intro n
  simp only [exponentOf_ofComponents, exponentOf_append]

theorem toPower_ofComponents (q : Rat) (cs : List Component) :
    toPower q (ofComponents cs) = ofComponents (raise q cs) := by
  rw [toPower, ofComponents_eq_ofComponents_iff]
  intro n
  simp only [exponentOf_ofComponents, exponentOf_raise]

theorem per_ofComponents (cs cs' : List Component) :
    per (ofComponents cs) (ofComponents cs') = ofComponents (cs ++ raise (-1) cs') := by
  rw [per, ofComponents_eq_ofComponents_iff]
  intro n
  simp only [exponentOf_ofComponents, exponentOf_append, exponentOf_raise]

theorem parseWithin_times (hs : parseWithin b (String.ofList s) = .ok e) (ht : parseWithin b (String.ofList t) = .ok e')
    (hsb : s.all isBlank = false) (htb : t.all isBlank = false) :
    parseWithin b (String.ofList (group s ++ '*' :: group t)) = .ok (times e e') := by
  obtain ⟨hms, cs, hr, rfl⟩ := reads_group_marked hs hsb
  obtain ⟨hmt, cs', hr', rfl⟩ := reads_group_marked ht htb
  rw [times_ofComponents]
  apply parseWithin_of_reads
  rw [marked_joined hms hmt (.inl rfl)]
  exact .times (.single (.bare hr)) (.bare hr')

theorem parseWithin_per (hs : parseWithin b (String.ofList s) = .ok e) (ht : parseWithin b (String.ofList t) = .ok e')
    (hsb : s.all isBlank = false) (htb : t.all isBlank = false) :
    parseWithin b (String.ofList (group s ++ '/' :: group t)) = .ok (per e e') := by
  obtain ⟨hms, cs, hr, rfl⟩ := reads_group_marked hs hsb
  obtain ⟨hmt, cs', hr', rfl⟩ := reads_group_marked ht htb
  rw [per_ofComponents]
  apply parseWithin_of_reads
  rw [marked_joined hms hmt (.inr rfl)]
  exact .per (.single (.bare hr)) (.bare hr') fun h => absurd h.2 (by simp [group, isAsciiDigit])

end Readings

section Powers

theorem repr_toList (n : Int) :
    n.repr.toList = if 0 ≤ n then Nat.toDigits 10 n.natAbs else '-' :: Nat.toDigits 10 n.natAbs := by
  split
  case isTrue h => exact repr_of_nonneg h
  case isFalse h =>
    have hn : (-n).toNat = n.natAbs := by omega
    rw [Int.repr_eq_if, if_neg h, hn]
    simp

theorem isSettled_repr (n : Int) : ∀ c ∈ n.repr.toList, IsSettled c := by
  rw [repr_toList]
  split
  case isTrue => exact isSettled_toDigits _
  case isFalse => exact List.forall_mem_cons.mpr ⟨by decide, isSettled_toDigits _⟩

def digitCount (n : Int) : Nat :=
  (Nat.toDigits 10 n.natAbs).length

theorem isInteger_repr (h : b.admits (digitCount n)) : IsInteger b n.repr.toList n := by
  have hds : IsNumeral b (Nat.toDigits 10 n.natAbs) :=
    ⟨Nat.toDigits_ne_nil, fun _ hc => isDigit_of_isAsciiDigit (isAsciiDigit_of_mem_toDigits hc), h⟩
  rw [repr_toList]
  split
  case isTrue hn =>
    have hi := IsInteger.unsigned hds
    rwa [naturalValue_toDigits, Int.natAbs_of_nonneg hn] at hi
  case isFalse hn =>
    have hi := IsInteger.minus hds
    have habs : -(n.natAbs : Int) = n := by omega
    rwa [naturalValue_toDigits, habs] at hi

theorem integerValue_repr_tooLong (h : b.admits (digitCount n) = false) :
    integerValue b n.repr.toList = .error (.numeralTooLong (digitCount n)) := by
  have hd : ∀ c ∈ Nat.toDigits 10 n.natAbs, isDigit c :=
    fun _ hc => isDigit_of_isAsciiDigit (isAsciiDigit_of_mem_toDigits hc)
  rw [digitCount] at h
  rw [repr_toList]
  split
  case isTrue =>
    rw [integerValue, takeSign_of_isDigit hd]
    exact if_neg (by simp [h])
  case isFalse => exact if_neg (by simp [h])

-- The text of a quotient of two integers.
def quotientText (m n : Int) : List Char :=
  m.repr.toList ++ '/' :: n.repr.toList

theorem isNumber_quotientText (hm : b.admits (digitCount m)) (hn : b.admits (digitCount n)) (h : n ≠ 0) :
    IsNumber b (quotientText m n) (m / n) :=
  .fraction (isInteger_repr hm) (isInteger_repr hn) h

theorem exponentValue_tooLong {term : List Char} (hn : n ≠ 0)
    (h : b.admits (digitCount m) = false ∨ b.admits (digitCount n) = false) :
    ∃ k, exponentValue b term (group (quotientText m n)) = .error (.numeralTooLong k) := by
  have hx : IsInteger none m.repr.toList m := isInteger_repr rfl
  have hy : IsInteger none n.repr.toList n := isInteger_repr rfl
  have hbare : IsBare (quotientText m n) := (IsNumber.fraction hx hy hn).bare
  rw [exponentValue_eq (by simp [group]), unwrap_group hbare.isBalanced, hbare.unwrap, quotientText,
    if_neg not_isInteger_fraction, quotient?_eq_some_iff.mpr ⟨rfl, hx.isInteger, hy.isInteger⟩]
  cases hm : b.admits (digitCount m)
  case false => exact ⟨_, by simp only [integerValue_repr_tooLong hm]; rfl⟩
  case true =>
    have hn := h.resolve_left (by simp [hm])
    exact ⟨_, by simp only [(isInteger_repr hm).value, integerValue_repr_tooLong hn]; rfl⟩

-- The error of an exponent is that of the whole text.
theorem parseWithin_of_exponentValue_error {error : Error} (hr : Reads b .base t cs) (hx : IsExponent none x q)
    (hm : marked s = t ++ '^' :: x) (h : exponentValue b (t ++ '^' :: x) x = .error error) :
    parseWithin b (String.ofList s) = .error error := by
  have hu : unwrap (t ++ '^' :: x) = t ++ '^' :: x := unwrap_append hr.isBalanced hr.ne_nil (by simp)
  have hb : isBalanced 0 (t ++ '^' :: x) := isBalanced_append_zero hr.isBalanced hx.isBalanced
  have hp : plain s = .ok (t ++ '^' :: x) := by
    rw [plain_eq_ok_iff, hm, hu]
    exact ⟨hb, .inr (by simp), rfl⟩
  have hpasses := hr.passes_base.append hx.passes
  have hpiece : pieceTerms b (t ++ '^' :: x) ⟨none, t ++ '^' :: x⟩ = .error error := by
    rw [pieceTerms, if_neg (by simp), splitTerm_power (nesting_of_balanced hr.isBalanced) hr.isPlain hx.isPlain
      hr.ne_nil, h]
    rfl
  simp only [parseWithin, String.toList_ofList, hp, bind, Except.bind]
  rw [terms_eq, hu, if_neg (by simp), productTerms_piece hpasses.isPiece, hpiece]

theorem isSettled_quotientText (m n : Int) : ∀ c ∈ quotientText m n, IsSettled c :=
  isSettled_joined (isSettled_repr m) (by decide) (isSettled_repr n)

theorem parseWithin_toPower_ok (hs : parseWithin b (String.ofList s) = .ok e) (hsb : s.all isBlank = false)
    (hm : b.admits (digitCount m)) (hn : b.admits (digitCount n)) (h : n ≠ 0) :
    parseWithin b (String.ofList (group s ++ '^' :: group (quotientText m n))) = .ok (toPower (m / n) e) := by
  obtain ⟨hms, cs, hr, rfl⟩ := reads_group_marked hs hsb
  have hx : IsNumber b (quotientText m n) (m / n) := isNumber_quotientText hm hn h
  rw [toPower_ofComponents]
  apply parseWithin_of_reads
  rw [marked_power hms hx.bare.isBalanced (isSettled_quotientText m n)]
  exact .single (.power hr (.wrapped 0 hx))

theorem parseWithin_toPower_tooLong (hs : parseWithin b (String.ofList s) = .ok e) (hsb : s.all isBlank = false)
    (hn : n ≠ 0) (h : b.admits (digitCount m) = false ∨ b.admits (digitCount n) = false) :
    ∃ k, parseWithin b (String.ofList (group s ++ '^' :: group (quotientText m n))) = .error (.numeralTooLong k) := by
  obtain ⟨hms, cs, hr, rfl⟩ := reads_group_marked hs hsb
  have hx : IsNumber none (quotientText m n) (m / n) := isNumber_quotientText rfl rfl hn
  have hmarked := marked_power hms hx.bare.isBalanced (isSettled_quotientText m n)
  obtain ⟨k, hk⟩ := exponentValue_tooLong hn h
  exact ⟨k, parseWithin_of_exponentValue_error hr (.wrapped 0 hx) hmarked hk⟩

-- A power is read, unless numerator or denominator of its exponent are too long.
theorem parseWithin_toPower (hs : parseWithin b (String.ofList s) = .ok e) (hsb : s.all isBlank = false) (m : Int)
    (hn : n ≠ 0) :
    let x := parseWithin b (String.ofList (group s ++ '^' :: group (quotientText m n)))
    x = .ok (toPower (m / n) e) ∨ ∃ k, x = .error (.numeralTooLong k) := by
  by_cases h : b.admits (digitCount m) ∧ b.admits (digitCount n)
  case pos => exact .inl (parseWithin_toPower_ok hs hsb h.1 h.2 hn)
  case neg => exact .inr (parseWithin_toPower_tooLong hs hsb hn (by simpa using not_and_or.mp h))

end Powers

end Metrology.Expression
