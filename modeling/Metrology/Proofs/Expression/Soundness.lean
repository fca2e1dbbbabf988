import Metrology.Proofs.Expression.Marking
import Metrology.Proofs.Expression.Reading
import Metrology.Proofs.Expression.Symbols

/-!
What texts mean, from their normalisation to the expression: `parse` returns the meaning of a text if it has one,
and refuses the text otherwise.
-/

namespace Metrology.Expression

open Text

variable {b : DigitBound} {c : Char} {s t : List Char} {e : Error}

theorem isSettled_of_mem_marked (h : c ∈ marked s) : IsSettled c := by
  cases mem_markFrom h
  case inl h => exact h ▸ by decide
  case inr h => exact isSettled_of_mem h

theorem marked_settled (h : ∀ c ∈ s, IsSettled c) : marked s = markFrom none s := by
  rw [marked, plainSymbols_settled h, withoutBlanks_settled h, markImplicit]

theorem plain_eq_ok_iff : plain s = .ok t ↔
    isBalanced 0 (marked s) ∧ (marked s = [] ∨ unwrap (marked s) ≠ []) ∧ t = unwrap (marked s) := by
  rw [plain]
  split
  case isTrue h => simp_all
  case isFalse h =>
    split
    case isTrue h' => simp [h'.1, h'.2]
    case isFalse h' =>
      have hm : marked s = [] ∨ unwrap (marked s) ≠ [] := by
        by_contra hm
        exact h' (not_or.mp hm |>.imp_right not_not.mp)
      have hb : isBalanced 0 (marked s) := by simpa using h
      exact ⟨fun he => ⟨hb, hm, (Except.ok.inj he).symm⟩, fun h => h.2.2 ▸ rfl⟩

theorem plain_unwrap (h : plain s = .ok t) : unwrap t = t := by
  obtain ⟨_, _, ht⟩ := plain_eq_ok_iff.mp h
  rw [ht, unwrap_idem]

theorem isSettled_of_mem_plain (h : plain s = .ok t) (hc : c ∈ t) : IsSettled c := by
  obtain ⟨_, _, ht⟩ := plain_eq_ok_iff.mp h
  exact isSettled_of_mem_marked <| (isInfix_unwrap _).mem (ht ▸ hc)

theorem lineEnd_notMem_plain (h : plain s = .ok t) : '\n' ∉ t := by
  intro hc
  exact absurd (isSettled_of_mem_plain h hc) (by decide)

theorem refused_of_plain (h : plain s = .error e) : Refused b t e := by
  simp only [plain] at h
  split at h
  case isTrue =>
    injection h with h
    exact h ▸ .malformed ..
  case isFalse =>
    split at h
    case isFalse => contradiction
    case isTrue =>
      injection h with h
      exact h ▸ .malformed ..

-- The meaning of a text: nothing at all is the empty expression, all else is read by the grammar after it was
-- normalised, and like terms are combined.
def Means (b : DigitBound) (s : List Char) (e : Expression) : Prop :=
  ∃ t, plain s = .ok t ∧ (t = [] ∧ e = ⟨[]⟩ ∨ ∃ cs, Reads b .product t cs ∧ e = ofComponents cs)

theorem parseWithin_eq_ok_iff {text : String} {e : Expression} :
    parseWithin b text = .ok e ↔ ∃ t cs, plain text.toList = .ok t ∧ terms b t = .ok cs ∧ e = ofComponents cs := by
  simp only [parseWithin]
  cases plain text.toList
  case error => simp [bind, Except.bind]
  case ok t =>
    cases ht : terms b t
    case error => simp [ht, bind, Except.bind]
    case ok cs => simp [ht, bind, Except.bind, pure, Except.pure, eq_comm]

theorem terms_eq_ok_iff {cs : List Component} (hp : plain s = .ok t) :
    terms b t = .ok cs ↔ t = [] ∧ cs = [] ∨ Reads b .product t cs := by
  have hu := plain_unwrap hp
  by_cases ht : t = []
  case pos =>
    subst ht
    have hr : ¬Reads b .product [] cs := fun h => h.ne_nil rfl
    rw [terms_eq, hu]
    simp [hr, eq_comm]
  case neg =>
    constructor
    case mp =>
      intro h
      have hr := reads_of_terms h (hu.symm ▸ ht)
      exact .inr (hu ▸ hr)
    case mpr =>
      intro h
      exact terms_of_reads (h.resolve_left fun h => ht h.1) (lineEnd_notMem_plain hp)

theorem parseWithin_eq_ok_iff_means {text : String} {e : Expression} :
    parseWithin b text = .ok e ↔ Means b text.toList e := by
  rw [parseWithin_eq_ok_iff]
  constructor
  case mp =>
    rintro ⟨t, cs, hp, ht, he⟩
    cases terms_eq_ok_iff hp |>.mp ht
    case inl h => exact ⟨t, hp, .inl ⟨h.1, by rw [he, h.2]; rfl⟩⟩
    case inr h => exact ⟨t, hp, .inr ⟨cs, h, he⟩⟩
  case mpr =>
    rintro ⟨t, hp, h⟩
    cases h
    case inl h => exact ⟨t, [], hp, terms_eq_ok_iff hp |>.mpr (.inl ⟨h.1, rfl⟩), h.2⟩
    case inr h =>
      obtain ⟨cs, hr, he⟩ := h
      exact ⟨t, cs, hp, terms_eq_ok_iff hp |>.mpr (.inr hr), he⟩

-- It is enough to read the marked text, with the parentheses around it.
theorem parseWithin_of_reads {cs : List Component} (h : Reads b .product (marked s) cs) :
    parseWithin b (String.ofList s) = .ok (ofComponents cs) := by
  have hn : '\n' ∉ marked s := fun hc => absurd (isSettled_of_mem_marked hc) (by decide)
  obtain ⟨hu, ht, _⟩ := h.accepts hn
  have hp : plain s = .ok (unwrap (marked s)) := plain_eq_ok_iff.mpr ⟨h.isBalanced, .inr hu, rfl⟩
  exact parseWithin_eq_ok_iff.mpr ⟨_, cs, by rw [String.toList_ofList, hp], by rw [terms_unwrap, ht], rfl⟩

-- Conversely, a marked text that is not empty is read with the parentheses around it.
theorem reads_marked {e : Expression} (h : parseWithin b (String.ofList s) = .ok e) (hm : marked s ≠ []) :
    ∃ cs, Reads b .product (marked s) cs ∧ e = ofComponents cs := by
  obtain ⟨t, cs, hp, ht, he⟩ := parseWithin_eq_ok_iff.mp h
  rw [String.toList_ofList] at hp
  obtain ⟨_, hn, hu⟩ := plain_eq_ok_iff.mp hp
  have hr := (terms_eq_ok_iff hp).mp ht |>.resolve_left fun h => hn.resolve_left hm (hu ▸ h.1)
  obtain ⟨k, hk⟩ := exists_wrap_unwrap (marked s)
  rw [← hu] at hk
  cases k
  case zero => exact ⟨cs, hk ▸ hr, he⟩
  case succ k => exact ⟨cs, hk ▸ .single (.bare (reads_wrap (Nat.succ_ne_zero k) hr)), he⟩

theorem refused_of_parseWithin {text : String} (h : parseWithin b text = .error e) :
    Refused b (marked text.toList) e := by
  simp only [parseWithin] at h
  cases hp : plain text.toList
  case error =>
    simp only [hp, bind, Except.bind, Except.error.injEq] at h
    exact refused_of_plain (h ▸ hp)
  case ok t =>
    cases ht : terms b t
    case ok => simp [hp, ht, bind, Except.bind, pure, Except.pure] at h
    case error =>
      simp only [hp, ht, bind, Except.bind, Except.error.injEq] at h
      obtain ⟨_, _, hu⟩ := plain_eq_ok_iff.mp hp
      have hm := isInfix_unwrap (marked text.toList)
      exact (refused_of_terms (h ▸ ht)).mono (hu ▸ hm)

-- A text is read as what it means. One without a meaning is refused, for its syntax or for an exponent with more
-- digits than the bound allows.
theorem parseWithin_spec (b : DigitBound) (text : String) :
    match parseWithin b text with
    | .ok e => Means b text.toList e
    | .error e => (∀ e', ¬Means b text.toList e') ∧ Refused b (marked text.toList) e := by
  cases h : parseWithin b text
  case ok e => exact parseWithin_eq_ok_iff_means.mp h
  case error e =>
    refine ⟨fun e' he => ?_, refused_of_parseWithin h⟩
    rw [← parseWithin_eq_ok_iff_means, h] at he
    contradiction

section TooLong

variable {ds rest : List Char} (hd : ∀ c ∈ ds, isAsciiDigit c)

include hd

theorem unreserved_of_digits : ∀ c ∈ ds, isReserved c = false :=
  fun c hc => isReserved_of_isDigit <| isDigit_of_isAsciiDigit (hd c hc)

theorem plain_metrePower (hn : ds ≠ []) (hr : rest = [] ∨ rest = ['*']) :
    plain ('m' :: '^' :: (ds ++ rest)) = .ok ('m' :: '^' :: (ds ++ rest)) := by
  have hrest : (∀ c ∈ rest, IsSettled c) ∧ IsBare rest ∧ rest.head?.any isAsciiDigit = false ∧
      ∀ p, markFrom p rest = rest := by
    cases hr
    case inl hr => exact hr ▸ ⟨List.forall_mem_nil _, List.forall_mem_nil _, rfl, markFrom_nil⟩
    case inr hr =>
      have hstar (p : Option Char) : markFrom p ['*'] = ['*'] := by rw [markFrom_other (by decide) rfl, markFrom_nil]
      exact hr ▸ ⟨List.forall_mem_singleton.mpr (by decide), List.forall_mem_singleton.mpr (by decide), rfl, hstar⟩
  obtain ⟨hrs, hrb, hrh, hrm⟩ := hrest
  have hds := List.forall_mem_append.mpr ⟨fun c hc => isSettled_of_isAsciiDigit (hd c hc), hrs⟩
  have hsettled : ∀ c ∈ 'm' :: '^' :: (ds ++ rest), IsSettled c :=
    List.forall_mem_cons.mpr ⟨by decide, List.forall_mem_cons.mpr ⟨by decide, hds⟩⟩
  have hdb := List.forall_mem_append.mpr ⟨IsBare.of_unreserved (unreserved_of_digits hd), hrb⟩
  have hbare : IsBare ('m' :: '^' :: (ds ++ rest)) :=
    List.forall_mem_cons.mpr ⟨by decide, List.forall_mem_cons.mpr ⟨by decide, hdb⟩⟩
  have hm : marked ('m' :: '^' :: (ds ++ rest)) = 'm' :: '^' :: (ds ++ rest) := by
    rw [marked_settled hsettled, markFrom_other (by decide) rfl, markFrom_power hn hd hrh (hrm _)]
  rw [plain_eq_ok_iff, hm, hbare.unwrap]
  exact ⟨hbare.isBalanced, .inr (by simp), rfl⟩

theorem isBare_metrePower : IsBare ('m' :: '^' :: ds) := by
  have := IsBare.of_unreserved (unreserved_of_digits hd)
  simp_all [IsBare]

theorem cut_trailing : cut isProductOperator true ('m' :: '^' :: (ds ++ ['*'])) =
    cut isProductOperator true ('m' :: '^' :: ds) ++ [⟨some '*', []⟩] :=
  cut_concat (isBare_metrePower hd).nesting rfl (by decide) (by decide) rfl (by simp [isProtected]) Passes.nil.isPiece

-- An operator at the end has nothing to act on.
theorem not_means_trailing (hn : ds ≠ []) (b : DigitBound) (e : Expression) :
    ¬Means b ('m' :: '^' :: (ds ++ ['*'])) e := by
  rintro ⟨t, hp, ht⟩
  have hp' := plain_metrePower hd hn (.inr rfl)
  cases hp.symm.trans hp'
  cases ht
  case inl h => simp at h
  case inr h =>
    obtain ⟨cs, hr, _⟩ := h
    have hcs := terms_eq_ok_iff hp' |>.mpr (.inr hr)
    rw [terms_eq, plain_unwrap hp', if_neg (by simp), productTerms_concat (cut_trailing hd)] at hcs
    cases hs : productTerms b ('m' :: '^' :: (ds ++ ['*'])) ('m' :: '^' :: ds)
    all_goals simp [hs, pieceTerms, Except.bind, Except.map] at hcs

variable (hb : b.admits ds.length = false)

include hb

theorem pieceTerms_tooLong (whole : List Char) (o : Option Char) :
    pieceTerms b whole ⟨o, 'm' :: '^' :: ds⟩ = .error (.numeralTooLong ds.length) := by
  have hdigit : ∀ c ∈ ds, isDigit c := fun c hc => isDigit_of_isAsciiDigit (hd c hc)
  have hbare : IsBare ds := .of_unreserved (unreserved_of_digits hd)
  have hcaret : '^' ∉ ds := fun hc => absurd (unreserved_of_digits hd _ hc) (by decide)
  have hm : IsPlain ['m'] := IsBare.isPlain (by simp [IsBare]) (by decide)
  have hn : ds ≠ [] := by
    intro hn
    cases b <;> simp [hn, DigitBound.admits] at hb
  have hsign := takeSign_of_isDigit hdigit
  have hi : isInteger ds := isInteger_eq ds |>.mpr (by rw [hsign]; exact ⟨hn, hdigit⟩)
  have hsplit := splitTerm_power (b := b) (s := ['m']) rfl hm (hbare.isPlain hcaret) (by simp)
  rw [pieceTerms, if_neg (by simp)]
  simp only [List.singleton_append] at hsplit
  rw [hsplit, exponentValue_eq hn, hbare.unwrap, if_pos hi, integerValue, hsign]
  simp [hb, Except.map, Except.bind]

theorem productTerms_tooLong (whole : List Char) (hr : rest = [] ∨ rest = ['*']) :
    productTerms b whole ('m' :: '^' :: (ds ++ rest)) = .error (.numeralTooLong ds.length) := by
  have hpass : Passes isProductOperator true ('m' :: '^' :: ds) := by
    apply passes_bare (isBare_metrePower hd)
    intro c hc
    simp only [List.mem_cons] at hc
    rcases hc with rfl | rfl | hc
    · decide
    · decide
    · exact .inl <| unreserved_of_digits hd c hc
  have hpiece : productTerms b whole ('m' :: '^' :: ds) = .error (.numeralTooLong ds.length) := by
    rw [productTerms_piece hpass.isPiece, pieceTerms_tooLong hd hb]
  cases hr
  case inl hr => rwa [hr, List.append_nil]
  case inr hr =>
    rw [hr, productTerms_concat (cut_trailing hd), hpiece]
    rfl

theorem parseWithin_tooLong (hr : rest = [] ∨ rest = ['*']) :
    parseWithin b (String.ofList ('m' :: '^' :: (ds ++ rest))) = .error (.numeralTooLong ds.length) := by
  have hn : ds ≠ [] := by
    intro hn
    cases b <;> simp [hn, DigitBound.admits] at hb
  have hp := plain_metrePower hd hn hr
  have hu := plain_unwrap hp
  rw [parseWithin, String.toList_ofList, hp]
  simp only [bind, Except.bind]
  rw [terms_eq, hu, if_neg (by simp), productTerms_tooLong hd hb _ hr]

end TooLong

-- A text that is malformed however long its numerals may be, and that is not refused for its syntax.
theorem parse_malformed_tooLong :
    let text := String.ofList ('m' :: '^' :: (List.replicate 4301 '2' ++ ['*']))
    (∀ e, ¬Means none text.toList e) ∧ parse text = .error (.numeralTooLong 4301) := by
  have hd : ∀ c ∈ List.replicate 4301 '2', isAsciiDigit c := fun c hc => List.eq_of_mem_replicate hc ▸ by decide
  have hb : DigitBound.standard.admits (List.replicate 4301 '2').length = false := by rw [List.length_replicate]; decide
  constructor
  case left =>
    intro e
    rw [String.toList_ofList]
    exact not_means_trailing hd (List.ne_nil_of_length_pos (by rw [List.length_replicate]; decide)) none e
  case right =>
    have := parseWithin_tooLong hd hb (.inr rfl)
    rwa [List.length_replicate] at this

end Metrology.Expression
