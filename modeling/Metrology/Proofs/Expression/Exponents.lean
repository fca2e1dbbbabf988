import Metrology.Proofs.Expression.Grammar

/-!
Reading the text behind a caret: what is read is a number in parentheses, and all else is refused.
-/

namespace Metrology.Expression

open Text

variable {b : DigitBound} {n d : Int} {r : Rat} {ds s t x y : List Char} {term : List Char} {e : Error}

-- Why a text is refused: its syntax, or a run of digits in it that is too long.
inductive Refused (b : DigitBound) (t : List Char) : Error → Prop
  | malformed (text : List Char) (fault : SyntaxFault) : Refused b t (.syntaxAt text fault)
  | tooLong (ds : List Char) (ht : ds <:+: t) (hd : ∀ c ∈ ds, isDigit c) (hb : b.admits ds.length = false) :
    Refused b t (.numeralTooLong ds.length)

theorem Refused.mono (h : Refused b s e) (hs : s <:+: t) : Refused b t e := by
  cases h
  case malformed text fault => exact .malformed text fault
  case tooLong ds ht hd hb => exact .tooLong ds (ht.trans hs) hd hb

theorem takeSign_of_isDigit (h : ∀ c ∈ ds, isDigit c) : takeSign ds = (false, ds) := by
  rw [takeSign.eq_def]
  split
  case h_1 => exact absurd (h '-' List.mem_cons_self) (by decide)
  case h_2 => exact absurd (h '+' List.mem_cons_self) (by decide)
  case h_3 => rfl

theorem takeSign_cases (x : List Char) :
    (takeSign x = (false, x)) ∨ (∃ ds, x = '+' :: ds ∧ takeSign x = (false, ds)) ∨
      ∃ ds, x = '-' :: ds ∧ takeSign x = (true, ds) := by
  rw [takeSign.eq_def]
  split
  case h_1 ds => exact .inr <| .inr ⟨ds, rfl, rfl⟩
  case h_2 ds => exact .inr <| .inl ⟨ds, rfl, rfl⟩
  case h_3 => exact .inl rfl

theorem isInteger_eq (x : List Char) :
    isInteger x ↔ (takeSign x).2 ≠ [] ∧ ∀ c ∈ (takeSign x).2, isDigit c := by
  simp [isInteger]

theorem IsInteger.isInteger (h : IsInteger b x n) : isInteger x := by
  rw [isInteger_eq]
  cases h
  case unsigned h => exact takeSign_of_isDigit h.digits ▸ ⟨h.nonempty, h.digits⟩
  case plus h => exact ⟨h.nonempty, h.digits⟩
  case minus h => exact ⟨h.nonempty, h.digits⟩

theorem IsInteger.value (h : IsInteger b x n) : integerValue b x = .ok n := by
  cases h
  case unsigned h => simp [integerValue, takeSign_of_isDigit h.digits, h.short, signed]
  case plus h => simp [integerValue, takeSign, h.short, signed]
  case minus h => simp [integerValue, takeSign, h.short, signed]

theorem isInteger_of_value (hx : isInteger x) (h : integerValue b x = .ok n) : IsInteger b x n := by
  obtain ⟨hne, hd⟩ := isInteger_eq x |>.mp hx
  simp only [integerValue] at h
  split at h
  case isFalse => contradiction
  case isTrue hb =>
    injection h with h
    rcases takeSign_cases x with ht | ⟨ds, rfl, ht⟩ | ⟨ds, rfl, ht⟩
    all_goals simp only [ht] at hne hd hb h
    · exact h ▸ .unsigned ⟨hne, hd, hb⟩
    · exact h ▸ .plus ⟨hne, hd, hb⟩
    · exact h ▸ .minus ⟨hne, hd, hb⟩

theorem takeSign_suffix (x : List Char) : (takeSign x).2 <:+ x := by
  rcases takeSign_cases x with ht | ⟨ds, rfl, ht⟩ | ⟨ds, rfl, ht⟩
  · exact ht ▸ List.suffix_rfl
  all_goals exact ht ▸ List.suffix_cons _ ds

theorem refused_of_value (hx : isInteger x) (h : integerValue b x = .error e) : Refused b x e := by
  simp only [integerValue] at h
  split at h
  case isTrue => contradiction
  case isFalse hb =>
    injection h with h
    exact h ▸ .tooLong _ (takeSign_suffix x).isInfix (isInteger_eq x |>.mp hx).2 (by simpa using hb)

theorem ne_slash_of_isInteger (h : isInteger x) : ∀ c ∈ x, c ≠ '/' := by
  obtain ⟨_, hd⟩ := isInteger_eq x |>.mp h
  intro c hc hs
  have hslash : isDigit '/' = false := by decide
  rcases takeSign_cases x with ht | ⟨ds, rfl, ht⟩ | ⟨ds, rfl, ht⟩
  all_goals
    simp only [ht] at hd
    have := hd c
    simp_all

theorem quotient?_eq_some_iff : quotient? t = some (x, y) ↔ t = x ++ '/' :: y ∧ isInteger x ∧ isInteger y := by
  have htake := List.takeWhile_append_dropWhile (p := (· != '/')) (l := t)
  constructor
  case mp =>
    intro h
    simp only [quotient?] at h
    split at h
    case h_2 => contradiction
    case h_1 denominator hdrop =>
      rw [Option.ite_none_right_eq_some] at h
      obtain ⟨hi, h⟩ := h
      cases h
      exact ⟨by rw [← hdrop, htake], hi⟩
  case mpr =>
    rintro ⟨ht, hx, hy⟩
    have hslash : ∀ c ∈ x, (c != '/') = true := by simpa using ne_slash_of_isInteger hx
    have hdrop : t.dropWhile (· != '/') = '/' :: y := by rw [ht, List.dropWhile_append_of_pos hslash]; rfl
    have htake : t.takeWhile (· != '/') = x := by rw [ht, List.takeWhile_append_of_pos hslash]; simp
    simp [quotient?, hdrop, htake, hx, hy]

-- An integer is read in one way only, so what it is followed by cannot make it a fraction.
theorem not_isInteger_fraction : ¬isInteger (x ++ '/' :: y) := by
  intro h
  exact ne_slash_of_isInteger h '/' (by simp) rfl

theorem exponentValue_eq (ht : t ≠ []) : exponentValue b term t =
    if isInteger (unwrap t) then (integerValue b (unwrap t)).map fun n => (n : Rat) else
    match quotient? (unwrap t) with
    | some (x, y) => do
      let n ← integerValue b x
      let d ← integerValue b y
      if d = 0 then throw (.syntaxAt term .zeroDenominator)
      return n / d
    | none => .error (.syntaxAt term (.badExponent (String.ofList t))) :=
  if_neg ht

theorem IsExponent.value (h : IsExponent b x r) : exponentValue b term x = .ok r := by
  obtain ⟨k, y, hx, hy⟩ := h.eq_wrap
  have hu : unwrap x = y := by rw [hx, unwrap_wrap hy.bare.isBalanced, hy.bare.unwrap]
  rw [exponentValue_eq h.ne_nil, hu]
  cases hy
  case integer hy =>
    rw [if_pos hy.isInteger, hy.value]
    rfl
  case fraction hn hd hne =>
    rw [if_neg not_isInteger_fraction, quotient?_eq_some_iff.mpr ⟨rfl, hn.isInteger, hd.isInteger⟩]
    simp only [hn.value, hd.value]
    exact if_neg hne

theorem isNumber_of_exponentValue (h : exponentValue b term t = .ok r) : IsNumber b (unwrap t) r := by
  by_cases ht : t = []
  case pos => simp [exponentValue, ht] at h
  case neg =>
    rw [exponentValue_eq ht] at h
    split at h
    case isTrue hi =>
      cases hv : integerValue b (unwrap t)
      case error => simp [hv, Except.map] at h
      case ok n =>
        rw [hv] at h
        injection h with h
        exact h ▸ .integer (isInteger_of_value hi hv)
    case isFalse =>
      split at h
      case h_2 => contradiction
      case h_1 x y hq =>
        obtain ⟨he, hx, hy⟩ := quotient?_eq_some_iff.mp hq
        cases hn : integerValue b x
        case error => simp [hn, bind, Except.bind] at h
        case ok n =>
          cases hd : integerValue b y
          case error => simp [hn, hd, bind, Except.bind] at h
          case ok d =>
            by_cases hz : d = 0
            case pos => simp [hn, hd, hz, bind, Except.bind, throw, throwThe, MonadExceptOf.throw] at h
            case neg =>
              simp [hn, hd, hz, bind, Except.bind, pure, Except.pure] at h
              exact h ▸ he ▸ .fraction (isInteger_of_value hx hn) (isInteger_of_value hy hd) hz

-- Outside of parentheses, a fraction is an exponent only if its slash was not taken for a division.
theorem isExponent_of_value (h : exponentValue b term t = .ok r)
    (hs : ∀ x y, t = x ++ '/' :: y → IsBare x → y.head?.any isAsciiDigit) : IsExponent b t r := by
  have hn := isNumber_of_exponentValue h
  obtain ⟨k, hk⟩ := exists_wrap_unwrap t
  cases k
  case succ k => exact hk ▸ .wrapped k hn
  case zero =>
    have hu : unwrap t = t := hk.symm
    rw [hu] at hn
    cases hn
    case integer hn => exact .integer hn
    case fraction hx hy hz => exact .fraction hx hy hz <| hs _ _ rfl hx.bare

theorem isInfix_unwrap (t : List Char) : unwrap t <:+: t := by
  have hw (k : Nat) (s : List Char) : s <:+: wrap k s := by
    induction k
    case zero => exact List.infix_rfl
    case succ k hi => exact hi.trans ⟨['('], [')'], rfl⟩
  obtain ⟨k, hk⟩ := exists_wrap_unwrap t
  have := hw k (unwrap t)
  rwa [← hk] at this

theorem refused_of_exponentValue (h : exponentValue b term t = .error e) : Refused b t e := by
  by_cases ht : t = []
  case pos =>
    simp only [exponentValue, if_pos ht] at h
    injection h with h
    exact h ▸ .malformed ..
  case neg =>
    apply Refused.mono (s := unwrap t)
    case hs => exact isInfix_unwrap t
    rw [exponentValue_eq ht] at h
    split at h
    case isTrue hi =>
      cases hv : integerValue b (unwrap t)
      case ok => simp [hv, Except.map] at h
      case error =>
        rw [hv] at h
        injection h with h
        exact h ▸ refused_of_value hi hv
    case isFalse =>
      split at h
      case h_2 =>
        injection h with h
        exact h ▸ .malformed ..
      case h_1 x y hq =>
        obtain ⟨he, hx, hy⟩ := quotient?_eq_some_iff.mp hq
        rw [he]
        cases hn : integerValue b x
        case error =>
          simp [hn, bind, Except.bind] at h
          exact h ▸ (refused_of_value hx hn).mono (List.prefix_append ..).isInfix
        case ok n =>
          cases hd : integerValue b y
          case error =>
            simp [hn, hd, bind, Except.bind] at h
            exact h ▸ (refused_of_value hy hd).mono ⟨x ++ ['/'], [], by simp⟩
          case ok d =>
            by_cases hz : d = 0
            case pos =>
              simp [hn, hd, hz, bind, Except.bind, throw, throwThe, MonadExceptOf.throw] at h
              exact h ▸ .malformed ..
            case neg => simp [hn, hd, hz, bind, Except.bind, pure, Except.pure] at h

end Metrology.Expression
