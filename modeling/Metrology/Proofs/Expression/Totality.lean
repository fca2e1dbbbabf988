import Metrology.Proofs.Expression.Soundness

/-!
Reading with nothing taken for granted. The careful reader stops where the other one relies on a guard somewhere else:
at a part or a first character that is not there, at an integer without digits, at a division by zero, and at groups
that are nested too deep. It never does: as long as integers may have any length, every text is read or is refused for its
syntax.
-/

namespace Metrology.Expression

open Text

-- What could go wrong in the reader, whatever the text.
inductive Slip
  | nothingThere
  | noInteger
  | divisionByZero
  | tooDeep

inductive Stop
  | refused (e : Error)
  | slipped (s : Slip)

namespace Careful

def refuse {α : Type} (text : List Char) (fault : SyntaxFault) : Except Stop α :=
  .error (.refused (.syntaxAt text fault))

def slip {α : Type} (s : Slip) : Except Stop α :=
  .error (.slipped s)

def first (text : List Char) : Except Stop Char :=
  match text with
  | [] => slip .nothingThere
  | c :: _ => .ok c

def integer (text : List Char) : Except Stop Int :=
  let (negative, digits) := takeSign text
  if isInteger text then .ok (signed negative (naturalValue digits)) else slip .noInteger

def divide (n d : Int) : Except Stop Rat :=
  if d = 0 then slip .divisionByZero else .ok (n / d)

def exponent (term text : List Char) : Except Stop Rat :=
  if text = [] then refuse term .missingExponent else
  let inner := unwrap text
  if isInteger inner then (integer inner).map fun n => (n : Rat) else
  match quotient? inner with
  | some (numerator, denominator) => do
    let n ← integer numerator
    let d ← integer denominator
    if d = 0 then refuse term .zeroDenominator else divide n d
  | none => refuse term (.badExponent (String.ofList text))

-- A term in front of its exponent, and the exponent.
def split (term : List Char) : Except Stop (List Char × Rat) :=
  match cut (· == '^') false term with
  | [] => slip .nothingThere
  | [base] => .ok (base.text, 1)
  | [base, power] =>
    if base.text = [] then refuse term .missingUnit else (exponent term power.text).map (base.text, ·)
  | _ => refuse term .repeatedExponent

def atom (term base : List Char) (r : Rat) : Except Stop (List Component) :=
  if base.any (fun c => c == '(' || c == ')') then refuse term .strayParenthesis else do
    let c ← first base
    if isAsciiDigit c then
      if base = ['1'] then .ok [] else refuse term .numericFactor
    else .ok [(String.ofList base, r)]

section

-- How groups are read.
variable (group : List Char → Except Stop (List Component))

def base (term text : List Char) (r : Rat) : Except Stop (List Component) :=
  if unwrap text = text then atom term text r
  else if unwrap text = [] then refuse term .emptyOperand
  else (group (unwrap text)).map (raise r)

def piece (whole : List Char) (p : Piece) : Except Stop (List Component) :=
  if p.text = [] then refuse whole .emptyOperand else do
    let (text, r) ← split p.text
    base group p.text text (signOf p.delimiter * r)

end

-- The powers of unit names in a product whose groups are nested less deep than a limit.
def terms : Nat → List Char → Except Stop (List Component)
  | 0, _ => slip .tooDeep
  | limit + 1, text =>
    if unwrap text = [] then .ok []
    else ((cut isProductOperator true (unwrap text)).mapM (piece (terms limit) (unwrap text))).map List.flatten

def parse (limit : Nat) (text : String) : Except Stop Expression := do
  let t ← (plain text.toList).mapError .refused
  return ofComponents (← terms limit t)

end Careful

variable {b : DigitBound} {limit : Nat} {r : Rat} {s t base : List Char}

-- Both readers end in the same way, and the careful one does not slip.
def Concurs {α : Type} (x : Except Stop α) (y : Except Error α) : Prop :=
  x = y.mapError .refused

namespace Concurs

variable {α β : Type} {x : Except Stop α} {y : Except Error α}

theorem ok (a : α) : Concurs (.ok a) (.ok a) :=
  rfl

theorem refuse (text : List Char) (fault : SyntaxFault) :
    Concurs (Careful.refuse text fault : Except Stop α) (.error (.syntaxAt text fault)) :=
  rfl

theorem map (h : Concurs x y) (f : α → β) : Concurs (x.map f) (y.map f) := by
  rw [h]
  cases y <;> exact rfl

theorem bind {f : α → Except Stop β} {g : α → Except Error β} (h : Concurs x y)
    (hf : ∀ a, y = .ok a → Concurs (f a) (g a)) : Concurs (x >>= f) (y >>= g) := by
  rw [h]
  cases y
  case error => exact rfl
  case ok a => exact hf a rfl

theorem mapM {l : List α} {f : α → Except Stop β} {g : α → Except Error β} (h : ∀ a ∈ l, Concurs (f a) (g a)) :
    Concurs (l.mapM f) (l.mapM g) := by
  induction l
  case nil => exact ok []
  case cons a l hi =>
    obtain ⟨ha, hl⟩ := List.forall_mem_cons.mp h
    rw [List.mapM_cons, List.mapM_cons]
    exact ha.bind fun _ _ => (hi hl).bind fun _ _ => ok _

end Concurs

theorem concurs_integer (h : isInteger t) : Concurs (Careful.integer t) (integerValue none t) := by
  simp only [Careful.integer, if_pos h]
  exact .ok _

-- The division comes after the test for zero.
theorem concurs_exponent (term t : List Char) : Concurs (Careful.exponent term t) (exponentValue none term t) := by
  rw [Careful.exponent, exponentValue]
  split
  case isTrue => exact .refuse ..
  case isFalse =>
    simp only
    split
    case isTrue h => exact ((concurs_integer h).bind fun n _ => .ok (n : Rat)).map _
    case isFalse =>
      cases hq : quotient? (unwrap t)
      case none => exact .refuse ..
      case some xy =>
        obtain ⟨-, hx, hy⟩ := quotient?_eq_some_iff.mp hq
        refine (concurs_integer hx).bind fun n _ => (concurs_integer hy).bind fun d _ => ?_
        split
        case isTrue => exact .refuse ..
        case isFalse hd =>
          rw [Careful.divide, if_neg hd]
          exact .ok _

-- A text has at least one part.
theorem concurs_split (t : List Char) : Concurs (Careful.split t) (splitTerm none t) := by
  rw [Careful.split, splitTerm]
  have hne : cut (· == '^') false t ≠ [] := cutFrom_ne_nil
  generalize cut (· == '^') false t = parts at hne ⊢
  rcases parts with - | ⟨base, - | ⟨power, - | -⟩⟩
  · contradiction
  · exact .ok _
  · simp only
    split
    case isTrue => exact .refuse ..
    case isFalse => exact (concurs_exponent t power.text).map _
  · exact .refuse ..

-- A base that is not empty has a first character.
theorem concurs_atom (h : base ≠ []) (term : List Char) (r : Rat) :
    Concurs (Careful.atom term base r) (atomTerms term base r) := by
  obtain ⟨c, rest, rfl⟩ := List.exists_cons_of_ne_nil h
  rw [Careful.atom, atomTerms]
  split
  case isTrue => exact .refuse ..
  case isFalse =>
    change Concurs (if isAsciiDigit c then _ else _) (if isAsciiDigit c then _ else _)
    split
    case isFalse => exact .ok _
    case isTrue =>
      split
      case isTrue => exact .ok _
      case isFalse => exact .refuse ..

-- A term is its own base, or the base stands in front of an exponent and was seen not to be empty.
theorem base_of_splitTerm (ht : t ≠ []) (h : splitTerm b t = .ok (base, r)) : base ≠ [] ∧ base <+: t := by
  rcases splitTerm_cases b t with hp | ⟨s, x, rfl, hn, hs, hx, hne⟩ | ⟨fault, hf⟩
  · rw [splitTerm_plain hp] at h
    cases h
    exact ⟨ht, List.prefix_rfl⟩
  · rw [splitTerm_power hn hs hx hne] at h
    cases hv : exponentValue b (s ++ '^' :: x) x
    case error => simp [hv, Except.map] at h
    case ok =>
      rw [hv] at h
      cases h
      exact ⟨hne, List.prefix_append ..⟩
  · rw [hf] at h
    cases h

-- A text with other parentheses around it has at least one more.
theorem count_unwrap_lt (h : unwrap t ≠ t) : (unwrap t).count '(' < t.count '(' := by
  obtain ⟨u, -, ht, hu⟩ := (unwrap_cases t).resolve_left h
  have hle : (unwrap u).count '(' ≤ u.count '(' := (isInfix_unwrap u).sublist.count_le _
  have hgroup : (group u).count '(' = u.count '(' + 1 := by simp [group]
  rw [hu, ht, hgroup]
  exact Nat.lt_succ_of_le hle

section

variable {group : List Char → Except Stop (List Component)}

theorem concurs_base (hg : unwrap t ≠ t → Concurs (group (unwrap t)) (terms none (unwrap t))) (hne : t ≠ [])
    (term : List Char) (r : Rat) : Concurs (Careful.base group term t r) (baseTerms none term t r) := by
  rw [Careful.base, baseTerms]
  split
  case isTrue => exact concurs_atom hne term r
  case isFalse hu =>
    split
    case isTrue => exact .refuse ..
    case isFalse => exact (hg hu).map _

-- The groups in a piece have fewer parentheses than the piece.
theorem concurs_piece {p : Piece} (hg : ∀ u, u.count '(' < p.text.count '(' → Concurs (group u) (terms none u))
    (whole : List Char) : Concurs (Careful.piece group whole p) (pieceTerms none whole p) := by
  rw [Careful.piece, pieceTerms]
  split
  case isTrue => exact .refuse ..
  case isFalse hne =>
    refine (concurs_split p.text).bind ?_
    rintro ⟨text, r⟩ hs
    obtain ⟨htext, hprefix⟩ := base_of_splitTerm hne hs
    have hle : text.count '(' ≤ p.text.count '(' := hprefix.sublist.count_le _
    exact concurs_base (fun hu => hg _ (Nat.lt_of_lt_of_le (count_unwrap_lt hu) hle)) htext p.text _

end

-- One parenthesis more is one group deeper at most.
theorem concurs_terms (h : t.count '(' < limit) : Concurs (Careful.terms limit t) (terms none t) := by
  induction limit generalizing t
  case zero => contradiction
  case succ limit hi =>
    rw [Careful.terms, terms_eq]
    split
    case isTrue => exact .ok _
    case isFalse =>
      refine (Concurs.mapM ?_).map _
      intro p hp
      apply concurs_piece
      intro u hu
      have hle : p.text.count '(' ≤ t.count '(' :=
        ((isInfix_of_mem_cut hp).trans (isInfix_unwrap t)).sublist.count_le _
      exact hi (by omega)

theorem plainOperator_eq_open_iff (c : Char) : plainOperator c = '(' ↔ c = '(' := by
  fun_cases plainOperator c
  all_goals simp_all

theorem count_lowerFrom (inRun : Bool) (t : List Char) : (lowerFrom inRun t).count '(' = t.count '(' := by
  induction t generalizing inRun
  case nil => rfl
  case cons c t hi =>
    rw [lowerFrom]
    split
    case h_2 => rw [List.count_cons, List.count_cons, hi]
    case h_1 x hx =>
      have hc : c ≠ '(' := by
        rintro rfl
        contradiction
      have hx : x ≠ '(' := by
        rintro rfl
        exact absurd (plainSuperscript?_cases hx) (by decide)
      split <;> simp [hc, hx, hi]

theorem count_markFrom (p : Option Char) (t : List Char) : (markFrom p t).count '(' = t.count '(' := by
  induction scanned t generalizing p
  case nil => rw [markFrom_nil]
  case caret x t hx _ hi => simp [markFrom_caret hx, hi]
  case digits ds t hn hd hh _ hi =>
    rw [markFrom_digits hn hd hh]
    split <;> simp [hi]
  case other c t hc hd _ hi => rw [markFrom_other hc hd, List.count_cons, List.count_cons, hi]

theorem count_plainSymbols (t : List Char) : (plainSymbols t).count '(' = t.count '(' := by
  rw [plainSymbols, count_lowerFrom]
  induction t
  case nil => rfl
  case cons c t hi =>
    have hc : (plainOperator c == '(') = (c == '(') := by
      rw [Bool.eq_iff_iff, beq_iff_eq, beq_iff_eq, plainOperator_eq_open_iff]
    rw [List.map_cons, List.count_cons, List.count_cons, hi, hc]

-- The plain spelling has no more parentheses than the text.
theorem count_plain (h : plain s = .ok t) : t.count '(' ≤ s.count '(' := by
  obtain ⟨-, -, ht⟩ := plain_eq_ok_iff.mp h
  calc t.count '('
    _ ≤ (marked s).count '(' := ht ▸ (isInfix_unwrap _).sublist.count_le _
    _ = (withoutBlanks (plainSymbols s)).count '(' := count_markFrom none _
    _ ≤ (plainSymbols s).count '(' := List.filter_sublist.count_le _
    _ = s.count '(' := count_plainSymbols s

theorem concurs_parse {text : String} (h : text.toList.count '(' < limit) :
    Concurs (Careful.parse limit text) (parseWithin none text) := by
  rw [Careful.parse, parseWithin]
  have hplain : Concurs ((plain text.toList).mapError .refused) (plain text.toList) := rfl
  refine hplain.bind fun t ht => ?_
  exact (concurs_terms (Nat.lt_of_le_of_lt (count_plain ht) h)).bind fun cs _ => .ok _

-- Without a bound on the digits, all that is wrong with a text is its syntax.
theorem syntax_of_parseWithin {text : String} {e : Error} (h : parseWithin none text = .error e) :
    ∃ part fault, e = .syntaxAt part fault := by
  have hrefused := refused_of_parseWithin h
  cases hrefused
  case malformed part fault => exact ⟨part, fault, rfl⟩
  case tooLong hb => cases hb

-- The careful reader goes one group deeper than there are parentheses to open one, and never slips.
theorem careful_parse_spec (text : String) (more : Nat) :
    match Careful.parse (text.toList.count '(' + 1 + more) text with
    | .ok e => parseWithin none text = .ok e
    | .error (.refused e) => parseWithin none text = .error e ∧ ∃ part fault, e = .syntaxAt part fault
    | .error (.slipped _) => False := by
  have h : Concurs (Careful.parse (text.toList.count '(' + 1 + more) text) (parseWithin none text) :=
    concurs_parse (by omega)
  rw [h]
  cases hp : parseWithin none text
  case ok e => exact rfl
  case error e => exact ⟨rfl, syntax_of_parseWithin hp⟩

end Metrology.Expression
