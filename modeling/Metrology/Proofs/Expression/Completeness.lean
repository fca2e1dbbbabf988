import Metrology.Proofs.Expression.Soundness
import Metrology.Proofs.Expression.Spelled

/-!
Every spelling of an expression is read, and as the expression that it spells. The text of a spelling is followed
through normalisation: superscripts are lowered, implicit exponents are marked, and the grammar reads the result.
-/

namespace Metrology.Expression

open Text

variable {b : DigitBound} {c : Char} {p q : Option Char} {r : Rat} {s t : List Char}

namespace Sign

theorem isSignPart (sign : Sign) : IsSignPart sign.chars := by
  cases sign
  case none => exact .inl rfl
  case plus => exact .inr ⟨'+', rfl, rfl⟩
  case minus => exact .inr ⟨'-', rfl, rfl⟩

theorem isInteger (sign : Sign) (n : Digits) (h : b.admits n.chars.length) :
    IsInteger b (sign.chars ++ n.chars) (sign.apply n.value) := by
  have hn : IsNumeral b n.chars := ⟨n.nonempty, fun c hc => isDigit_of_isAsciiDigit (n.ascii c hc), h⟩
  cases sign
  case none => exact .unsigned hn
  case plus => exact .plus hn
  case minus => exact .minus hn

theorem isSettled (sign : Sign) : ∀ c ∈ sign.chars, IsSettled c := by
  cases sign
  case none => exact List.forall_mem_nil _
  all_goals exact List.forall_mem_singleton.mpr (by decide)

end Sign

theorem Digits.isSettled (n : Digits) : ∀ c ∈ n.chars, IsSettled c :=
  fun c hc => isSettled_of_isAsciiDigit (n.ascii c hc)

namespace Number

theorem isSettled (x : Number) : ∀ c ∈ x.chars, IsSettled c := by
  cases x
  case integer sign n => exact List.forall_mem_append.mpr ⟨sign.isSettled, n.isSettled⟩
  case fraction sign m n _ =>
    have hm := List.forall_mem_append.mpr ⟨sign.isSettled, m.isSettled⟩
    exact isSettled_joined hm (by decide) n.isSettled

theorem isNumber (x : Number) (h : x.Fits b) : IsNumber b x.chars x.value := by
  cases x
  case integer sign n => exact .integer (sign.isInteger n h)
  case fraction sign m n hn => exact .fraction (sign.isInteger m h.1) (Sign.none.isInteger n h.2) (mod_cast hn)

theorem bare (x : Number) : IsBare x.chars := by
  have hx : x.Fits none := by cases x <;> simp [Fits, DigitBound.admits_none]
  exact (x.isNumber hx).bare

theorem isExponent (x : Number) (h : x.Fits b) (k : Nat) : IsExponent b (wrap k x.chars) x.value := by
  cases k
  case succ k => exact .wrapped k (x.isNumber h)
  case zero =>
    cases x
    case integer sign n => exact .integer (sign.isInteger n h)
    case fraction sign m n hn =>
      have ha : n.chars.head?.any isAsciiDigit := by
        rw [← List.append_nil n.chars]
        exact head?_digits n.nonempty n.ascii []
      exact .fraction (sign.isInteger m h.1) (Sign.none.isInteger n h.2) (mod_cast hn) ha

end Number

namespace Power

-- The text behind the caret, if there was one.
def exponent : Power → List Char
  | caret k x => wrap k x.chars
  | digits n => n.chars
  | superscripts sign n => sign.chars ++ n.chars

-- The spelling without superscripts.
def lowered : Power → List Char
  | digits n => n.chars
  | x => '^' :: x.exponent

-- The spelling with a caret.
def plain (x : Power) : List Char :=
  '^' :: x.exponent

theorem isSettled_exponent (x : Power) : ∀ c ∈ x.exponent, IsSettled c := by
  cases x
  case caret k x => exact isSettled_wrap x.isSettled k
  case digits n => exact n.isSettled
  case superscripts sign n => exact List.forall_mem_append.mpr ⟨sign.isSettled, n.isSettled⟩

theorem isSettled_lowered (x : Power) : ∀ c ∈ x.lowered, IsSettled c := by
  cases x
  case digits n => exact n.isSettled
  all_goals exact List.forall_mem_cons.mpr ⟨by decide, isSettled_exponent _⟩

theorem isBalanced_exponent (x : Power) : isBalanced 0 x.exponent := by
  cases x
  case caret k x => exact isBalanced_wrap x.bare.isBalanced
  case digits n => exact (Number.integer .none n).bare.isBalanced
  case superscripts sign n => exact (Number.integer sign n).bare.isBalanced

theorem isBalanced_lowered (x : Power) : isBalanced 0 x.lowered := by
  cases x
  case digits n => exact isBalanced_exponent (.digits n)
  case caret k x => exact isBalanced_exponent (.caret k x)
  case superscripts sign n => exact isBalanced_exponent (.superscripts sign n)

theorem isExponent (x : Power) (h : x.number.Fits b) : IsExponent b x.exponent x.number.value := by
  cases x
  case caret k x => exact x.isExponent h k
  case digits n => exact .integer (Sign.none.isInteger n h)
  case superscripts sign n => exact .integer (sign.isInteger n h)

end Power

theorem toSuperscript_spec (hc : c ∈ ['+', '-'] ∨ isAsciiDigit c) :
    plainOperator (toSuperscript c) = toSuperscript c ∧ plainSuperscript? (toSuperscript c) = some c := by
  cases hc
  case inl hc =>
    simp only [List.mem_cons, List.not_mem_nil, or_false] at hc
    cases hc
    case inl hc => exact hc ▸ ⟨rfl, rfl⟩
    case inr hc => exact hc ▸ ⟨rfl, rfl⟩
  case inr hc =>
    simp only [isAsciiDigit, Bool.and_eq_true, decide_eq_true_eq] at hc
    have hall : ∀ n : Nat, n < 0x3a → 0x30 ≤ n →
      plainOperator (toSuperscript (Char.ofNat n)) = toSuperscript (Char.ofNat n) ∧
        plainSuperscript? (toSuperscript (Char.ofNat n)) = some (Char.ofNat n) := by decide
    have h := hall c.toNat (by omega) hc.1
    rwa [Char.ofNat_toNat] at h

theorem Power.plainSymbols (x : Power) (ht : EndsRun t) :
    plainSymbols (x.chars ++ t) = x.lowered ++ plainSymbols t := by
  cases x
  case caret k x => exact plainSymbols_append (isSettled_lowered (.caret k x)) t
  case digits n => exact plainSymbols_append n.isSettled t
  case superscripts sign n =>
    have hs : ∀ c ∈ sign.chars ++ n.chars, plainOperator (toSuperscript c) = toSuperscript c ∧
        plainSuperscript? (toSuperscript c) = some c := by
      intro c hc
      apply toSuperscript_spec
      cases List.mem_append.mp hc
      case inl hc => cases sign <;> simp_all [Sign.chars]
      case inr hc => exact .inr <| n.ascii c hc
    exact plainSymbols_run hs (by simp [n.nonempty]) ht

-- Superscripts are only left in exponents, so the rest of the text is as it was.
theorem Spelled.plainSymbols {k : Part} (x : Spelled k) (ht : k = .base ∨ EndsRun t) :
    plainSymbols (x.chars ++ t) = x.print Power.lowered ++ plainSymbols t := by
  induction x generalizing t
  case one => exact plainSymbols_cons (by decide) t
  case name n => exact plainSymbols_append (fun c hc => (n.allowed c hc).settled) t
  case bare hi => exact hi (.inl rfl)
  case single hi => exact hi (.inr (ht.resolve_left (by simp)))
  case group y hi =>
    have hy := hi (t := ')' :: t) (.inr rfl)
    rw [plainSymbols_cons (by decide)] at hy
    simpa [chars, print, Expression.group, plainSymbols_cons (by decide : IsSettled '(')] using hy
  case power y r hi =>
    have hy := hi (t := r.chars ++ t) (.inl rfl)
    rw [r.plainSymbols (ht.resolve_left (by simp))] at hy
    simpa [chars, print] using hy
  case times y z hi hi' =>
    have hy := hi (t := '*' :: (z.chars ++ t)) (.inr rfl)
    rw [plainSymbols_cons (by decide), hi' (.inr (ht.resolve_left (by simp)))] at hy
    simpa [chars, print] using hy
  case per y z hi hi' =>
    have hy := hi (t := '/' :: (z.chars ++ t)) (.inr rfl)
    rw [plainSymbols_cons (by decide), hi' (.inr (ht.resolve_left (by simp)))] at hy
    simpa [chars, print] using hy

-- What may still follow a product when it is marked: nothing, or a division by one. The latter is the one case in
-- which marking takes what follows together with an exponent.
def IsTail (t : List Char) : Prop :=
  t = [] ∨ t = ['/', '1']

namespace IsTail

theorem head (h : IsTail t) : t.head?.any isAsciiDigit = false := by
  rcases h with rfl | rfl <;> rfl

theorem markFrom_eq (h : IsTail t) (p : Option Char) : markFrom p t = t := by
  cases h
  case inl h => rw [h, markFrom_nil]
  case inr h =>
    have h1 : markFrom (some '/') (['1'] ++ []) = ['1'] ++ markFrom (some '1') [] :=
      markFrom_digits (by simp) isAsciiDigit_one rfl
    simp only [markFrom_nil] at h1
    rw [h, markFrom_other (by decide) rfl]
    exact congrArg _ h1

theorem markFrom_exponent (h : IsTail t) (hs : IsSignPart s) (n : Digits) :
    markFrom p ('^' :: (s ++ n.chars ++ t)) = '^' :: (s ++ n.chars ++ t) := by
  cases h
  case inl h =>
    have hx : Taken (s ++ n.chars) [] := .number hs n.ascii rfl (fun _ => rfl) fun _ h => absurd h n.nonempty
    rw [h, markFrom_caret hx, markFrom_nil]
  case inr h =>
    have hx : Taken (s ++ n.chars ++ ['/', '1']) [] :=
      .fraction hs n.nonempty n.ascii (by simp) isAsciiDigit_one rfl
    have := markFrom_caret (p := p) hx
    rwa [markFrom_nil, List.append_nil, ← h] at this

end IsTail

theorem Power.markFrom (x : Power) (hp : carriesExponent p) (ht : IsTail t) :
    markFrom p (x.lowered ++ t) = x.plain ++ t := by
  cases x
  case digits n => rw [lowered, markFrom_digits n.nonempty n.ascii ht.head, if_pos hp, ht.markFrom_eq]; rfl
  case superscripts sign n => exact ht.markFrom_exponent sign.isSignPart n
  case caret k x =>
    cases k
    case succ k =>
      have hx : Taken (wrap (k + 1) x.chars) t := .group (isBalanced_wrap x.bare.isBalanced) t
      have := markFrom_caret (p := p) hx
      rwa [ht.markFrom_eq] at this
    case zero =>
      cases x
      case integer sign n => exact ht.markFrom_exponent sign.isSignPart n
      case fraction sign m n hn =>
        have hx : Taken (sign.chars ++ m.chars ++ '/' :: n.chars) t :=
          .fraction sign.isSignPart m.nonempty m.ascii n.nonempty n.ascii ht.head
        have := markFrom_caret (p := p) hx
        rwa [ht.markFrom_eq] at this

-- What marking makes of a spelling. A base ends in a character that may carry an exponent.
def Marks : Part → List Char → List Char → Prop
  | .base, s, t => ∃ c, carriesExponent (some c) ∧ ∀ u, markFrom none (s ++ u) = t ++ markFrom (some c) u
  | _, s, t => ∀ u, IsTail u → markFrom none (s ++ u) = t ++ u

theorem UnitName.marks (n : UnitName) : Marks .base n.chars n.chars := by
  have hplain : ∀ c ∈ n.chars, c ≠ '^' ∧ isAsciiDigit c = false := by
    intro c hc
    have hn := n.allowed c hc
    exact ⟨fun h => absurd (h ▸ hn.unreserved) (by decide), hn.digit⟩
  have hl := List.getLast?_eq_some_getLast n.nonempty
  refine ⟨_, ?_, fun u => hl ▸ markFrom_unmarked hplain n.nonempty u⟩
  have hc := n.allowed _ (List.getLast_mem n.nonempty)
  have := hc.unreserved
  have := hc.sign
  simp_all [carriesExponent, isReserved, isSign]

theorem Spelled.isBalanced_lowered {k : Part} (x : Spelled k) : isBalanced 0 (x.print Power.lowered) :=
  isBalanced_print Power.isBalanced_lowered x

theorem Spelled.marks {k : Part} (x : Spelled k) : Marks k (x.print Power.lowered) (x.print Power.plain) := by
  induction x
  case name n => exact n.marks
  case one =>
    intro u hu
    have := markFrom_digits (p := none) (by simp) isAsciiDigit_one hu.head
    rwa [hu.markFrom_eq] at this
  case group y hi =>
    refine ⟨')', rfl, fun u => ?_⟩
    have hy : markFrom none (y.print Power.lowered) = y.print Power.plain := by simpa using hi [] (.inl rfl)
    rw [print, markFrom_group_append y.isBalanced_lowered, hy]
    rfl
  case bare y hi =>
    intro u hu
    obtain ⟨c, _, hy⟩ := hi
    rw [print, hy, hu.markFrom_eq]
    rfl
  case single y hi => exact hi
  case power y r hi =>
    intro u hu
    obtain ⟨c, hc, hy⟩ := hi
    rw [print, List.append_assoc, hy, r.markFrom hc hu, print, List.append_assoc]
  case times y z hi hi' =>
    intro u hu
    have hy : markFrom none (y.print Power.lowered) = y.print Power.plain := by simpa using hi [] (.inl rfl)
    have hp : Parted (y.print Power.lowered) ('*' :: (z.print Power.lowered ++ u)) := .of_char (.inl rfl) _ _
    rw [print, List.append_assoc, List.cons_append, markFrom_operator y.isBalanced_lowered hp (.inl rfl), hy, hi' u hu]
    simp [print]
  case per y z hi hi' =>
    intro u hu
    have hy : markFrom none (y.print Power.lowered) = y.print Power.plain := by simpa using hi [] (.inl rfl)
    cases z.eq_one_or_head_print Power.lowered u
    case inr hz =>
      have hbar : isFractionBar ('/' :: (z.print Power.lowered ++ u)) = false := hz
      have hp : Parted (y.print Power.lowered) ('/' :: (z.print Power.lowered ++ u)) :=
        ⟨rfl, fun h => by simp [hbar] at h⟩
      rw [print, List.append_assoc, List.cons_append, markFrom_operator y.isBalanced_lowered hp (.inr rfl), hy,
        hi' u hu]
      simp [print]
    case inl hz =>
      have hy1 : markFrom none (y.print Power.lowered ++ ['/', '1']) = y.print Power.plain ++ ['/', '1'] :=
        hi _ (.inr rfl)
      simp only [hz, print]
      cases hu
      case inl hu => simpa [hu] using hy1
      case inr hu' =>
        -- the first division by one has ended the exponent in front of it
        have hb : isBalanced 0 (y.print Power.lowered ++ ['/', '1']) := isBalanced_append_zero y.isBalanced_lowered rfl
        have hp : Parted (y.print Power.lowered ++ ['/', '1']) u := by
          refine ⟨hu' ▸ rfl, fun h => ?_⟩
          have := (h.1.of_append (outsidePower_of_operator rfl)).caret_mem
          simp at this
        have := markFrom_append hb hp none none
        rwa [hy1, IsTail.markFrom_eq (.inr hu')] at this

-- A division by one may as well be part of the exponent in front of it.
theorem IsExponent.per_one {x : List Char} (h : IsExponent b x r) (hp : EndsInPower (s ++ '^' :: x)) :
    IsExponent b (x ++ ['/', '1']) r := by
  cases h
  case integer n h =>
    obtain ⟨_, ds, _, _, hds⟩ := h.parts
    have hl := List.length_pos_iff.mpr hds.nonempty
    have hb : b.admits 1 := DigitBound.admits_of_le hl hds.short
    have h1 : IsInteger b ['1'] 1 := .unsigned ⟨List.cons_ne_nil _ _, List.forall_mem_singleton.mpr rfl, hb⟩
    have hf := IsExponent.fraction h h1 (by decide) rfl
    have hone (r : Rat) : r / (1 : Int) = r := by grind
    rwa [hone] at hf
  case fraction hx hy _ _ =>
    rw [← List.cons_append, ← List.append_assoc] at hp
    have hc := (hp.of_append (outsidePower_of_operator rfl)).caret_mem
    exact absurd (hy.unreserved _ hc) (by decide)
  case wrapped k h =>
    have hd : isDigit ')' := by
      apply EndsInPower.isDigit_of_concat (s := s ++ '^' :: '(' :: wrap k _)
      simpa [wrap, group] using hp
    exact absurd hd (by decide)

theorem UnitName.isName (n : UnitName) : IsName n.chars where
  nonempty := n.nonempty
  unreserved c hc := (n.allowed c hc).unreserved
  head := by
    obtain ⟨c, cs, hn⟩ := List.exists_cons_of_ne_nil n.nonempty
    simpa [hn] using (n.allowed c (hn ▸ List.mem_cons_self)).digit

theorem Reads.not_endsInPower {cs : List Component} (h : Reads b .base t cs) : ¬EndsInPower t := by
  intro hp
  cases h
  case one => exact absurd hp.caret_mem (by decide)
  case name h => exact absurd (h.unreserved _ hp.caret_mem) (by decide)
  case group => exact absurd hp.isDigit_of_concat (by decide)

-- The grammar gives the marked text of a spelling the meaning of the spelling. The second part is about a division by
-- one behind it, which is either a division or part of an exponent.
theorem Spelled.reads {k : Part} (x : Spelled k) (h : x.Fits b) :
    Reads b k (x.print Power.plain) (x.occurrences 1) ∧
      (k ≠ .base → EndsInPower (x.print Power.plain) →
        Reads b k (x.print Power.plain ++ ['/', '1']) (x.occurrences 1)) := by
  induction x
  case one => exact ⟨.bare .one, fun _ hp => absurd hp.caret_mem (by decide)⟩
  case name n => exact ⟨.name n.isName, fun hk => absurd rfl hk⟩
  case group y hi => exact ⟨.group (hi h).1, fun hk => absurd rfl hk⟩
  case bare y hi =>
    have hy := (hi h).1
    exact ⟨.bare hy, fun _ hp => absurd hp hy.not_endsInPower⟩
  case single y hi =>
    obtain ⟨hy, hy'⟩ := hi h
    exact ⟨.single hy, fun _ hp => .single (hy' (by simp) hp)⟩
  case power y r hi =>
    have hy := (hi h.1).1
    have hr := r.isExponent h.2
    have he := raise_occurrences r.number.value 1 y
    refine ⟨?_, fun _ hp => ?_⟩
    · exact he ▸ .power hy hr
    · have := Reads.power hy (hr.per_one hp)
      simpa [print, Power.plain, occurrences, he] using this
  case times y z hi hi' =>
    have hy := (hi h.1).1
    obtain ⟨hz, hz'⟩ := hi' h.2
    refine ⟨.times hy hz, fun _ hp => ?_⟩
    have hpz := hp.of_append (outsidePower_of_operator rfl)
    have := Reads.times hy (hz' (by simp) hpz)
    simpa [print, occurrences] using this
  case per y z hi hi' =>
    obtain ⟨hy, hy'⟩ := hi h.1
    obtain ⟨hz, hz'⟩ := hi' h.2
    have he := raise_occurrences (-1) 1 z
    rw [Rat.one_mul] at he
    cases z.eq_one_or_head_print Power.plain ['/', '1']
    case inr hd =>
      have hd' : (z.print Power.plain).head?.any isAsciiDigit = false := by
        cases hzp : z.print Power.plain
        case nil => rfl
        case cons => simpa [hzp] using hd
      have ho : (y.per z).occurrences 1 = y.occurrences 1 ++ raise (-1) (z.occurrences 1) := by rw [he]; rfl
      refine ⟨ho ▸ .per hy hz fun h => by simp [hd'] at h, fun _ hp => ?_⟩
      have hpz := hp.of_append (outsidePower_of_operator rfl)
      have := Reads.per hy (hz' (by simp) hpz) fun h => Bool.eq_false_iff.mp hd h.2
      simpa [print, ho] using this
    case inl h1 =>
      subst h1
      have ho : (y.per one).occurrences 1 = y.occurrences 1 := List.append_nil _
      refine ⟨?_, fun _ hp => ?_⟩
      · rw [ho]
        by_cases hp : EndsInPower (y.print Power.plain)
        case pos => exact hy' (by simp) hp
        case neg => exact List.append_nil (y.occurrences 1) ▸ .per hy (.bare .one) fun h => hp h.1
      · have := (hp.of_append (outsidePower_of_operator rfl)).caret_mem
        exact absurd this (by decide)

theorem Spelled.marked_chars (x : Spelled .product) : marked x.chars = x.print Power.plain := by
  have hs := x.plainSymbols (t := []) (.inr rfl)
  have hb := withoutBlanks_settled (isSettled_print Power.isSettled_lowered x)
  have hm := x.marks [] (.inl rfl)
  have hnil : Expression.plainSymbols [] = [] := rfl
  simp only [List.append_nil, hnil] at hs hm
  rw [marked, hs, hb, markImplicit, hm]

-- Every spelling of an expression is read. In what is read, the exponent of a name is the sum of its exponents over
-- all occurrences, and names for which that is zero are gone.
theorem parseWithin_spelled (b : DigitBound) (x : Spelled .product) (h : x.Fits b) :
    ∃ e, parseWithin b (String.ofList x.chars) = .ok e ∧ e.IsCanonical ∧
      ∀ n r, (n, r) ∈ e.components ↔ r = x.exponentOf n ∧ r ≠ 0 := by
  have hr : Reads b .product (marked x.chars) (x.occurrences 1) := x.marked_chars ▸ (x.reads h).1
  exact ⟨_, parseWithin_of_reads hr, isCanonical_ofComponents _, fun n r => mem_ofComponents_iff⟩

-- The metre, for examples.
def UnitName.metre : UnitName :=
  ⟨['m'], by decide, List.forall_mem_singleton.mpr (by decide)⟩

def Digits.two : Digits :=
  ⟨['2'], by decide, List.forall_mem_singleton.mpr rfl⟩

-- The square root of `m/m²*(m2)^-2`, with spellings of each kind.
def Spelled.rootSpelling : Spelled .product :=
  let square : Power := .superscripts .none .two
  let inner : Spelled .product := .times (.per (.single (.bare (.name .metre))) (.power (.name .metre) square))
    (.power (.group (.single (.power (.name .metre) (.digits .two)))) (.caret 0 (.integer .minus .two)))
  .single (.power (.group inner) (.caret 1 (.fraction .none ⟨['1'], by decide, isAsciiDigit_one⟩ .two (by decide))))

theorem parse_rootSpelling :
    String.ofList Spelled.rootSpelling.chars = "(m/m²*(m2)^-2)^(1/2)" ∧ Spelled.rootSpelling.Fits .standard ∧
      ∃ e, parse (String.ofList Spelled.rootSpelling.chars) = .ok e ∧ e.IsCanonical ∧ ("m", -5 / 2) ∈ e.components := by
  have hf : Spelled.rootSpelling.Fits .standard := by
    simp +decide [Spelled.rootSpelling, Spelled.Fits, Power.number, Number.Fits]
  obtain ⟨e, hp, hc, hm⟩ := parseWithin_spelled .standard Spelled.rootSpelling hf
  exact ⟨by decide, hf, e, hp, hc, hm _ _ |>.mpr ⟨by decide +kernel, by decide +kernel⟩⟩

def Digits.ones (n : Nat) (hn : 0 < n) : Digits where
  chars := List.replicate n '1'
  nonempty := List.ne_nil_of_length_pos (by rwa [List.length_replicate])
  ascii c hc := List.eq_of_mem_replicate hc ▸ by decide

-- One digit more than may be read.
def Spelled.longSpelling : Spelled .product :=
  .single (.power (.name .metre) (.caret 0 (.integer .none (.ones 4301 (by decide)))))

theorem parse_longSpelling :
    parse (String.ofList Spelled.longSpelling.chars) = .error (.numeralTooLong 4301) := by
  have hl : (Digits.ones 4301 (by decide)).chars.length = 4301 := List.length_replicate
  have := parseWithin_tooLong (Digits.ones 4301 (by decide)).ascii (b := .standard) (by rw [hl]; decide) (.inl rfl)
  rwa [hl, List.append_nil] at this

end Metrology.Expression
