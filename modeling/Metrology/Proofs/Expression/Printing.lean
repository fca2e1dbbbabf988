import Mathlib.Data.Rat.Defs
import Metrology.Proofs.Decimal.Digits
import Metrology.Proofs.Expression.Canonical
import Metrology.Proofs.Expression.Soundness

/-!
Printed expressions, read back. Printing puts all negative powers behind one slash and joins them by products, but a
slash acts on the next term only, so what is read is what was printed if there is at most one of them.
-/

namespace Metrology.Expression

open Text

variable {b : DigitBound} {c : Char} {n : String} {r : Rat} {s t x : List Char} {cs cs' : List Component}

-- A name that normalisation leaves as it is.
structure IsPrintable (n : List Char) : Prop where
  name : IsName n
  settled : ∀ c ∈ n, IsSettled c
  marked : markFrom none n = n

section Names

-- If the whole was marked, so were its parts.
theorem marked_parts (hb : isBalanced 0 s) (h : Parted s t) (hm : markFrom none (s ++ t) = s ++ t) :
    markFrom none s = s ∧ markFrom none t = t := by
  rw [markFrom_append hb h none none] at hm
  have hl := congrArg List.length hm
  have hs := length_le_markFrom none s
  have ht := length_le_markFrom none t
  simp only [List.length_append] at hl
  exact List.append_inj hm (by omega)

theorem markFrom_group (h : isBalanced 0 t) : markFrom none (group t) = group (markFrom none t) := by
  have := markFrom_group_append h []
  rwa [List.append_nil, markFrom_nil, List.append_nil] at this

theorem group_injective (h : group s = group t) : s = t := by
  simpa [group] using h

theorem marked_of_wrap {k : Nat} (h : isBalanced 0 t) (hm : markFrom none (wrap k t) = wrap k t) :
    markFrom none t = t := by
  induction k
  case zero => exact hm
  case succ k hi =>
    rw [wrap, markFrom_group (isBalanced_wrap h)] at hm
    exact hi (group_injective hm)

-- The names in a reading of marked text are printable.
theorem Reads.printable {p : Part} (h : Reads b p t cs) (hs : ∀ c ∈ t, IsSettled c) (hm : markFrom none t = t) :
    ∀ c ∈ cs, IsPrintable c.1.toList := by
  have hraise {r : Rat} {cs : List Component} (h : ∀ c ∈ cs, IsPrintable c.1.toList) :
      ∀ c ∈ raise r cs, IsPrintable c.1.toList := by
    intro c hc
    obtain ⟨d, hd, he⟩ := List.mem_map.mp hc
    exact he ▸ h d hd
  induction h
  case one => simp
  case name t h =>
    intro c hc
    rw [List.mem_singleton.mp hc, String.toList_ofList]
    exact ⟨h, hs, hm⟩
  case group t cs h hi =>
    rw [markFrom_group h.isBalanced] at hm
    exact hi (fun c hc => hs c (by simp [Expression.group, hc])) (group_injective hm)
  case bare hi => exact hi hs hm
  case single hi => exact hi hs hm
  case power t cs x r h hx hi =>
    obtain ⟨hm, _⟩ := marked_parts h.isBalanced (.of_char (.inr <| .inl rfl) t x) hm
    exact hraise <| hi (List.forall_mem_append.mp hs).1 hm
  case times s cs t cs' h h' hi hi' =>
    obtain ⟨hs, ht⟩ := List.forall_mem_append.mp hs
    obtain ⟨hms, hmt⟩ := marked_parts h.isBalanced (.of_char (.inl rfl) s t) hm
    rw [markFrom_other (by decide) rfl, markFrom_congr (p := some '*') (q := none) rfl] at hmt
    have hi' := hi' (List.forall_mem_cons.mp ht).2 (List.cons.inj hmt).2
    exact List.forall_mem_append.mpr ⟨hi hs hms, hi'⟩
  case per s cs t cs' h h' hp hi hi' =>
    obtain ⟨hs, ht⟩ := List.forall_mem_append.mp hs
    have hparted : Parted s ('/' :: t) := ⟨rfl, hp⟩
    obtain ⟨hms, hmt⟩ := marked_parts h.isBalanced hparted hm
    rw [markFrom_other (by decide) rfl, markFrom_congr (p := some '/') (q := none) rfl] at hmt
    have hi' := hi' (List.forall_mem_cons.mp ht).2 (List.cons.inj hmt).2
    exact List.forall_mem_append.mpr ⟨hi hs hms, hraise hi'⟩

theorem marked_plain (h : plain s = .ok t) : markFrom none t = t := by
  obtain ⟨hb, _, ht⟩ := plain_eq_ok_iff.mp h
  obtain ⟨k, hk⟩ := exists_wrap_unwrap (marked s)
  rw [← ht] at hk
  have hm : markFrom none (marked s) = marked s := markFrom_idem rfl
  rw [hk] at hm
  exact marked_of_wrap (ht ▸ isBalanced_unwrap hb) hm

theorem printable_of_parseWithin {text : String} {e : Expression} (h : parseWithin b text = .ok e) :
    ∀ c ∈ e.components, IsPrintable c.1.toList := by
  obtain ⟨t, cs, hp, ht, he⟩ := parseWithin_eq_ok_iff.mp h
  rintro ⟨n, r⟩ hc
  rw [he, mem_ofComponents_iff] at hc
  obtain ⟨r', hn⟩ := exists_of_exponentOf_ne_zero (hc.1 ▸ hc.2)
  cases terms_eq_ok_iff hp |>.mp ht
  case inl h => simp [h.2] at hn
  case inr h => exact h.printable (fun c hc => isSettled_of_mem_plain hp hc) (marked_plain hp) (n, r') hn

theorem IsPrintable.of_plain (hn : t ≠ [])
    (h : t.all fun c => IsSettled c ∧ isReserved c = false ∧ isAsciiDigit c = false) : IsPrintable t := by
  have h : ∀ c ∈ t, IsSettled c ∧ isReserved c = false ∧ isAsciiDigit c = false :=
    fun c hc => of_decide_eq_true (List.all_eq_true.mp h c hc)
  have hplain : ∀ c ∈ t, c ≠ '^' ∧ isAsciiDigit c = false := by
    intro c hc
    exact ⟨fun he => absurd (he ▸ (h c hc).2.1) (by decide), (h c hc).2.2⟩
  have hm := markFrom_unmarked (p := none) hplain hn []
  rw [markFrom_nil, List.append_nil] at hm
  obtain ⟨c, cs, ht⟩ := List.exists_cons_of_ne_nil hn
  have hhead : t.head?.any isAsciiDigit = false := by simpa [ht] using (h c (ht ▸ List.mem_cons_self)).2.2
  exact ⟨⟨hn, fun c hc => (h c hc).2.1, hhead⟩, fun c hc => (h c hc).1, hm⟩

end Names

section Powers

-- An exponent as it is printed behind a name.
def powerSuffix (r : Rat) : List Char :=
  if r = 1 then []
  else if r.den = 1 then '^' :: Nat.toDigits 10 r.num.natAbs
  else '^' :: group (Nat.toDigits 10 r.num.natAbs ++ '/' :: Nat.toDigits 10 r.den)

theorem repr_of_nonneg {m : Int} (h : 0 ≤ m) : m.repr.toList = Nat.toDigits 10 m.natAbs := by
  have hm : m.toNat = m.natAbs := by omega
  rw [Int.repr_eq_if, if_pos h, Nat.toList_repr, hm]

theorem powerText_toList (h : 0 < r) : (powerText n r).toList = n.toList ++ powerSuffix r := by
  have hnum : 0 ≤ r.num := Rat.num_nonneg.mpr (Rat.le_of_lt h)
  have hstring (s : String) : toString s = s := rfl
  rw [powerText, powerSuffix]
  split
  case isTrue => rw [List.append_nil]
  case isFalse =>
    split
    case isTrue => simp [hstring, repr_of_nonneg hnum]
    case isFalse => simp [hstring, repr_of_nonneg hnum, group]

theorem isNumeral_toDigits {m : Nat} (hm : m ≠ 0) (h : b.admitsNat m) : IsNumeral b (Nat.toDigits 10 m) where
  nonempty := Nat.toDigits_ne_nil
  digits _ hc := isDigit_of_isAsciiDigit (isAsciiDigit_of_mem_toDigits hc)
  short := DigitBound.admits_toDigits hm h

theorem isInteger_toDigits {m : Nat} (hm : m ≠ 0) (h : b.admitsNat m) : IsInteger b (Nat.toDigits 10 m) m := by
  have := IsInteger.unsigned (isNumeral_toDigits hm h)
  rwa [naturalValue_toDigits] at this

-- A printed text is read, and normalisation leaves it as it is.
structure IsPrinted (b : DigitBound) (p : Part) (t : List Char) (cs : List Component) : Prop where
  reads : Reads b p t cs
  settled : ∀ c ∈ t, IsSettled c
  marked : markFrom none t = t

theorem IsPrintable.isPrinted (h : IsPrintable t) : IsPrinted b .term t [(String.ofList t, 1)] :=
  ⟨.bare (.name h.name), h.settled, h.marked⟩

theorem isSettled_toDigits (m : Nat) : ∀ c ∈ Nat.toDigits 10 m, IsSettled c :=
  fun _ hc => isSettled_of_isAsciiDigit (isAsciiDigit_of_mem_toDigits hc)

theorem natAbs_num (h : 0 < r) : (r.num.natAbs : Int) = r.num ∧ r.num.natAbs ≠ 0 := by
  have hnum : 0 ≤ r.num := Rat.num_nonneg.mpr (Rat.le_of_lt h)
  refine ⟨Int.natAbs_of_nonneg hnum, fun h0 => ?_⟩
  have hr : r = 0 := Rat.num_eq_zero.mp (Int.natAbs_eq_zero.mp h0)
  exact Rat.lt_irrefl (hr ▸ h)

theorem isExponent_powerSuffix (h : 0 < r) (h1 : r ≠ 1) (hb : b.admitsRat r) :
    ∃ x, powerSuffix r = '^' :: x ∧ IsExponent b x r := by
  simp only [DigitBound.admitsRat, Bool.and_eq_true] at hb
  obtain ⟨hnum, hne⟩ := natAbs_num h
  have hn := isInteger_toDigits hne hb.1
  rw [powerSuffix, if_neg h1]
  split
  case isTrue hden =>
    have hr : ((r.num.natAbs : Int) : Rat) = r := by rw [hnum, Rat.coe_int_num_of_den_eq_one hden]
    exact ⟨_, rfl, hr ▸ .integer hn⟩
  case isFalse =>
    have hd := isInteger_toDigits r.den_nz hb.2
    have hr : ((r.num.natAbs : Int) : Rat) / ((r.den : Int) : Rat) = r := by
      rw [hnum, ← Rat.divInt_eq_div, Rat.num_divInt_den]
    have hx := IsExponent.wrapped 0 (.fraction hn hd (mod_cast r.den_nz))
    rw [hr] at hx
    exact ⟨_, rfl, hx⟩

theorem reads_power (hn : IsName n.toList) (h : 0 < r) (hb : b.admitsRat r) :
    Reads b .term (n.toList ++ powerSuffix r) [(n, r)] := by
  have hname := Reads.name (b := b) hn
  rw [String.ofList_toList] at hname
  by_cases h1 : r = 1
  case pos =>
    subst h1
    exact (List.append_nil n.toList).symm ▸ .bare hname
  case neg =>
    obtain ⟨x, hx, hr⟩ := isExponent_powerSuffix h h1 hb
    have := Reads.power hname hr
    rw [hx]
    simpa [raise] using this

theorem isSettled_powerSuffix (r : Rat) : ∀ c ∈ powerSuffix r, IsSettled c := by
  rw [powerSuffix]
  split
  case isTrue => exact List.forall_mem_nil _
  case isFalse =>
    split
    case isTrue => exact List.forall_mem_cons.mpr ⟨by decide, isSettled_toDigits _⟩
    case isFalse =>
      have hslash : IsSettled '/' := by decide
      have hfraction := isSettled_joined (isSettled_toDigits r.num.natAbs) hslash (isSettled_toDigits r.den)
      exact List.forall_mem_cons.mpr ⟨by decide, isSettled_group hfraction⟩

theorem markFrom_powerSuffix (r : Rat) : markFrom none (powerSuffix r) = powerSuffix r := by
  have hdigit (m : Nat) : ∀ c ∈ Nat.toDigits 10 m, isAsciiDigit c := fun _ hc => isAsciiDigit_of_mem_toDigits hc
  rw [powerSuffix]
  split
  case isTrue => exact markFrom_nil none
  case isFalse =>
    split
    case isTrue =>
      have := markFrom_power (p := none) (t := []) Nat.toDigits_ne_nil (hdigit r.num.natAbs) rfl (markFrom_nil _)
      rwa [List.append_nil] at this
    case isFalse =>
      have hdigits (m : Nat) : IsBare (Nat.toDigits 10 m) := .of_unreserved <| unreserved_of_digits (hdigit m)
      have hbare : IsBare (Nat.toDigits 10 r.num.natAbs ++ '/' :: Nat.toDigits 10 r.den) :=
        List.forall_mem_append.mpr ⟨hdigits _, List.forall_mem_cons.mpr ⟨by decide, hdigits _⟩⟩
      have := markFrom_caret (p := none) (.group hbare.isBalanced [])
      rwa [List.append_nil, markFrom_nil, List.append_nil] at this

theorem parted_powerSuffix (s : List Char) (r : Rat) : Parted s (powerSuffix r) := by
  rw [powerSuffix]
  split
  case isTrue => exact .nil s
  case isFalse =>
    split
    case isTrue => exact .of_char (.inr <| .inl rfl) s _
    case isFalse => exact .of_char (.inr <| .inl rfl) s _

theorem isPrinted_power (hn : IsPrintable n.toList) (h : 0 < r) (hb : b.admitsRat r) :
    IsPrinted b .term (powerText n r).toList [(n, r)] := by
  rw [powerText_toList h]
  constructor
  case reads => exact reads_power hn.name h hb
  case settled => exact List.forall_mem_append.mpr ⟨hn.settled, isSettled_powerSuffix r⟩
  case marked =>
    rw [markFrom_append hn.name.bare.isBalanced (parted_powerSuffix _ r) none none, hn.marked, markFrom_powerSuffix]

end Powers

section Products

namespace IsPrinted

theorem times (hs : IsPrinted b .product s cs) (ht : IsPrinted b .term t cs') :
    IsPrinted b .product (s ++ '*' :: t) (cs ++ cs') where
  reads := .times hs.reads ht.reads
  settled := isSettled_joined hs.settled (by decide) ht.settled
  marked := by rw [markFrom_operator hs.reads.isBalanced (.of_char (.inl rfl) s t) (.inl rfl), hs.marked, ht.marked]

theorem per (hs : IsPrinted b .product s cs) (ht : IsPrinted b .term t cs') (hd : t.head?.any isAsciiDigit = false) :
    IsPrinted b .product (s ++ '/' :: t) (cs ++ raise (-1) cs') where
  reads := .per hs.reads ht.reads fun h => by simp [hd] at h
  settled := isSettled_joined hs.settled (by decide) ht.settled
  marked := by
    have hp : Parted s ('/' :: t) := ⟨rfl, fun h => by simp [isFractionBar, hd] at h⟩
    rw [markFrom_operator hs.reads.isBalanced hp (.inr rfl), hs.marked, ht.marked]

theorem single (h : IsPrinted b .term t cs) : IsPrinted b .product t cs :=
  ⟨.single h.reads, h.settled, h.marked⟩

theorem one : IsPrinted b .product ['1'] [] where
  reads := .single (.bare .one)
  settled := List.forall_mem_singleton.mpr (by decide)
  marked := by
    have := markFrom_digits (p := none) (t := []) (by simp) isAsciiDigit_one rfl
    rwa [markFrom_nil] at this

theorem parse (h : IsPrinted b .product t cs) : parseWithin b (String.ofList t) = .ok (ofComponents cs) := by
  apply parseWithin_of_reads
  rw [marked_settled h.settled, h.marked]
  exact h.reads

end IsPrinted

-- A component that can be printed above the line.
structure IsWritable (b : DigitBound) (c : Component) : Prop where
  name : IsPrintable c.1.toList
  positive : 0 < c.2
  short : b.admitsRat c.2

-- The characters of a printed power.
def powerChars (c : Component) : List Char :=
  (powerText c.1 c.2).toList

-- Printed powers with a star in front of each of them.
def starred (cs : List Component) : List Char :=
  cs.flatMap fun c => '*' :: powerChars c

theorem IsWritable.isPrinted {c : Component} (h : IsWritable b c) : IsPrinted b .term (powerChars c) [c] :=
  isPrinted_power h.name h.positive h.short

theorem IsWritable.head {c : Component} (h : IsWritable b c) : (powerChars c).head?.any isAsciiDigit = false := by
  obtain ⟨x, n, hn⟩ := List.exists_cons_of_ne_nil h.name.name.nonempty
  have hx := h.name.name.head
  rw [powerChars, powerText_toList h.positive, hn]
  rwa [hn] at hx

theorem IsPrinted.starred (hs : IsPrinted b .product s cs) (h : ∀ c ∈ cs', IsWritable b c) :
    IsPrinted b .product (s ++ starred cs') (cs ++ cs') := by
  induction cs' generalizing s cs
  case nil => simpa [Expression.starred] using hs
  case cons c cs' hi =>
    obtain ⟨hc, hcs⟩ := List.forall_mem_cons.mp h
    have := hi (hs.times hc.isPrinted) hcs
    simpa [Expression.starred] using this

-- Printed powers with stars between them.
def joined (cs : List Component) : String :=
  "*".intercalate (cs.map fun c => powerText c.1 c.2)

theorem joined_toList (c : Component) (cs : List Component) :
    (joined (c :: cs)).toList = powerChars c ++ starred cs := by
  induction cs generalizing c
  case nil => simp [joined, powerChars, starred]
  case cons d cs hi =>
    have hd := hi d
    simp only [joined, String.toList_intercalate, List.map_cons] at hd ⊢
    rw [List.intercalate_cons_cons, hd]
    simp [powerChars, starred]

-- All that is above the line.
def numerator (cs : List Component) : String :=
  if cs = [] then "1" else joined cs

end Products

section Expressions

variable {e : Expression}

-- What is read of the components below the line: only the first of them is divided by.
def readBelow : List Component → List Component
  | [] => []
  | c :: cs => c :: raise (-1) cs

theorem raise_neg (cs : List Component) : raise (-1) (raise (-1) cs) = cs := by
  have hone : (-1 : Rat) * -1 = 1 := by grind
  rw [raise_raise, hone, raise_one]

theorem exponentOf_raise : exponentOf n (raise r cs) = exponentOf n cs * r := by
  induction cs
  case nil => exact (Rat.zero_mul r).symm
  case cons c cs hi =>
    have hc : raise r (c :: cs) = (c.1, c.2 * r) :: raise r cs := rfl
    rw [hc, exponentOf, exponentOf, hi, Rat.add_mul]
    split
    case isTrue => rfl
    case isFalse => rw [Rat.zero_mul]

theorem admitsRat_neg (r : Rat) : b.admitsRat (r * -1) = b.admitsRat r := by
  have hr : r * -1 = -r := by grind
  rw [hr, DigitBound.admitsRat, DigitBound.admitsRat, Rat.neg_num, Rat.neg_den, Int.natAbs_neg]

-- A component that was read and that is short enough to be written.
structure IsShort (b : DigitBound) (c : Component) : Prop where
  name : IsPrintable c.1.toList
  nonzero : c.2 ≠ 0
  short : b.admitsRat c.2

theorem isWritable_above (h : ∀ c ∈ cs, IsShort b c) : ∀ c ∈ cs.filter (0 < ·.2), IsWritable b c := by
  intro c hc
  obtain ⟨hc, hr⟩ := List.mem_filter.mp hc
  exact ⟨(h c hc).name, by simpa using hr, (h c hc).short⟩

theorem isWritable_below (h : ∀ c ∈ cs, IsShort b c) : ∀ c ∈ raise (-1) (cs.filter (¬ 0 < ·.2)), IsWritable b c := by
  intro c hc
  obtain ⟨d, hd, he⟩ := List.mem_map.mp hc
  obtain ⟨hd, hr⟩ := List.mem_filter.mp hd
  have hneg : ¬ 0 < d.2 := by simpa using hr
  have hne := (h d hd).nonzero
  subst he
  refine ⟨(h d hd).name, ?_, admitsRat_neg d.2 ▸ (h d hd).short⟩
  change 0 < d.2 * -1
  grind

theorem IsPrinted.above (h : ∀ c ∈ cs, IsWritable b c) : IsPrinted b .product (numerator cs).toList cs := by
  cases cs
  case nil => exact .one
  case cons c cs =>
    obtain ⟨hc, hcs⟩ := List.forall_mem_cons.mp h
    rw [numerator, if_neg (by simp), joined_toList]
    exact hc.isPrinted.single.starred hcs

theorem IsPrinted.below (hs : IsPrinted b .product s cs) (h : ∀ c ∈ cs', IsWritable b c) (hn : cs' ≠ []) :
    IsPrinted b .product (s ++ '/' :: (joined cs').toList) (cs ++ readBelow (raise (-1) cs')) := by
  cases cs'
  case nil => contradiction
  case cons c cs' =>
    obtain ⟨hc, hcs⟩ := List.forall_mem_cons.mp h
    have := (hs.per hc.isPrinted hc.head).starred hcs
    have hr : readBelow (raise (-1) (c :: cs')) = raise (-1) [c] ++ cs' := congrArg _ (raise_neg cs')
    rw [joined_toList, hr]
    simpa using this

-- What is printed below the line has the opposite exponents.
theorem map_powerText_neg (cs : List Component) : cs.map (fun (name, r) => powerText name (-r)) =
    (raise (-1) cs).map fun c => powerText c.1 c.2 := by
  rw [raise, List.map_map]
  apply List.map_congr_left
  intro c _
  have hr : c.2 * -1 = -c.2 := by grind
  exact congrArg (powerText c.1) hr.symm

theorem render_eq (hn : e.components ≠ []) : e.render =
    if e.components.filter (¬ 0 < ·.2) = [] then numerator (e.components.filter (0 < ·.2))
    else numerator (e.components.filter (0 < ·.2)) ++ "/" ++ joined (raise (-1) (e.components.filter (¬ 0 < ·.2))) := by
  rw [render, if_neg hn]
  simp only [map_powerText_neg, raise, List.map_eq_nil_iff]
  rfl

-- What is read of a printed expression.
theorem isPrinted_render (h : ∀ c ∈ e.components, IsShort b c) (hn : e.components ≠ []) :
    IsPrinted b .product e.render.toList
      (e.components.filter (0 < ·.2) ++ readBelow (e.components.filter (¬ 0 < ·.2))) := by
  have habove := IsPrinted.above (isWritable_above h)
  rw [render_eq hn]
  split
  case isTrue hb =>
    rw [hb, readBelow, List.append_nil]
    exact habove
  case isFalse hb =>
    have hr : raise (-1) (e.components.filter (¬ 0 < ·.2)) ≠ [] := mt List.map_eq_nil_iff.mp hb
    have := habove.below (isWritable_below h) hr
    rw [raise_neg] at this
    rwa [String.toList_append, String.toList_append, List.append_assoc]

-- A second component below the line is read above it.
theorem exponentOf_readBelow_iff (hs : IsSorted cs) (h0 : ∀ c ∈ cs, c.2 ≠ 0) :
    (∀ n, exponentOf n (readBelow cs) = exponentOf n cs) ↔ cs.length ≤ 1 := by
  cases cs
  case nil => exact ⟨fun _ => Nat.zero_le 1, fun _ _ => rfl⟩
  case cons c cs =>
    cases cs
    case nil => exact ⟨fun _ => Nat.le_refl 1, fun _ _ => rfl⟩
    case cons d cs =>
      constructor
      case mpr => simp
      case mp =>
        intro he
        have hd := he d.1
        have htail : IsSorted (d :: cs) := (List.pairwise_cons.mp hs).2
        have hsum : exponentOf d.1 (d :: cs) = d.2 := htail.exponentOf_eq List.mem_cons_self
        rw [readBelow, exponentOf, exponentOf, exponentOf_raise, hsum] at hd
        have := h0 d (by simp)
        grind

theorem isCanonical_of_parseWithin {text : String} (h : parseWithin b text = .ok e) : e.IsCanonical := by
  obtain ⟨_, cs, _, _, he⟩ := parseWithin_eq_ok_iff.mp h
  exact he ▸ isCanonical_ofComponents cs

-- Without a zero, what is not above the line is negative.
theorem IsCanonical.filter_below (h : e.IsCanonical) :
    e.components.filter (¬ 0 < ·.2) = e.components.filter (·.2 < 0) := by
  apply List.filter_congr
  intro c hc
  have := h.nonzero c hc
  grind

theorem ofComponents_render_eq_iff (h : e.IsCanonical) :
    ofComponents (e.components.filter (0 < ·.2) ++ readBelow (e.components.filter (¬ 0 < ·.2))) = e ↔
      (e.components.filter (·.2 < 0)).length ≤ 1 := by
  have hs : IsSorted (e.components.filter (¬ 0 < ·.2)) := h.sorted.filter _
  have h0 : ∀ c ∈ e.components.filter (¬ 0 < ·.2), c.2 ≠ 0 := fun c hc => h.nonzero c (List.mem_of_mem_filter hc)
  rw [ofComponents_eq_iff h, ← h.filter_below, ← exponentOf_readBelow_iff hs h0]
  apply forall_congr'
  intro n
  have hsplit := exponentOf_filter (fun c => decide (0 < c.2)) n e.components
  simp only [← decide_not] at hsplit
  rw [exponentOf_append, ← hsplit]
  grind

-- A printed expression is always read, provided that its exponents are short enough to be written, and it is read as
-- itself unless it is empty or has more than one negative exponent.
theorem parseWithin_render (b : DigitBound) {text : String} (h : parseWithin b text = .ok e)
    (hw : ∀ r ∈ e.exponents, b.admitsRat r) : ∃ e', parseWithin b e.render = .ok e' ∧
      (e' = e ↔ e.components ≠ [] ∧ (e.components.filter (·.2 < 0)).length ≤ 1) := by
  have hcan := isCanonical_of_parseWithin h
  by_cases hn : e.components = []
  case pos =>
    have hname : IsPrintable "dimensionless".toList := .of_plain (by decide) (by decide)
    have hp := (hname.isPrinted (b := b)).single.parse
    have hr : e.render = String.ofList "dimensionless".toList := by rw [render, if_pos hn]; rfl
    rw [hr]
    refine ⟨_, hp, fun he => ?_, fun he => absurd hn he.1⟩
    have hm : (String.ofList "dimensionless".toList, (1 : Rat)) ∈ e.components :=
      he ▸ mem_ofComponents_iff.mpr ⟨by simp [exponentOf], by decide⟩
    simp [hn] at hm
  case neg =>
    have hshort : ∀ c ∈ e.components, IsShort b c := fun c hc =>
      ⟨printable_of_parseWithin h c hc, hcan.nonzero c hc, hw c.2 (List.mem_map_of_mem hc)⟩
    have hp := (isPrinted_render hshort hn).parse
    rw [String.ofList_toList] at hp
    refine ⟨_, hp, ?_⟩
    rw [ofComponents_render_eq_iff hcan]
    exact ⟨fun h => ⟨hn, h⟩, fun h => h.2⟩

theorem parse_render_speed : ∃ e, parse "m^(1/2)/s" = .ok e ∧ (∀ r ∈ e.exponents, DigitBound.standard.admitsRat r) ∧
    parse e.render = .ok e := by
  let e : Expression := ⟨[("m", 1 / 2), ("s", -1)]⟩
  have hp : parse "m^(1/2)/s" = .ok e := by decide +kernel
  have hw : ∀ r ∈ e.exponents, DigitBound.standard.admitsRat r := by decide +kernel
  obtain ⟨e', hp', he⟩ := parseWithin_render .standard hp hw
  have he' : e' = e := he.mpr ⟨List.cons_ne_nil _ _, by decide +kernel⟩
  exact ⟨e, hp, hw, he' ▸ hp'⟩

end Expressions

section TooLong

theorem isPrintable_metre : IsPrintable "m".toList :=
  .of_plain (by decide) (by decide)

theorem metrePower_toList {m : Nat} (h : 1 < m) : (powerText "m" m).toList = 'm' :: '^' :: Nat.toDigits 10 m := by
  have hm : (0 : Rat) < m := mod_cast Nat.lt_of_succ_lt h
  have h1 : (m : Rat) ≠ 1 := mod_cast Nat.ne_of_gt h
  rw [powerText_toList hm, powerSuffix, if_neg h1, if_pos (Rat.den_natCast m), Rat.num_natCast, Int.natAbs_natCast]
  rfl

theorem admitsRat_natCast {k m : Nat} (hk : 0 < k) : DigitBound.admitsRat (some k) m ↔ m < 10 ^ k := by
  have h1 : 1 < 10 ^ k := Nat.one_lt_pow (by omega) (by decide)
  simp only [DigitBound.admitsRat, DigitBound.admitsNat, Option.all_some, Bool.and_eq_true, Rat.num_natCast,
    Int.natAbs_natCast, Rat.den_natCast]
  exact ⟨fun h => of_decide_eq_true h.1, fun h => ⟨decide_eq_true h, decide_eq_true h1⟩⟩

theorem not_admitsRat_pow (k : Nat) : ¬DigitBound.admitsRat (some (k + 1)) (10 ^ (k + 1) : Nat) :=
  fun h => Nat.lt_irrefl _ (admitsRat_natCast (by omega) |>.mp h)

theorem render_single (n : String) (h : 0 < r) : render ⟨[(n, r)]⟩ = powerText n r := by
  simp [render, h]

-- Two exponents that may be written add up to one that may not.
theorem parseWithin_nines (k : Nat) :
    parseWithin (some (k + 1)) (String.ofList ('m' :: '^' :: (List.replicate (k + 1) '9' ++ ['*', 'm']))) =
      .ok ⟨[("m", ((10 ^ (k + 1) : Nat) : Rat))]⟩ := by
  have h10 : 10 ≤ 10 ^ (k + 1) := Nat.le_self_pow (by omega) 10
  have hshort : DigitBound.admitsRat (some (k + 1)) ((10 ^ (k + 1) - 1 : Nat) : Rat) :=
    admitsRat_natCast (by omega) |>.mpr (by omega)
  have hpos : (0 : Rat) < (10 ^ (k + 1) - 1 : Nat) := mod_cast (by omega : 0 < 10 ^ (k + 1) - 1)
  have hpower := isPrinted_power isPrintable_metre hpos hshort
  rw [metrePower_toList (by omega), toDigits_pow_pred] at hpower
  have hp := (hpower.single.times isPrintable_metre.isPrinted).parse
  have hsum : ((10 ^ (k + 1) - 1 : Nat) : Rat) + 1 = (10 ^ (k + 1) : Nat) :=
    mod_cast (by omega : 10 ^ (k + 1) - 1 + 1 = 10 ^ (k + 1))
  have hne : ((10 ^ (k + 1) : Nat) : Rat) ≠ 0 := mod_cast (by omega : 10 ^ (k + 1) ≠ 0)
  have he : ofComponents [("m", ((10 ^ (k + 1) - 1 : Nat) : Rat)), ("m", 1)] = ⟨[("m", (10 ^ (k + 1) : Nat))]⟩ := by
    simp only [ofComponents, List.foldl_cons, List.foldl_nil, accumulate, if_true, hsum]
    rw [List.filter_cons_of_pos (by simpa only [decide_eq_true_eq] using hne), List.filter_nil]
  rw [← he]
  exact hp

theorem parseWithin_render_long (k : Nat) :
    parseWithin (some (k + 1)) (render ⟨[("m", (10 ^ (k + 1) : Nat))]⟩) = .error (.numeralTooLong (k + 2)) := by
  have h10 : 10 ≤ 10 ^ (k + 1) := Nat.le_self_pow (by omega) 10
  have hpos : (0 : Rat) < (10 ^ (k + 1) : Nat) := mod_cast (by omega : 0 < 10 ^ (k + 1))
  have hb : DigitBound.admits (some (k + 1)) (Nat.toDigits 10 (10 ^ (k + 1))).length = false := by
    rw [length_toDigits_pow]
    simp [DigitBound.admits]
  have := parseWithin_tooLong (fun _ hc => isAsciiDigit_of_mem_toDigits hc) hb (.inl rfl)
  rwa [List.append_nil, ← metrePower_toList (by omega), String.ofList_toList, ← render_single "m" hpos,
    length_toDigits_pow] at this

-- An expression that was read but that cannot be written, nor would it be read again.
theorem parse_render_tooLong :
    let text := String.ofList ('m' :: '^' :: (List.replicate 4300 '9' ++ ['*', 'm']))
    ∃ e, parse text = .ok e ∧ Error.requireWritable e.exponents = .error .integerTooLong ∧
      parse e.render = .error (.numeralTooLong 4301) := by
  refine ⟨_, parseWithin_nines 4299, if_neg fun h => ?_, parseWithin_render_long 4299⟩
  exact not_admitsRat_pow 4299 (List.all_eq_true.mp h _ List.mem_cons_self)

end TooLong

end Metrology.Expression
