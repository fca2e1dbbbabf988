import Metrology.Proofs.Expression.Printing
import Metrology.Proofs.Registry.Changes
import Metrology.Proofs.Registry.Reduction
import Metrology.Proofs.Scalar.One

/-!
Names of new units. A definition refuses the operators and digits of expressions, but not the other spellings that
these have. A name with none of them is read back as the new unit and reduces to what was defined; a name with one of
them can be defined, and is read as something else.
-/

namespace Metrology

open Expression

theorem Expression.ofComponents_single (name : String) : ofComponents [(name, 1)] = ⟨[(name, 1)]⟩ := by
  simp [ofComponents, accumulate]

-- The form as it is once reduced: an offset that is zero is written as zero.
def BaseForm.reduced (v : BaseForm Float) : BaseForm Float :=
  { v with offset := if v.isAffine then v.offset else 0, origin := .reduced }

namespace Registry

variable {r : Registry Float} {name : String} {v : BaseForm Float}

-- The characters that a definition refuses.
def refusedChars : List Char :=
  "*/^()+-0123456789".toList

theorem mem_refusedChars_of_isReserved {c : Char} (h : isReserved c) : c ∈ refusedChars := by
  simp only [isReserved, Bool.or_eq_true, beq_iff_eq] at h
  rcases h with (((rfl | rfl) | rfl) | rfl) | rfl <;> decide

theorem mem_refusedChars_of_isAsciiDigit {c : Char} (h : Text.isAsciiDigit c) : c ∈ refusedChars := by
  simp only [Text.isAsciiDigit, Bool.and_eq_true, decide_eq_true_eq] at h
  have hall : ∀ n : Nat, n < 0x3a → 0x30 ≤ n → Char.ofNat n ∈ refusedChars := by decide
  have hc := hall c.toNat (by omega) h.1
  rwa [Char.ofNat_toNat] at hc

theorem isPrintable_of_isValidName (h : isValidName name) (hs : ∀ c ∈ name.toList, IsSettled c) :
    IsPrintable name.toList := by
  rw [isValidName, Bool.and_eq_true, bne_iff_ne, List.all_eq_true] at h
  obtain ⟨hn, hc⟩ := h
  apply IsPrintable.of_plain (by simpa using hn)
  rw [List.all_eq_true]
  intro c hm
  obtain ⟨hcontains, -⟩ := Bool.and_eq_true_iff.mp (hc c hm)
  have hallowed : c ∉ refusedChars := by
    rwa [← List.contains_iff_mem, Bool.not_eq_true, ← Bool.not_eq_true']
  have hr := Bool.eq_false_iff.2 (mt mem_refusedChars_of_isReserved hallowed)
  have hd := Bool.eq_false_iff.2 (mt mem_refusedChars_of_isAsciiDigit hallowed)
  exact decide_eq_true ⟨hs c hm, hr, hd⟩

-- Of the names that can be given to a unit, just those without characters that normalisation replaces are read as
-- they are.
theorem parse_name_iff (h : isValidName name) :
    parse name = .ok ⟨[(name, 1)]⟩ ↔ ∀ c ∈ name.toList, IsSettled c := by
  constructor
  case mp =>
    intro hp
    exact (printable_of_parseWithin hp _ (List.mem_singleton_self _)).settled
  case mpr =>
    intro hs
    have hp := (isPrintable_of_isValidName h hs).isPrinted (b := .standard) |>.single.parse
    rwa [String.ofList_toList, ofComponents_single] at hp

theorem addTerm_first (h : r.find? name = some v) :
    r.addTerm true .start (name, 1) = .ok ⟨some v.factor, if v.isAffine then v.offset else 0, v.dimensions⟩ := by
  have hadds := addTerm_adds (r := r) true .start name 1
  generalize r.addTerm true .start (name, 1) = x at hadds
  cases hadds
  case unknown hn => simp [h] at hn
  case fault hp => simp [Binary64.power_one] at hp
  case misused hs _ => contradiction
  case added u p hu hp _ =>
    rw [h, Option.some.injEq] at hu
    subst hu
    rw [Binary64.power_one, Except.ok.injEq] at hp
    subst hp
    have hfactor : (1 : Float) * v.factor = v.factor := Binary64.one_mul v.factor
    have hdimensions : (0 : Dimensions) + v.dimensions.scale 1 = v.dimensions := by
      ext d
      simp
    simp [Total.start, hfactor, hdimensions]

theorem reduce_name (h : r.find? name = some v) (hv : v.symbol = name) :
    r.reduce ⟨[(name, 1)]⟩ = v.requireSignature.map fun _ => v.reduced := by
  have hrender : Expression.render ⟨[(name, 1)]⟩ = name := by
    rw [render_single name (by decide), powerText, if_pos rfl]
  have hwritable : Error.requireWritable (exponents ⟨[(name, 1)]⟩) = .ok () := by
    change Error.requireWritable [(1 : Rat)] = .ok ()
    decide +kernel
  have hfold : [(name, 1)].foldlM (r.addTerm true) .start =
      .ok ⟨some v.factor, if v.isAffine then v.offset else 0, v.dimensions⟩ := by
    rw [List.foldlM_cons, addTerm_first h]
    rfl
  have hreduce : r.reduce ⟨[(name, 1)]⟩ =
      ([(name, 1)].foldlM (r.addTerm true) .start).bind (finish ⟨[(name, 1)]⟩) :=
    rfl
  rw [hreduce, hfold, Except.bind, finish, hwritable, hrender]
  cases requireWritable_cases v.dimensions.toList
  case inl hd =>
    simp only [bind, Except.bind, BaseForm.realFactor, BaseForm.requireSignature, hd]
    rw [← hv]
    rfl
  case inr hd =>
    simp only [bind, Except.bind, BaseForm.realFactor, BaseForm.requireSignature, hd]
    rfl

theorem symbol_of_definedForm {base : BaseForm Float} {factor offset : Given Float}
    (h : definedForm name base factor offset = .ok v) : v.symbol = name := by
  obtain ⟨x, -, h⟩ := exists_of_bind_ok h
  obtain ⟨y, -, h⟩ := exists_of_bind_ok h
  cases h
  rfl

theorem Defines.of_ok {r' : Registry Float} {meaning : Meaning Float} {factor offset : Given Float} {replace : Bool}
    (h : r.Defines name meaning factor offset replace (.ok v) r') :
    isValidName name ∧ r'.find? name = some v ∧ v.symbol = name := by
  generalize hx : (.ok v : Except Error (BaseForm Float)) = x at h
  cases h
  case refused => contradiction
  case entered u w hn _ _ _ hw =>
    have hv : v = w := by
      cases hl : meaning.requireLabel
      case error => simp [hl, Except.map] at hx
      case ok => simpa [hl, Except.map] using hx
    subst hv
    exact ⟨hn, Std.TreeMap.getElem?_insert_self, symbol_of_definedForm hw⟩

-- A name that can be defined is read as itself, unless normalisation replaces one of its characters; and then it
-- reduces at once to what was defined, if that can be written down.
theorem reduceText_define (meaning : Meaning Float) (factor offset : Given Float) (replace : Bool)
    (h : (define name meaning factor offset replace r).result = .ok v) :
    (parse name = .ok ⟨[(name, 1)]⟩ ↔ ∀ c ∈ name.toList, IsSettled c) ∧
      ((∀ c ∈ name.toList, IsSettled c) →
        (define name meaning factor offset replace r).state.reduceText name =
          v.requireSignature.map fun _ => v.reduced) := by
  have hd := define_defines (r := r) name meaning factor offset replace
  rw [h] at hd
  obtain ⟨hn, hf, hs⟩ := hd.of_ok
  have hp := parse_name_iff hn
  refine ⟨hp, ?_⟩
  intro hc
  rw [reduceText, hp.2 hc]
  exact reduce_name hf hs

def metre : BaseForm Float :=
  ⟨.single .length, 1, 0, "m", .composed⟩

theorem reduceText_define_furlong :
    let o := define "furlong" (.form metre) (.scalar 201.168) (.scalar 0) false empty
    let furlong : BaseForm Float := ⟨.single .length, 201.168, 0, "furlong", .composed⟩
    o.result = .ok furlong ∧ parse "furlong" = .ok ⟨[("furlong", 1)]⟩ ∧
      o.state.reduceText "furlong" = .ok furlong.reduced := by
  intro o furlong
  have h : o.result = .ok furlong := rfl
  obtain ⟨hp, hr⟩ := reduceText_define (.form metre) (.scalar 201.168) (.scalar 0) false h
  have hread : parse "furlong" = .ok ⟨[("furlong", 1)]⟩ := by decide +kernel
  have hw : furlong.requireSignature = .ok () := by
    change Error.requireWritable (Dimensions.single .length).toList = .ok ()
    decide +kernel
  refine ⟨h, hread, ?_⟩
  rw [hr (hp.1 hread), hw]
  rfl

-- A superscript passes for a name, and is read as an exponent.
theorem reduceText_define_superscript :
    let o := define "m²" (.form metre) (.scalar 1) (.scalar 0) false empty
    o.result.isOk ∧ parse "m²" = .ok ⟨[("m", 2)]⟩ ∧ o.state.reduceText "m²" = .error (.unknownUnit "m") := by
  intro o
  have hp : parse "m²" = .ok ⟨[("m", 2)]⟩ := by decide +kernel
  refine ⟨rfl, hp, ?_⟩
  rw [reduceText, hp]
  rfl

end Registry

end Metrology
