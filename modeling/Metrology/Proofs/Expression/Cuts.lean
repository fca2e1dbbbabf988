import Mathlib.Data.List.DropRight
import Metrology.Proofs.Expression.Pieces

/-!
Cutting place by place. The pieces of a text make up the text, and whether it is cut at a place is told by the text
in front of the place, back to the last cut, and by what follows. Nothing that belongs together is torn apart: the pieces
of a balanced text are balanced.
-/

namespace Metrology.Expression

open Text

variable {D : Char → Bool} {P : Bool} {o : Option Char} {d : Int} {c : Char} {r s t u x : List Char}
variable {k : Nat} {l m : List (Char × Bool)} {ps qs : List Piece}

-- A piece together with the delimiter in front of it.
def Piece.chars (p : Piece) : List Char :=
  p.delimiter.toList ++ p.text

-- A text in which no character has a mark.
def unmarked (t : List Char) : List (Char × Bool) :=
  t.map (·, false)

-- The characters that pieces are made of, the delimiters with a mark.
def trace (ps : List Piece) : List (Char × Bool) :=
  ps.flatMap fun p => p.delimiter.toList.map (·, true) ++ unmarked p.text

-- Whether there is a delimiter at this place of the text that the pieces make up.
def isCutAt (ps : List Piece) (k : Nat) : Bool :=
  (trace ps)[k]?.any (·.2)

-- The characters behind the last mark.
def behindMark (l : List (Char × Bool)) : List Char :=
  (l.rtakeWhile (!·.2)).map (·.1)

-- The text in front of a place, back to the last cut.
def sinceCut (ps : List Piece) (k : Nat) : List Char :=
  behindMark ((trace ps).take k)

-- The text ends in a caret with an integer, apart from one final line end.
def EndsInExponent (s : List Char) : Prop :=
  EndsInPower s ∨ ∃ u, s = u ++ ['\n'] ∧ EndsInPower u

-- A character that a text is cut at, between the texts `s` and `u`. The end `x` of `s` lies behind the cut before.
structure IsCut (D : Char → Bool) (P : Bool) (s x : List Char) (c : Char) (u : List Char) : Prop where
  delimiter : D c
  noOpening : c ≠ '('
  noClosing : c ≠ ')'
  outside : s.count '(' = s.count ')'
  unprotected : ¬(P ∧ c = '/' ∧ u.head?.any isAsciiDigit ∧ EndsInExponent x)

-- Pieces that a text is cut into, with nothing lost, at the places of all cuts and at no others.
structure IsCutting (D : Char → Bool) (P : Bool) (t : List Char) (ps : List Piece) : Prop where
  lossless : ps.flatMap Piece.chars = t
  delimiters : ∃ x rest, ps = ⟨none, x⟩ :: rest ∧ ∀ p ∈ rest, p.delimiter.isSome
  exact : ∀ s c u, t = s ++ c :: u → (isCutAt ps s.length ↔ IsCut D P s (sinceCut ps s.length) c u)
  balanced : isBalanced 0 t → ∀ p ∈ ps, isBalanced 0 p.text

theorem exists_of_getElem? (h : t[k]? = some c) : ∃ s u, t = s ++ c :: u ∧ s.length = k := by
  obtain ⟨hk, hc⟩ := List.getElem?_eq_some_iff.mp h
  refine ⟨t.take k, t.drop (k + 1), ?_, List.length_take_of_le (Nat.le_of_lt hk)⟩
  rw [← hc, List.getElem_cons_drop, List.take_append_drop]

theorem map_fst_unmarked (t : List Char) : (unmarked t).map (·.1) = t := by
  rw [unmarked, List.map_map]
  exact List.map_id t

theorem trace_cons (p : Piece) (ps : List Piece) :
    trace (p :: ps) = p.delimiter.toList.map (·, true) ++ (unmarked p.text ++ trace ps) := by
  rw [← List.append_assoc]
  rfl

theorem flatMap_chars (ps : List Piece) : ps.flatMap Piece.chars = (trace ps).map (·.1) := by
  simp only [trace, List.map_flatMap, List.map_append, map_fst_unmarked, List.map_map, Function.comp_def, List.map_id']
  rfl

theorem behindMark_unmarked (t : List Char) : behindMark (unmarked t) = t := by
  have h : (unmarked t).rtakeWhile (!·.2) = unmarked t := by simp [List.rtakeWhile_eq_self_iff, unmarked]
  rw [behindMark, h, map_fst_unmarked]

theorem behindMark_concat (l : List (Char × Bool)) (c : Char) (b : Bool) :
    behindMark (l ++ [(c, b)]) = if b then [] else behindMark l ++ [c] := by
  rw [behindMark, List.rtakeWhile_concat]
  cases b
  case false => simp [behindMark]
  case true => rfl

theorem behindMark_append (l m : List (Char × Bool)) (c : Char) : behindMark (l ++ (c, true) :: m) = behindMark m := by
  induction m using List.reverseRecOn
  case nil => rw [behindMark_concat]; rfl
  case append_singleton m a hi =>
    rw [← List.cons_append, ← List.append_assoc, behindMark_concat, behindMark_concat, hi]

-- The text is all behind its last mark, or that mark stands directly in front.
theorem behindMark_cases (l : List (Char × Bool)) : l.map (·.1) = behindMark l ∨
    ∃ s c, (c, true) ∈ l ∧ l.map (·.1) = s ++ c :: behindMark l := by
  induction l using List.reverseRecOn
  case nil => exact .inl rfl
  case append_singleton l a hi =>
    obtain ⟨c, b⟩ := a
    rw [behindMark_concat, List.map_append]
    cases b
    case true => exact .inr ⟨l.map (·.1), c, by simp, rfl⟩
    case false =>
      cases hi
      case inl h => exact .inl (by rw [h]; rfl)
      case inr h =>
        obtain ⟨s, x, hx, h⟩ := h
        exact .inr ⟨s, x, List.mem_append_left _ hx, by rw [h]; simp⟩

-- Cutting as it goes through a text: each character, those that the text is cut at with a mark.
def traceFrom (D : Char → Bool) (P : Bool) : Int → List Char → List Char → List (Char × Bool)
  | _, _, [] => []
  | d, r, c :: t =>
    if Divides D P d r c t then (c, true) :: traceFrom D P 0 [] t
    else (c, false) :: traceFrom D P (d + nesting [c]) (c :: r) t

theorem trace_cutFrom : trace (cutFrom D P o d r t) =
    o.toList.map (·, true) ++ (unmarked r.reverse ++ traceFrom D P d r t) := by
  induction t generalizing o d r
  case nil => simp [cutFrom, traceFrom, trace]
  case cons c t hi =>
    rw [cutFrom_cons, traceFrom]
    split
    case isTrue =>
      rw [trace_cons, hi]
      rfl
    case isFalse =>
      rw [hi]
      simp [unmarked]

theorem trace_cut : trace (cut D P t) = traceFrom D P 0 [] t :=
  trace_cutFrom

theorem map_fst_traceFrom : (traceFrom D P d r t).map (·.1) = t := by
  induction t generalizing d r
  case nil => rfl
  case cons c t hi =>
    rw [traceFrom]
    split
    all_goals rw [List.map_cons, hi]

theorem delimiter_of_mem_traceFrom (h : (c, true) ∈ traceFrom D P d r t) : D c := by
  induction t generalizing d r
  case nil => contradiction
  case cons x t hi =>
    rw [traceFrom] at h
    split at h
    case isTrue hcut =>
      cases List.mem_cons.mp h
      case inl h => exact (Prod.mk.inj h).1 ▸ hcut.2.2.1
      case inr h => exact hi h
    case isFalse => exact hi (List.mem_of_ne_of_mem (by simp) h)

-- By induction on the text in front of the place: a cut closes the piece so far, all else becomes part of it.
theorem traceFrom_getElem : (traceFrom D P d r (s ++ c :: u))[s.length]?.any (·.2) ↔
    Divides D P (d + nesting s)
      (behindMark (unmarked r.reverse ++ (traceFrom D P d r (s ++ c :: u)).take s.length)).reverse c u := by
  induction s generalizing d r
  case nil =>
    have hd : d + nesting [] = d := Int.add_zero d
    rw [List.nil_append, List.length_nil, List.take_zero, List.append_nil, behindMark_unmarked, List.reverse_reverse, hd,
      traceFrom]
    split
    case isTrue h => simp [h]
    case isFalse h => simp [h]
  case cons a s hi =>
    rw [List.cons_append, traceFrom, nesting_cons a s, ← Int.add_assoc]
    split
    case isTrue h =>
      obtain ⟨ho, hc, -, hd, -⟩ := h
      have hs := hi (d := 0) (r := [])
      rw [List.length_cons, List.getElem?_cons_succ, List.take_succ_cons, behindMark_append, hs, hd, nesting_other ho hc]
      rfl
    case isFalse =>
      have hs := hi (d := d + nesting [a]) (r := a :: r)
      rw [List.length_cons, List.getElem?_cons_succ, List.take_succ_cons, hs]
      simp [unmarked]

theorem isCutAt_iff_divides : isCutAt (cut D P (s ++ c :: u)) s.length ↔
    Divides D P (nesting s) (sinceCut (cut D P (s ++ c :: u)) s.length).reverse c u := by
  have h := traceFrom_getElem (D := D) (P := P) (d := 0) (r := []) (s := s) (c := c) (u := u)
  rw [Int.zero_add] at h
  rw [isCutAt, sinceCut, trace_cut]
  exact h

theorem isCut_iff : IsCut D P s x c u ↔ Divides D P (nesting s) x.reverse c u := by
  have hn : nesting s = 0 ↔ s.count '(' = s.count ')' := by
    rw [nesting]
    omega
  have hp : isProtected c x.reverse u ↔ c = '/' ∧ u.head?.any isAsciiDigit ∧ EndsInExponent x := by
    rw [isProtected, Bool.and_eq_true, Bool.and_eq_true, endsInExponent_iff, beq_iff_eq, and_assoc]
    rfl
  constructor
  case mp =>
    rintro ⟨hD, ho, hc, hd, h⟩
    exact ⟨ho, hc, hD, hn.mpr hd, by rwa [hp]⟩
  case mpr =>
    rintro ⟨ho, hc, hD, hd, h⟩
    exact ⟨hD, ho, hc, hn.mp hd, by rwa [← hp]⟩

theorem delimiters_cutFrom : ∃ x rest, cutFrom D P o d r t = ⟨o, x⟩ :: rest ∧ ∀ p ∈ rest, p.delimiter.isSome := by
  induction t generalizing o d r
  case nil => exact ⟨r.reverse, [], rfl, List.forall_mem_nil _⟩
  case cons c t hi =>
    rw [cutFrom_cons]
    split
    case isFalse => exact hi
    case isTrue =>
      obtain ⟨x, rest, h, hrest⟩ := hi (o := some c) (d := 0) (r := [])
      exact ⟨r.reverse, _, rfl, h ▸ List.forall_mem_cons.mpr ⟨rfl, hrest⟩⟩

-- Where a piece ends, it has closed what it opened.
theorem isBalanced_of_mem_cutFrom {p : Piece} (h : isBalanced 0 (r.reverse ++ t)) (hd : nesting r.reverse = d)
    (hp : p ∈ cutFrom D P o d r t) : isBalanced 0 p.text := by
  induction t generalizing o d r
  case nil =>
    rw [cutFrom, List.mem_singleton] at hp
    rw [hp]
    simpa using h
  case cons c t hi =>
    rw [cutFrom_cons] at hp
    split at hp
    case isFalse =>
      refine hi (by simpa using h) ?_ hp
      rw [← hd, List.reverse_cons, nesting_append]
    case isTrue hcut =>
      obtain ⟨ho, hc, -, hz, -⟩ := hcut
      obtain ⟨hr, ht⟩ := isBalanced_parts h (hd.trans hz)
      cases List.mem_cons.mp hp
      case inl hp => exact hp ▸ hr
      case inr hp => exact hi (r := []) (by rwa [isBalanced_other ho hc] at ht) rfl hp

theorem cut_isCutting (D : Char → Bool) (P : Bool) (t : List Char) : IsCutting D P t (cut D P t) := by
  constructor
  case lossless => rw [flatMap_chars, trace_cut, map_fst_traceFrom]
  case delimiters => exact delimiters_cutFrom
  case exact =>
    intro s c u ht
    rw [ht, isCutAt_iff_divides, isCut_iff]
  case balanced =>
    intro h p hp
    exact isBalanced_of_mem_cutFrom (r := []) h rfl hp

theorem unmarked_append_inj (hl : l.head?.any (!·.2) = false) (hm : m.head?.any (!·.2) = false)
    (h : unmarked s ++ l = unmarked t ++ m) : s = t ∧ l = m := by
  have hmark (t : List Char) : ∀ a ∈ unmarked t, !a.2 := by simp [unmarked]
  obtain ⟨hs, hl⟩ := takeWhile_append_of_head (hmark s) hl
  obtain ⟨ht, hm⟩ := takeWhile_append_of_head (hmark t) hm
  rw [h, ht] at hs
  rw [h, hm] at hl
  exact ⟨by rw [← map_fst_unmarked s, ← hs, map_fst_unmarked], hl.symm⟩

theorem head?_trace (h : ∀ p ∈ ps, p.delimiter.isSome) : (trace ps).head?.any (!·.2) = false := by
  cases ps
  case nil => rfl
  case cons p ps =>
    obtain ⟨c, hc⟩ := Option.isSome_iff_exists.mp (h p List.mem_cons_self)
    simp [trace_cons, hc]

-- Pieces with delimiters can be told from what they are made of.
theorem trace_inj (hp : ∀ p ∈ ps, p.delimiter.isSome) (hq : ∀ p ∈ qs, p.delimiter.isSome) (h : trace ps = trace qs) :
    ps = qs := by
  have hsome (p : Piece) (h : p.delimiter.isSome) : ∃ c t, p = ⟨some c, t⟩ := by
    obtain ⟨c, hc⟩ := Option.isSome_iff_exists.mp h
    exact ⟨c, p.text, by rw [← hc]⟩
  induction ps generalizing qs
  case nil =>
    cases qs
    case nil => rfl
    case cons q qs =>
      obtain ⟨c, t, rfl⟩ := hsome q (hq q List.mem_cons_self)
      contradiction
  case cons p ps hi =>
    obtain ⟨hd, hps⟩ := List.forall_mem_cons.mp hp
    obtain ⟨c, s, rfl⟩ := hsome p hd
    cases qs
    case nil => contradiction
    case cons q qs =>
      obtain ⟨hd, hqs⟩ := List.forall_mem_cons.mp hq
      obtain ⟨c', t, rfl⟩ := hsome q hd
      rw [trace_cons, trace_cons] at h
      obtain ⟨hc, h⟩ := List.cons.inj h
      obtain ⟨hst, h⟩ := unmarked_append_inj (s := s) (t := t) (head?_trace hps) (head?_trace hqs) h
      rw [hst, (Prod.mk.inj hc).1, hi hps hqs h]

theorem getElem?_trace (h : ps.flatMap Piece.chars = t) (k : Nat) : (trace ps)[k]? = t[k]?.map (·, isCutAt ps k) := by
  have hk : (trace ps)[k]?.map (·.1) = t[k]? := by rw [← List.getElem?_map, ← flatMap_chars, h]
  rw [← hk, isCutAt]
  cases (trace ps)[k]? <;> rfl

namespace IsCutting

-- By induction on the number of places: whether the next one is a cut is told by the ones before.
theorem take_trace (h : IsCutting D P t ps) (h' : IsCutting D P t qs) (k : Nat) :
    (trace ps).take k = (trace qs).take k := by
  induction k
  case zero => rfl
  case succ k hi =>
    rw [List.take_add_one, List.take_add_one, hi, getElem?_trace h.lossless, getElem?_trace h'.lossless]
    cases ht : t[k]?
    case none => rfl
    case some c =>
      obtain ⟨s, u, hs, hk⟩ := exists_of_getElem? ht
      have hcut : isCutAt ps k = isCutAt qs k := by
        rw [Bool.eq_iff_iff, ← hk, h.exact s c u hs, h'.exact s c u hs, sinceCut, sinceCut, hk, hi]
      rw [hcut]

-- No text is cut in two ways.
theorem unique (h : IsCutting D P t ps) (h' : IsCutting D P t qs) : ps = qs := by
  have htrace : trace ps = trace qs := by
    have hk := h.take_trace h' ((trace ps).length + (trace qs).length)
    rwa [List.take_of_length_le (by omega), List.take_of_length_le (by omega)] at hk
  obtain ⟨x, ps, rfl, hp⟩ := h.delimiters
  obtain ⟨y, qs, rfl, hq⟩ := h'.delimiters
  obtain ⟨hxy, hrest⟩ := unmarked_append_inj (s := x) (t := y) (head?_trace hp) (head?_trace hq) htrace
  rw [hxy, trace_inj hp hq hrest]

end IsCutting

end Metrology.Expression
