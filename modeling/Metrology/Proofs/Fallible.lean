import Metrology.Error

/-!
Computations that may fail: what their steps did, read off how they ended.
-/

namespace Metrology

variable {β γ σ : Type} {c : γ} {e : Error} {x : Except Error β} {f : β → Except Error γ} {numbers : List Rat}

theorem exists_of_isOk (h : x.isOk) : ∃ b, x = .ok b := by
  cases x
  case error => contradiction
  case ok b => exact ⟨b, rfl⟩

theorem exists_of_toOption {g : β → γ} (h : x.toOption.map g = some c) : ∃ b, x = .ok b ∧ g b = c := by
  cases x
  case error => contradiction
  case ok b => exact ⟨b, rfl, Option.some.inj h⟩

theorem eq_ok_get (h : x.toOption.isSome) : x = .ok (x.toOption.get h) := by
  cases x
  case error => contradiction
  case ok => rfl

theorem exists_of_bind_ok (h : x >>= f = .ok c) : ∃ b, x = .ok b ∧ f b = .ok c := by
  cases x
  case error => contradiction
  case ok b => exact ⟨b, rfl, h⟩

theorem bind_eq_error (h : x >>= f = .error e) : x = .error e ∨ ∃ b, x = .ok b ∧ f b = .error e := by
  cases x
  case error =>
    cases h
    exact .inl rfl
  case ok b => exact .inr ⟨b, rfl, h⟩

-- Numbers fail to be written for one that is too long, and for that only.
theorem requireWritable_cases (numbers : List Rat) :
    Error.requireWritable numbers = .ok () ∨ Error.requireWritable numbers = .error .integerTooLong := by
  rw [Error.requireWritable]
  split
  case isTrue => exact .inl rfl
  case isFalse => exact .inr rfl

theorem exists_of_requireWritable (h : Error.requireWritable numbers = .error e) :
    ∃ q ∈ numbers, DigitBound.standard.admitsRat q = false := by
  rw [Error.requireWritable] at h
  split at h
  case isTrue => contradiction
  case isFalse hn => simpa using hn

theorem requireWritable_tooLong {q : Rat} (hq : q ∈ numbers) (h : DigitBound.standard.admitsRat q = false) :
    Error.requireWritable numbers = .error .integerTooLong :=
  if_neg fun hall => Bool.false_ne_true (h ▸ List.all_eq_true.1 hall q hq)

theorem admitsRat_of_requireWritable {q : Rat} (h : Error.requireWritable numbers = .ok ())
    (hq : q ∈ numbers) : DigitBound.standard.admitsRat q := by
  rw [Error.requireWritable] at h
  split at h
  case isTrue hall => exact List.all_eq_true.1 hall q hq
  case isFalse => contradiction

-- A fold that fails does so at some step, behind others that succeeded.
theorem exists_of_foldlM_error {g : σ → β → Except Error σ} {bs : List β} {s : σ} (h : bs.foldlM g s = .error e) :
    ∃ before b after s', bs = before ++ b :: after ∧ before.foldlM g s = .ok s' ∧ g s' b = .error e := by
  induction bs generalizing s
  case nil => contradiction
  case cons b rest hi =>
    rw [List.foldlM_cons] at h
    rcases bind_eq_error h with hb | ⟨between, hb, h⟩
    case inl => exact ⟨[], b, rest, s, rfl, rfl, hb⟩
    case inr =>
      obtain ⟨before, c, after, s', hrest, hbefore, hc⟩ := hi h
      refine ⟨b :: before, c, after, s', congrArg _ hrest, ?_, hc⟩
      rw [List.foldlM_cons, hb]
      exact hbefore

-- What every step of a fold keeps is kept by the whole.
theorem foldlM_preserves {g : σ → β → Except Error σ} {P : σ → Prop} {bs : List β} {s s' : σ}
    (h : bs.foldlM g s = .ok s') (hs : P s) (hg : ∀ b ∈ bs, ∀ {s s'}, g s b = .ok s' → P s → P s') : P s' := by
  induction bs generalizing s
  case nil =>
    cases h
    exact hs
  case cons b rest hi =>
    obtain ⟨hb, hrest⟩ := List.forall_mem_cons.1 hg
    rw [List.foldlM_cons] at h
    obtain ⟨between, hfirst, h⟩ := exists_of_bind_ok h
    exact hi h (hb hfirst hs) hrest

-- Folds whose steps agree on what they are made over agree.
theorem foldlM_congr {g g' : σ → β → Except Error σ} {bs : List β} (h : ∀ b ∈ bs, ∀ s, g s b = g' s b) (s : σ) :
    bs.foldlM g s = bs.foldlM g' s := by
  induction bs generalizing s
  case nil => rfl
  case cons b rest hi =>
    obtain ⟨hb, hrest⟩ := List.forall_mem_cons.1 h
    rw [List.foldlM_cons, List.foldlM_cons, hb]
    exact congrArg _ (funext fun s' => hi hrest s')

-- A fold that does to a state what is known of its steps one by one does it with all that they stand for.
theorem foldlM_collects {δ : Type} {g : σ → β → Except Error σ} {f : β → List δ} {P : σ → List δ → Prop} {bs : List β}
    {s s' : σ} {past : List δ} (h : bs.foldlM g s = .ok s') (hs : P s past)
    (hg : ∀ b ∈ bs, ∀ {s s' past}, g s b = .ok s' → P s past → P s' (past ++ f b)) : P s' (past ++ bs.flatMap f) := by
  induction bs generalizing s past
  case nil =>
    cases h
    rwa [List.flatMap_nil, List.append_nil]
  case cons b rest hi =>
    obtain ⟨hb, hrest⟩ := List.forall_mem_cons.1 hg
    rw [List.foldlM_cons] at h
    obtain ⟨between, hfirst, h⟩ := exists_of_bind_ok h
    rw [List.flatMap_cons, ← List.append_assoc]
    exact hi h (hb hfirst hs) hrest

end Metrology
