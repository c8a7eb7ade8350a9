import ChatRooms.Proofs.Json.Strings

namespace ChatRooms.Json

variable {text rest digits fraction exponent : List Char} {n : Nat}

def EndsNumber (rest : List Char) : Prop :=
  ∀ c ∈ rest.head?, isDigit c = false ∧ c ≠ '.' ∧ isExponentLetter c = false

theorem EndsNumber.cons {c : Char} (hdigit : isDigit c = false) (hpoint : c ≠ '.')
    (hletter : isExponentLetter c = false) : EndsNumber (c :: rest) := by
  rintro _ ⟨⟩
  exact ⟨hdigit, hpoint, hletter⟩

theorem EndsNumber.blanks {gap : List Char} (h : IsGap gap) (hrest : EndsNumber rest) :
    EndsNumber (gap ++ rest) := by
  cases gap with
  | nil => exact hrest
  | cons c gap =>
    have hblank := h c (List.mem_cons_self ..)
    simp only [isBlank, Bool.or_eq_true, decide_eq_true_eq] at hblank
    obtain ((rfl | rfl) | rfl) | rfl := hblank <;> exact .cons rfl (by decide) rfl

theorem digitRun_append (h : IsDigits digits) (hrest : ∀ c ∈ rest.head?, isDigit c = false) :
    digitRun (digits ++ rest) = .ok (digits, rest) := by
  obtain ⟨hne, hall⟩ := h
  have htake : (digits ++ rest).takeWhile isDigit = digits := by
    rw [List.takeWhile_append_of_pos hall]
    cases rest with
    | nil => exact List.append_nil digits
    | cons c rest => rw [List.takeWhile_cons_of_neg (by simp [hrest c rfl]), List.append_nil]
  have hdrop : (digits ++ rest).dropWhile isDigit = rest := by
    rw [List.dropWhile_append_of_pos hall]
    cases rest with
    | nil => rfl
    | cons c rest => exact List.dropWhile_cons_of_neg (by simp [hrest c rfl])
  obtain ⟨c, more, rfl⟩ := List.exists_cons_of_ne_nil hne
  rw [digitRun.eq_def, htake, hdrop]
  exact if_pos (hall c (List.mem_cons_self ..))

theorem integerPart_append (h : IsWhole digits) (hrest : ∀ c ∈ rest.head?, isDigit c = false) :
    integerPart (digits ++ rest) = .ok (digits, rest) := by
  obtain ⟨hdigits, hzero⟩ := h
  rw [integerPart, digitRun_append hdigits hrest]
  simp only [bind, Except.bind]
  -- A zero in front of other digits is refused, and there is none.
  split
  next heq => cases hzero rfl
  next => rfl

theorem skipDigitRun_append (h : IsDigits digits) (hrest : ∀ c ∈ rest.head?, isDigit c = false) :
    skipDigitRun (digits ++ rest) = .ok rest := by
  rw [skipDigitRun, digitRun_append h hrest]

theorem eq_of_isExponentLetter {c : Char} (h : isExponentLetter c = true) : c = 'e' ∨ c = 'E' := by
  simpa only [isExponentLetter, Bool.or_eq_true, decide_eq_true_eq] using h

/-- What an exponent starts with, if there is one, is neither a digit nor a point. -/
theorem IsExponent.head (h : IsExponent exponent) (hrest : EndsNumber rest) :
    ∀ c ∈ (exponent ++ rest).head?, isDigit c = false ∧ c ≠ '.' := by
  cases h with
  | none => exact fun c hc => ⟨(hrest c hc).1, (hrest c hc).2.1⟩
  | some hletter =>
    rintro _ ⟨⟩
    obtain rfl | rfl := eq_of_isExponentLetter hletter <;> exact ⟨rfl, by decide⟩

theorem skipExponent_of_no_letter (h : ∀ c ∈ rest.head?, isExponentLetter c = false) :
    skipExponent rest = .ok rest := by
  cases rest with
  | nil => rfl
  | cons c rest =>
    rw [skipExponent.eq_def]
    exact if_neg (ne_true_of_eq_false (h c rfl))

theorem skipNumber_of_no_point (h : integerPart text = .ok (digits, rest))
    (hpoint : ∀ tail, rest ≠ '.' :: tail) : skipNumber text = skipExponent rest := by
  rw [skipNumber, h]
  split
  next heq => cases heq
  next heq => exact absurd (Prod.mk.inj (Except.ok.inj heq)).2 (hpoint _)
  next heq =>
    cases heq
    rfl

theorem skipExponent_append (h : IsExponent exponent) (hrest : EndsNumber rest) :
    skipExponent (exponent ++ rest) = .ok rest := by
  cases h with
  | none => exact skipExponent_of_no_letter fun c hc => (hrest c hc).2.2
  | @some letter sign digits hletter hsign hdigits =>
    have hrun := skipDigitRun_append hdigits fun c hc => (hrest c hc).1
    obtain ⟨c, more, rfl⟩ := List.exists_cons_of_ne_nil hdigits.1
    have hdigit := hdigits.2 c (List.mem_cons_self ..)
    rw [List.cons_append, skipExponent.eq_def, List.append_assoc]
    dsimp only
    rw [if_pos hletter]
    rcases hsign with rfl | rfl | rfl
    · rw [List.nil_append]
      split
      next heq =>
        cases heq
        cases hdigit
      next heq =>
        cases heq
        cases hdigit
      next => exact hrun
    · exact hrun
    · exact hrun

theorem skipNumber_append (h : IsNumber text) (hrest : EndsNumber rest) :
    skipNumber (text ++ rest) = .ok rest := by
  obtain ⟨hwhole, hfraction, hexponent⟩ := h
  have hhead := hexponent.head hrest
  have hskip := skipExponent_append hexponent hrest
  rw [List.append_assoc, List.append_assoc]
  cases hfraction with
  | none =>
    rw [List.nil_append, ← hskip]
    refine skipNumber_of_no_point (integerPart_append hwhole fun c hc => (hhead c hc).1) ?_
    intro tail htail
    exact absurd rfl (hhead '.' (by rw [htail]; rfl)).2
  | some hdigits =>
    rw [List.cons_append, skipNumber, integerPart_append hwhole (by rintro _ ⟨⟩; rfl)]
    show (skipDigitRun _ >>= skipExponent) = _
    rw [skipDigitRun_append hdigits fun c hc => (hhead c hc).1]
    exact hskip

theorem le_foldl_digits (digits : List Char) (n : Nat) :
    n ≤ digits.foldl (fun n c => n * 10 + digitValue c) n := by
  induction digits generalizing n with
  | nil => exact Nat.le_refl n
  | cons c digits ih => exact Nat.le_trans (by omega) (ih (n * 10 + digitValue c))

/-- A number below the limit is read to its end: no digit before it can have passed the limit. -/
theorem accumulate_of_lt
    (h : digits.foldl (fun n c => n * 10 + digitValue c) n < wordLimit) :
    accumulate n digits = (digits.foldl (fun n c => n * 10 + digitValue c) n, []) := by
  induction digits generalizing n with
  | nil => rfl
  | cons c digits ih =>
    have hnext := Nat.lt_of_le_of_lt (le_foldl_digits digits (n * 10 + digitValue c)) h
    rw [accumulate, if_pos hnext]
    exact ih h

theorem readNumber_append (h : IsWhole digits) (hlimit : natOfDigits digits < wordLimit)
    (hrest : EndsNumber rest) :
    readNumber false (digits ++ rest) = .ok (.natural (natOfDigits digits), rest) := by
  have hletter : rest.head?.any isExponentLetter = false := by
    cases rest with
    | nil => rfl
    | cons c rest => exact (hrest c rfl).2.2
  rw [readNumber, integerPart_append h fun c hc => (hrest c hc).1]
  simp only [bind, Except.bind]
  rw [accumulate_of_lt (n := 0) hlimit, hletter]
  split
  next => exact absurd rfl (hrest '.' rfl).2.1
  next => rfl

theorem inexact_ne_natural {significand : Nat} {exponent : Int} :
    inexact significand exponent text ≠ .ok (.natural n, rest) := by
  unfold inexact
  split <;> simp

theorem scaled_ne_natural {significand : Nat} {exponent : Int} :
    scaled significand exponent text ≠ .ok (.natural n, rest) := by
  unfold scaled
  split
  next => exact inexact_ne_natural
  next =>
    split
    next =>
      intro h
      obtain ⟨_, -, h⟩ := exists_of_bind_ok h
      exact inexact_ne_natural h
    next => exact inexact_ne_natural

theorem skipNumber_of_readNumber {negative : Bool}
    (h : readNumber negative text = .ok (.natural n, rest)) : skipNumber text = .ok rest := by
  obtain ⟨⟨whole, after⟩, hwhole, h⟩ := exists_of_bind_ok h
  dsimp only at h
  split at h
  next =>
    obtain ⟨_, -, h⟩ := exists_of_bind_ok h
    exact absurd h scaled_ne_natural
  next hpoint =>
    split at h
    next hplain =>
      cases h
      simp only [Bool.and_eq_true, Bool.not_eq_true', Option.any_eq_false] at hplain
      rw [skipNumber_of_no_point hwhole hpoint]
      exact skipExponent_of_no_letter fun c hc => hplain.2 c hc
    next => exact absurd h scaled_ne_natural

end ChatRooms.Json
