import Mathlib.Data.List.DropRight
import ChatRooms.Proofs.Json.Grammar

namespace ChatRooms.Json

variable {text rest gap digits body cs : List Char} {c : Char} {n : Nat}

theorem exists_of_bind_ok {α β : Type} {read : Except JsonFlaw α} {next : α → Except JsonFlaw β}
    {b : β} (h : read >>= next = .ok b) : ∃ a, read = .ok a ∧ next a = .ok b := by
  cases read with
  | error => cases h
  | ok a => exact ⟨a, rfl, h⟩

theorem IsGap.nil : IsGap [] :=
  nofun

theorem skipBlanks_append (h : IsGap gap) (text : List Char) :
    skipBlanks (gap ++ text) = skipBlanks text :=
  List.dropWhile_append_of_pos h

theorem skipBlanks_cons (h : isBlank c = false) (rest : List Char) :
    skipBlanks (c :: rest) = c :: rest :=
  List.dropWhile_cons_of_neg (ne_true_of_eq_false h)

theorem skipBlanks_skipBlanks (text : List Char) : skipBlanks (skipBlanks text) = skipBlanks text :=
  List.dropWhile_idempotent isBlank text

theorem writesString_self (h : cs.all (IsPlain ·) = true) : WritesString cs cs := by
  induction cs with
  | nil => exact .nil
  | cons c cs ih =>
    rw [List.all_cons, Bool.and_eq_true, decide_eq_true_eq] at h
    exact .cons (.plain h.1) (ih h.2)

theorem fourHexDigits_append (h : WritesUnit digits n) (rest : List Char) :
    fourHexDigits (digits ++ rest) = .ok (n, rest) := by
  cases h with
  | digits ha hb hc hd => simp [fourHexDigits, ha, hb, hc, hd]

theorem not_surrogate (c : Char) :
    isTrailingSurrogate c.toNat = false ∧ isLeadingSurrogate c.toNat = false := by
  have hvalid : c.toNat < 0xD800 ∨ 0xDFFF < c.toNat ∧ c.toNat < 0x110000 := c.valid
  simp only [isTrailingSurrogate, isLeadingSurrogate, Bool.and_eq_false_iff, decide_eq_false_iff_not]
  omega

theorem unicodeEscape_unit (h : WritesUnit digits c.toNat) (rest : List Char) :
    unicodeEscape (digits ++ rest) = .ok (c, rest) := by
  obtain ⟨htrailing, hleading⟩ := not_surrogate c
  simp [unicodeEscape, fourHexDigits_append h, htrailing, hleading, bind, Except.bind]

theorem unicodeEscape_pair {high low : List Char} (hc : c.toNat = 0x10000 + n)
    (hhigh : WritesUnit high (0xD800 + n / 0x400)) (hlow : WritesUnit low (0xDC00 + n % 0x400))
    (rest : List Char) :
    unicodeEscape (high ++ '\\' :: 'u' :: (low ++ rest)) = .ok (c, rest) := by
  have hvalid : c.toNat < 0xD800 ∨ 0xDFFF < c.toNat ∧ c.toNat < 0x110000 := c.valid
  -- There are not so many characters that the leading half could run into the trailing ones.
  have hn : n / 0x400 < 0x400 := by omega
  have hnot : isTrailingSurrogate (0xD800 + n / 0x400) = false := by
    simp only [isTrailingSurrogate, Bool.and_eq_false_iff, decide_eq_false_iff_not]
    omega
  have hleading : isLeadingSurrogate (0xD800 + n / 0x400) = true := by
    simp only [isLeadingSurrogate, Bool.and_eq_true, decide_eq_true_eq]
    omega
  have htrailing : isTrailingSurrogate (0xDC00 + n % 0x400) = true := by
    simp only [isTrailingSurrogate, Bool.and_eq_true, decide_eq_true_eq]
    omega
  have hsum : 0x10000 + n / 0x400 * 0x400 + n % 0x400 = c.toNat := by omega
  simp [unicodeEscape, fourHexDigits_append hhigh, hnot, hleading, trailingSurrogate,
    fourHexDigits_append hlow, htrailing, bind, Except.bind, hsum]

theorem nextInString_append (h : WritesChar text c) (rest : List Char) :
    nextInString (text ++ rest) = .ok (some c, rest) := by
  cases h with
  | plain h =>
    obtain ⟨hquote, hslash, hcontrol⟩ := h
    simp [nextInString, Nat.not_lt.2 hcontrol]
  | @letter letter _ h =>
    have hu : letter ≠ 'u' := by
      rintro rfl
      cases h
    simp [nextInString, escape, h, bind, Except.bind]
  | unit h => simp [nextInString, escape, unicodeEscape_unit h, bind, Except.bind]
  | pair hc hhigh hlow =>
    simp [nextInString, escape, unicodeEscape_pair hc hhigh hlow, bind, Except.bind]

theorem readString_eq (text : List Char) : readString text =
    match nextInString text with
    | .error flaw => .error flaw
    | .ok (none, rest) => .ok ([], rest)
    | .ok (some c, rest) => (readString rest).map fun (cs, rest) => (c :: cs, rest) := by
  rw [readString]
  split <;> rename_i heq <;> simp only [heq]
  cases readString _ <;> rfl

theorem readString_append (h : WritesString body cs) (rest : List Char) :
    readString (body ++ '"' :: rest) = .ok (cs, rest) := by
  induction h with
  | nil =>
    rw [List.nil_append, readString_eq]
    rfl
  | cons hc _ ih =>
    rw [readString_eq, List.append_assoc, nextInString_append hc]
    dsimp only
    rw [ih]
    rfl

theorem WritesString.isString (h : WritesString body cs) : IsString body := by
  induction h with
  | nil => exact .nil
  | cons hc _ ih =>
    cases hc with
    | plain h => exact .plain h ih
    | letter h => exact .letter h ih
    | unit h => exact .unit h ih
    | pair _ hhigh hlow =>
      rw [List.cons_append, List.cons_append, List.append_assoc]
      exact .unit hhigh (.unit hlow ih)

theorem skipString_eq (text : List Char) : skipString text =
    match skipInString text with
    | .error flaw => .error flaw
    | .ok (true, rest) => .ok rest
    | .ok (false, rest) => skipString rest := by
  rw [skipString]
  split <;> rename_i heq <;> simp only [heq]

theorem skipInString_plain (h : IsPlain c) (rest : List Char) :
    skipInString (c :: rest) = .ok (false, rest) := by
  obtain ⟨hquote, hslash, hcontrol⟩ := h
  simp [skipInString, hslash, Nat.not_lt.2 hcontrol]

theorem skipString_unit (h : WritesUnit digits n) (rest : List Char) :
    skipString ('\\' :: 'u' :: (digits ++ rest)) = skipString rest := by
  rw [skipString_eq]
  simp [skipInString, fourHexDigits_append h, bind, Except.bind]

theorem skipString_letter {letter : Char} (h : simpleEscape letter = some c) (rest : List Char) :
    skipString ('\\' :: letter :: rest) = skipString rest := by
  have hu : letter ≠ 'u' := by
    rintro rfl
    cases h
  rw [skipString_eq]
  simp [skipInString, h]

theorem skipString_plain (h : IsPlain c) (rest : List Char) :
    skipString (c :: rest) = skipString rest := by
  rw [skipString_eq, skipInString_plain h]

theorem skipString_append (h : IsString body) (rest : List Char) :
    skipString (body ++ '"' :: rest) = .ok rest := by
  induction h with
  | nil =>
    rw [List.nil_append, skipString_eq]
    rfl
  | plain hc _ ih => rw [List.cons_append, skipString_plain hc, ih]
  | letter hletter _ ih => rw [List.cons_append, List.cons_append, skipString_letter hletter, ih]
  | unit hdigits _ ih =>
    rw [List.cons_append, List.cons_append, List.append_assoc, skipString_unit hdigits, ih]

theorem skipInString_of_quote (h : nextInString text = .ok (none, rest)) :
    skipInString text = .ok (true, rest) := by
  unfold nextInString at h
  split at h
  next => cases h
  next =>
    cases h
    rfl
  next =>
    obtain ⟨_, -, h⟩ := exists_of_bind_ok h
    cases h
  next => split at h <;> cases h

theorem fourHexDigits_cases (h : fourHexDigits text = .ok (n, rest)) :
    ∃ digits, WritesUnit digits n ∧ text = digits ++ rest := by
  unfold fourHexDigits at h
  rcases text with _ | ⟨a, _ | ⟨b, _ | ⟨c, _ | ⟨d, tail⟩⟩⟩⟩ <;> simp only at h <;>
    try (split at h <;> cases h)
  split at h
  next found hfound =>
    simp only [Option.bind_eq_bind, Option.bind_eq_some_iff, Option.some.injEq] at hfound
    obtain ⟨w, ha, x, hb, y, hc, z, hd, rfl⟩ := hfound
    simp only [Except.ok.injEq, Prod.mk.injEq] at h
    obtain ⟨rfl, rfl⟩ := h
    exact ⟨[a, b, c, d], .digits ha hb hc hd, rfl⟩
  next => split at h <;> cases h

theorem trailingSurrogate_cases (h : trailingSurrogate text = .ok (n, rest)) :
    ∃ digits, WritesUnit digits n ∧ text = '\\' :: 'u' :: (digits ++ rest) := by
  unfold trailingSurrogate at h
  split at h
  next => cases h
  next => cases h
  next =>
    obtain ⟨⟨_, _⟩, hread, hnext⟩ := exists_of_bind_ok h
    obtain ⟨digits, hdigits, rfl⟩ := fourHexDigits_cases hread
    dsimp only at hnext
    split at hnext
    next =>
      cases hnext
      exact ⟨digits, hdigits, rfl⟩
    next => cases hnext
  next => cases h

theorem skipString_of_unicodeEscape (h : unicodeEscape text = .ok (c, rest)) :
    skipString ('\\' :: 'u' :: text) = skipString rest := by
  obtain ⟨⟨_, _⟩, hread, hnext⟩ := exists_of_bind_ok h
  obtain ⟨digits, hdigits, rfl⟩ := fourHexDigits_cases hread
  rw [skipString_unit hdigits]
  dsimp only at hnext
  split at hnext
  next => cases hnext
  split at hnext
  next =>
    obtain ⟨⟨_, _⟩, hlow, hpair⟩ := exists_of_bind_ok hnext
    obtain ⟨digits, hdigits, rfl⟩ := trailingSurrogate_cases hlow
    rw [skipString_unit hdigits]
    exact congrArg skipString (Prod.mk.inj (Except.ok.inj hpair)).2
  next =>
    cases hnext
    rfl

theorem skipString_of_escape (h : escape text = .ok (c, rest)) :
    skipString ('\\' :: text) = skipString rest := by
  unfold escape at h
  split at h
  next => cases h
  next => exact skipString_of_unicodeEscape h
  next =>
    split at h
    next hletter =>
      cases h
      exact skipString_letter hletter _
    next => cases h

theorem skipString_of_nextInString (h : nextInString text = .ok (some c, rest)) :
    skipString text = skipString rest := by
  unfold nextInString at h
  split at h
  next => cases h
  next => cases h
  next =>
    obtain ⟨_, hescape, h⟩ := exists_of_bind_ok h
    cases h
    exact skipString_of_escape hescape
  next hquote hslash =>
    split at h
    next => cases h
    next hcontrol =>
      cases h
      exact skipString_plain ⟨hquote, hslash, Nat.not_lt.1 hcontrol⟩ rest

theorem skipString_of_readString (h : readString text = .ok (cs, rest)) :
    skipString text = .ok rest := by
  fun_induction readString text generalizing cs with
  | case1 => cases h
  | case2 text rest' hn =>
    cases h
    rw [skipString_eq, skipInString_of_quote hn]
  | case3 => cases h
  | case4 text c tail hn _ more rest' hr ih =>
    cases h
    -- A pair of surrogates is read at once and skipped in two steps: only the rests agree.
    rw [skipString_of_nextInString hn, ih hr]

end ChatRooms.Json
