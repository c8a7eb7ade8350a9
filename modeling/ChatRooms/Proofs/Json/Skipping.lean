import ChatRooms.Proofs.Json.Numbers

namespace ChatRooms.Json

variable {text rest gap : List Char} {stack : List Bracket} {bracket : Bracket} {c : Char}

/-- Goes on after a value, up to the end of the outermost one. -/
def resume (stack : List Bracket) (text : List Char) : Except JsonFlaw (List Char) :=
  match closeBrackets stack text with
  | .error flaw => .error flaw
  | .ok ([], rest) => .ok rest
  | .ok (bracket :: stack, rest) => skipWithin (bracket :: stack) rest

def skipItems (bracket : Bracket) (stack : List Bracket) (text : List Char) :
    Except JsonFlaw (List Char) := do
  skipWithin (bracket :: stack) (← beforeValue bracket text)

theorem skipWithin_eq (stack : List Bracket) (text : List Char) : skipWithin stack text =
    match openValue text with
    | .error flaw => .error flaw
    | .ok (some bracket, rest) => skipWithin (bracket :: stack) rest
    | .ok (none, rest) => resume stack rest := by
  rw [skipWithin]
  split <;> rename_i heq <;> simp only [heq]
  rw [resume]
  split <;> rename_i heq <;> simp only [heq]

theorem skipWithin_of_whole (h : openValue text = .ok (none, rest)) :
    skipWithin stack text = resume stack rest := by
  rw [skipWithin_eq, h]

theorem openValue_congr {text' : List Char} (h : skipBlanks text = skipBlanks text') :
    openValue text = openValue text' := by
  rw [openValue, openValue, h]

theorem skipKey_congr {text' : List Char} (h : skipBlanks text = skipBlanks text') :
    skipKey text = skipKey text' := by
  rw [skipKey, skipKey, h]

theorem skipWithin_congr {text' : List Char} (h : skipBlanks text = skipBlanks text') :
    skipWithin stack text = skipWithin stack text' := by
  rw [skipWithin_eq, skipWithin_eq stack text', openValue_congr h]

theorem skipItems_congr {text' : List Char} (h : skipBlanks text = skipBlanks text') :
    skipItems bracket stack text = skipItems bracket stack text' := by
  cases bracket with
  | array => exact skipWithin_congr h
  | object => rw [skipItems, skipItems, beforeValue, beforeValue, skipKey_congr h]

theorem openValue_quote (h : skipString text = .ok rest) :
    openValue ('"' :: text) = .ok (none, rest) := by
  show (do .ok (none, ← skipString text)) = _
  rw [h]
  rfl

theorem IsNumber.exists_cons (h : IsNumber text) : ∃ c more, text = c :: more ∧ isDigit c = true := by
  obtain ⟨⟨⟨hne, hall⟩, -⟩, -, -⟩ := h
  obtain ⟨c, more, rfl⟩ := List.exists_cons_of_ne_nil hne
  exact ⟨c, _, rfl, hall c (List.mem_cons_self ..)⟩

theorem not_blank_of_isDigit (h : isDigit c = true) : isBlank c = false := by
  by_contra hblank
  simp only [Bool.not_eq_false, isBlank, Bool.or_eq_true, decide_eq_true_eq] at hblank
  obtain ((rfl | rfl) | rfl) | rfl := hblank <;> cases h

theorem openValue_digit (h : isDigit c = true) (more : List Char) :
    openValue (c :: more) = (do .ok (none, ← skipNumber (c :: more))) := by
  rw [openValue, skipBlanks_cons (not_blank_of_isDigit h)]
  split <;> rename_i heq <;> cases heq
  -- All the other branches expect something that is no digit.
  all_goals first | cases h | exact if_pos h

theorem openValue_number (h : IsNumber text) (hrest : EndsNumber rest) :
    openValue (text ++ rest) = .ok (none, rest) := by
  have hskip := skipNumber_append h hrest
  obtain ⟨c, more, rfl, hdigit⟩ := h.exists_cons
  rw [List.cons_append] at hskip ⊢
  rw [openValue_digit hdigit, hskip]
  rfl

theorem openValue_negative (h : IsNumber text) (hrest : EndsNumber rest) :
    openValue ('-' :: (text ++ rest)) = .ok (none, rest) := by
  show (do .ok (none, ← skipNumber (text ++ rest))) = _
  rw [skipNumber_append h hrest]
  rfl

theorem openValue_opening (bracket : Bracket) (text : List Char) :
    openValue (bracket.opening :: text) = openValue.enter bracket text := by
  cases bracket <;> rfl

theorem closing_not_blank (bracket : Bracket) : isBlank bracket.closing = false := by
  cases bracket <;> rfl

theorem endsNumber_closing (bracket : Bracket) (rest : List Char) :
    EndsNumber (bracket.closing :: rest) := by
  cases bracket <;> exact .cons rfl (by decide) rfl

theorem endsNumber_comma (rest : List Char) : EndsNumber (',' :: rest) :=
  .cons rfl (by decide) rfl

theorem openValue_empty (h : IsGap gap) (rest : List Char) :
    openValue (bracket.opening :: (gap ++ bracket.closing :: rest)) = .ok (none, rest) := by
  rw [openValue_opening, openValue.enter, skipBlanks_append h,
    skipBlanks_cons (closing_not_blank bracket)]
  exact if_pos rfl

theorem skipWithin_opening (h : skipBlanks text = c :: rest) (hc : c ≠ bracket.closing) :
    skipWithin stack (bracket.opening :: text) = skipItems bracket stack text := by
  -- The reader goes on behind the blanks after a bracket, but before those after a comma.
  have hblanks : skipBlanks (c :: rest) = skipBlanks text := by rw [← h, skipBlanks_skipBlanks]
  rw [← skipItems_congr hblanks, skipItems, skipWithin_eq, openValue_opening, openValue.enter, h]
  dsimp only
  rw [if_neg hc]
  cases beforeValue bracket (c :: rest) <;> rfl

theorem resume_closing (h : skipBlanks text = bracket.closing :: rest) :
    resume (bracket :: stack) text = resume stack rest := by
  have hclose : closeBrackets (bracket :: stack) text = closeBrackets stack rest := by
    rw [closeBrackets, h]
    cases bracket <;> exact if_pos rfl
  rw [resume, hclose, resume]

theorem resume_comma (h : IsGap gap) (rest : List Char) :
    resume (bracket :: stack) (gap ++ ',' :: rest) = skipItems bracket stack rest := by
  have hclose : closeBrackets (bracket :: stack) (gap ++ ',' :: rest) =
      (do .ok (bracket :: stack, ← beforeValue bracket rest)) := by
    rw [closeBrackets, skipBlanks_append h]
    rfl
  rw [resume, hclose, skipItems]
  cases beforeValue bracket rest <;> rfl

theorem skipKey_append {before name after : List Char} (hbefore : IsGap before)
    (hname : IsString name) (hafter : IsGap after) (rest : List Char) :
    skipKey (before ++ '"' :: (name ++ '"' :: (after ++ ':' :: rest))) = .ok rest := by
  have hcolon : skipBlanks (after ++ ':' :: rest) = ':' :: rest := by
    rw [skipBlanks_append hafter]
    rfl
  rw [skipKey, skipBlanks_append hbefore, skipBlanks_cons rfl]
  simp only [skipString_append hname, bind, Except.bind, hcolon]

theorem beforeValue_append {lead : List Char} (h : IsLead bracket lead) (rest : List Char) :
    beforeValue bracket (lead ++ rest) = .ok rest := by
  cases h with
  | array => rfl
  | object hbefore hname hafter =>
    simp only [List.append_assoc, List.cons_append, List.nil_append]
    exact skipKey_append hbefore hname hafter rest

/-- A value that is met starts with something that is neither a blank nor the end of an array. -/
theorem IsValue.exists_cons (h : IsValue text) :
    ∃ c more, text = c :: more ∧ isBlank c = false ∧ c ≠ ']' := by
  cases h with
  | null => exact ⟨_, _, rfl, rfl, by decide⟩
  | true => exact ⟨_, _, rfl, rfl, by decide⟩
  | false => exact ⟨_, _, rfl, rfl, by decide⟩
  | string => exact ⟨_, _, rfl, rfl, by decide⟩
  | negative => exact ⟨_, _, rfl, rfl, by decide⟩
  | number htext =>
    obtain ⟨c, more, rfl, hdigit⟩ := htext.exists_cons
    refine ⟨c, more, rfl, not_blank_of_isDigit hdigit, ?_⟩
    rintro rfl
    cases hdigit
  | @empty bracket => exact ⟨_, _, rfl, by cases bracket <;> rfl, by cases bracket <;> decide⟩
  | @bracket bracket => exact ⟨_, _, rfl, by cases bracket <;> rfl, by cases bracket <;> decide⟩

theorem Derives.exists_head (h : Derives (.inside bracket) text) (rest : List Char) :
    ∃ c more, skipBlanks (text ++ rest) = c :: more ∧ c ≠ bracket.closing := by
  have head {lead before value after : List Char} (hlead : IsLead bracket lead)
      (hbefore : IsGap before) (hvalue : IsValue value) :
      ∃ c more, skipBlanks (lead ++ (before ++ (value ++ after)) ++ rest) = c :: more ∧
        c ≠ bracket.closing := by
    simp only [List.append_assoc]
    cases hlead with
    | array =>
      obtain ⟨c, more, rfl, hblank, hc⟩ := hvalue.exists_cons
      exact ⟨c, _, (skipBlanks_append hbefore _).trans (skipBlanks_cons hblank _), hc⟩
    | object hgap =>
      rw [List.append_assoc]
      exact ⟨'"', _, (skipBlanks_append hgap _).trans (skipBlanks_cons rfl _), by decide⟩
  cases h with
  | one hlead hbefore hvalue => exact head hlead hbefore hvalue
  | more hlead hbefore hvalue => exact head hlead hbefore hvalue

/-- What it is to pass over a text of some form and nothing else. -/
def PassesOver : Form → List Char → Prop
  | .value, text => ∀ stack rest, EndsNumber rest →
      skipWithin stack (text ++ rest) = resume stack rest
  | .inside bracket, text => ∀ stack rest,
      skipItems bracket stack (text ++ bracket.closing :: rest) = resume stack rest

theorem PassesOver.lead {lead before value : List Char} (h : PassesOver .value value)
    (hlead : IsLead bracket lead) (hbefore : IsGap before) (hrest : EndsNumber rest) :
    skipItems bracket stack (lead ++ (before ++ (value ++ rest))) =
      resume (bracket :: stack) rest := by
  rw [skipItems, beforeValue_append hlead]
  exact (skipWithin_congr (skipBlanks_append hbefore _)).trans (h _ rest hrest)

theorem Derives.passesOver {form : Form} (h : Derives form text) : PassesOver form text := by
  -- The stack stays general, because what is inside a bracket is skipped with the bracket on it.
  induction h with
  | null => exact fun stack rest _ => skipWithin_of_whole rfl
  | true => exact fun stack rest _ => skipWithin_of_whole rfl
  | false => exact fun stack rest _ => skipWithin_of_whole rfl
  | string hbody =>
    intro stack rest _
    rw [List.cons_append, List.append_assoc]
    exact skipWithin_of_whole (openValue_quote (skipString_append hbody rest))
  | number htext =>
    intro stack rest hrest
    exact skipWithin_of_whole (openValue_number htext hrest)
  | negative htext =>
    intro stack rest hrest
    exact skipWithin_of_whole (openValue_negative htext hrest)
  | empty hgap =>
    intro stack rest _
    rw [List.cons_append, List.append_assoc]
    exact skipWithin_of_whole (openValue_empty hgap rest)
  | @bracket bracket items hitems ih =>
    intro stack rest _
    obtain ⟨c, more, hhead, hc⟩ := hitems.exists_head (bracket.closing :: rest)
    rw [List.cons_append, List.append_assoc]
    exact (skipWithin_opening hhead hc).trans (ih stack rest)
  | @one bracket _ _ _ after hlead hbefore _ hafter ih =>
    intro stack rest
    simp only [List.append_assoc]
    rw [ih.lead hlead hbefore (.blanks hafter (endsNumber_closing bracket rest)),
      resume_closing ((skipBlanks_append hafter _).trans
        (skipBlanks_cons (closing_not_blank bracket) rest))]
  | @more bracket _ _ _ after items hlead hbefore _ hafter _ ihvalue ihitems =>
    intro stack rest
    simp only [List.append_assoc, List.cons_append]
    rw [ihvalue.lead hlead hbefore (.blanks hafter (endsNumber_comma _)), resume_comma hafter]
    exact ihitems stack rest

/-- A value is skipped with the blanks before it, and what follows it is left. -/
theorem skipValue_append (hgap : IsGap gap) (h : IsValue text) (hrest : EndsNumber rest) :
    skipValue (gap ++ (text ++ rest)) = .ok rest :=
  (skipWithin_congr (skipBlanks_append hgap _)).trans (h.passesOver [] rest hrest)

end ChatRooms.Json
