import ChatRooms.Json.Text

namespace ChatRooms.Json

inductive Bracket where
  | array
  | object
  deriving DecidableEq, Repr

def Bracket.closing : Bracket → Char
  | array => ']'
  | object => '}'

def skipKey (text : List Char) : Except JsonFlaw (List Char) :=
  match skipBlanks text with
  | [] => .error .truncated
  | '"' :: rest => do
    match skipBlanks (← skipString rest) with
    | [] => .error .truncated
    | ':' :: rest => .ok rest
    | _ => .error .malformed
  | _ => .error .malformed

/-- What stands before the next value inside a bracket. -/
def beforeValue : Bracket → List Char → Except JsonFlaw (List Char)
  | .array, text => .ok text
  | .object, text => skipKey text

/-- Reads a whole value, unless it is a bracket with something in it: that is left open, with the
reader standing before the first value inside. -/
def openValue (text : List Char) : Except JsonFlaw (Option Bracket × List Char) :=
  match skipBlanks text with
  | [] => .error .truncated
  | 'n' :: rest => do .ok (none, ← keyword "ull".toList rest)
  | 't' :: rest => do .ok (none, ← keyword "rue".toList rest)
  | 'f' :: rest => do .ok (none, ← keyword "alse".toList rest)
  | '"' :: rest => do .ok (none, ← skipString rest)
  | '-' :: rest => do .ok (none, ← skipNumber rest)
  | '[' :: rest => enter .array rest
  | '\x7b' :: rest => enter .object rest
  | c :: rest =>
    if isDigit c then do .ok (none, ← skipNumber (c :: rest)) else .error .malformed
where
  enter (bracket : Bracket) (text : List Char) : Except JsonFlaw (Option Bracket × List Char) :=
    match skipBlanks text with
    | [] => .error .truncated
    | c :: rest =>
      if c = bracket.closing then .ok (none, rest)
      else do .ok (some bracket, ← beforeValue bracket (c :: rest))

/-- After a value: closes brackets until a comma announces the next value, and reads up to it. The
stack is empty at the end if the outermost value is complete. -/
def closeBrackets : List Bracket → List Char → Except JsonFlaw (List Bracket × List Char)
  | [], text => .ok ([], text)
  | bracket :: stack, text =>
    match skipBlanks text with
    | [] => .error .truncated
    | ',' :: rest => do .ok (bracket :: stack, ← beforeValue bracket rest)
    | c :: rest => if c = bracket.closing then closeBrackets stack rest else .error .malformed

theorem skipBlanks_length (text : List Char) : (skipBlanks text).length ≤ text.length :=
  (List.dropWhile_sublist isBlank).length_le

theorem keyword_length {word text rest : List Char} (h : keyword word text = .ok rest) :
    rest.length ≤ text.length := by
  induction word generalizing text with
  | nil => cases h; exact Nat.le_refl _
  | cons k word ih =>
    cases text with
    | nil => cases h
    | cons c text =>
      simp only [keyword] at h
      split at h
      · exact Nat.le_succ_of_le (ih h)
      · cases h

theorem skipKey_length {text rest : List Char} (h : skipKey text = .ok rest) :
    rest.length < text.length := by
  have hblanks := skipBlanks_length text
  unfold skipKey at h
  split at h
  · cases h
  · next tail heq =>
    rw [heq] at hblanks
    cases hs : skipString tail with
    | error e => simp [hs, bind, Except.bind] at h
    | ok after =>
      have := skipString_length hs
      have hafter := skipBlanks_length after
      simp only [hs, bind, Except.bind] at h
      split at h
      · cases h
      · next heq' =>
        cases h
        rw [heq'] at hafter
        simp only [List.length_cons] at hblanks hafter
        omega
      · cases h
  · cases h

theorem beforeValue_length {bracket : Bracket} {text rest : List Char}
    (h : beforeValue bracket text = .ok rest) : rest.length ≤ text.length := by
  cases bracket with
  | array => cases h; exact Nat.le_refl _
  | object => exact Nat.le_of_lt (skipKey_length h)

theorem exists_of_map_ok {α β : Type} {f : α → β} {read : Except JsonFlaw α} {b : β}
    (h : (do .ok (f (← read)) : Except JsonFlaw β) = .ok b) : ∃ a, read = .ok a ∧ f a = b := by
  cases read with
  | error e => cases h
  | ok a => cases h; exact ⟨a, rfl, rfl⟩

theorem enter_length {bracket : Bracket} {text rest : List Char} {opened : Option Bracket}
    (h : openValue.enter bracket text = .ok (opened, rest)) : rest.length ≤ text.length := by
  have hblanks := skipBlanks_length text
  unfold openValue.enter at h
  split at h
  · cases h
  · next c tail heq =>
    rw [heq] at hblanks
    split at h
    · cases h
      simp only [List.length_cons] at hblanks
      omega
    · obtain ⟨after, hafter, he⟩ := exists_of_map_ok (f := fun rest => (some bracket, rest)) h
      cases he
      have := beforeValue_length hafter
      omega

theorem openValue_length {text rest : List Char} {opened : Option Bracket}
    (h : openValue text = .ok (opened, rest)) : rest.length < text.length := by
  have hblanks := skipBlanks_length text
  unfold openValue at h
  split at h
  · cases h
  all_goals
    rename_i heq
    rw [heq] at hblanks
    simp only [List.length_cons] at hblanks
  iterate 3
    obtain ⟨after, hafter, he⟩ := exists_of_map_ok (f := fun rest => (none, rest)) h
    cases he
    have := keyword_length hafter
    omega
  · obtain ⟨after, hafter, he⟩ := exists_of_map_ok (f := fun rest => (none, rest)) h
    cases he
    have := skipString_length hafter
    omega
  · obtain ⟨after, hafter, he⟩ := exists_of_map_ok (f := fun rest => (none, rest)) h
    cases he
    have := skipNumber_length hafter
    omega
  · have := enter_length h
    omega
  · have := enter_length h
    omega
  · split at h
    · obtain ⟨after, hafter, he⟩ := exists_of_map_ok (f := fun rest => (none, rest)) h
      cases he
      have := skipNumber_length hafter
      simp only [List.length_cons] at this
      omega
    · cases h

theorem closeBrackets_length {stack left : List Bracket} {text rest : List Char}
    (h : closeBrackets stack text = .ok (left, rest)) : rest.length ≤ text.length := by
  induction stack generalizing text with
  | nil => cases h; exact Nat.le_refl _
  | cons bracket stack ih =>
    have hblanks := skipBlanks_length text
    unfold closeBrackets at h
    split at h
    · cases h
    · next tail heq =>
      rw [heq] at hblanks
      obtain ⟨after, hafter, he⟩ :=
        exists_of_map_ok (f := fun rest => (bracket :: stack, rest)) h
      cases he
      have := beforeValue_length hafter
      simp only [List.length_cons] at hblanks
      omega
    · next c tail _ heq =>
      rw [heq] at hblanks
      split at h
      · have := ih h
        simp only [List.length_cons] at hblanks
        omega
      · cases h

/-- Skips the value that is due inside the open brackets, and all else up to the end of the
outermost value. -/
def skipWithin (stack : List Bracket) (text : List Char) : Except JsonFlaw (List Char) :=
  match h : openValue text with
  | .error flaw => .error flaw
  | .ok (some bracket, rest) =>
    have := openValue_length h
    skipWithin (bracket :: stack) rest
  | .ok (none, rest) =>
    have := openValue_length h
    match hc : closeBrackets stack rest with
    | .error flaw => .error flaw
    | .ok ([], rest) => .ok rest
    | .ok (bracket :: stack, rest) =>
      have := closeBrackets_length hc
      skipWithin (bracket :: stack) rest
termination_by text.length

def skipValue (text : List Char) : Except JsonFlaw (List Char) :=
  skipWithin [] text

end ChatRooms.Json
