import ChatRooms.Json.Number

namespace ChatRooms.Json

def isBlank (c : Char) : Bool :=
  c = ' ' || c = '\n' || c = '\t' || c = '\r'

def skipBlanks (text : List Char) : List Char :=
  text.dropWhile isBlank

/-- Drops the rest of a keyword. -/
def keyword : List Char → List Char → Except JsonFlaw (List Char)
  | [], text => .ok text
  | _ :: _, [] => .error .truncated
  | k :: rest, c :: text => if c = k then keyword rest text else .error .malformed

def hexValue (c : Char) : Option Nat :=
  if '0' ≤ c && c ≤ '9' then some (c.toNat - '0'.toNat)
  else if 'a' ≤ c && c ≤ 'f' then some (c.toNat - 'a'.toNat + 10)
  else if 'A' ≤ c && c ≤ 'F' then some (c.toNat - 'A'.toNat + 10)
  else none

/-- Four hexadecimal digits. The text is too short for them if fewer than four bytes are left. -/
def fourHexDigits (text : List Char) : Except JsonFlaw (Nat × List Char) :=
  let digits :=
    match text with
    | a :: b :: c :: d :: rest => do
      let n := ((← hexValue a) * 16 + (← hexValue b)) * 16 + (← hexValue c)
      some (n * 16 + (← hexValue d), rest)
    | _ => none
  match digits with
  | some found => .ok found
  | none =>
    if (text.take 4).foldl (fun bytes c => bytes + c.utf8Size) 0 < 4 then .error .truncated
    else .error .malformed

def simpleEscape : Char → Option Char
  | '"' => some '"'
  | '\\' => some '\\'
  | '/' => some '/'
  | 'b' => some '\x08'
  | 'f' => some '\x0c'
  | 'n' => some '\n'
  | 'r' => some '\r'
  | 't' => some '\t'
  | _ => none

def isLeadingSurrogate (n : Nat) : Bool :=
  0xD800 ≤ n && n ≤ 0xDBFF

def isTrailingSurrogate (n : Nat) : Bool :=
  0xDC00 ≤ n && n ≤ 0xDFFF

def trailingSurrogate (text : List Char) : Except JsonFlaw (Nat × List Char) :=
  match text with
  | [] => .error .truncated
  | '\\' :: [] => .error .truncated
  | '\\' :: 'u' :: rest => do
    let (n, rest) ← fourHexDigits rest
    if isTrailingSurrogate n then .ok (n, rest) else .error .malformed
  | _ => .error .malformed

/-- The character that a `\u` escape stands for. A surrogate counts only as half of a pair. -/
def unicodeEscape (text : List Char) : Except JsonFlaw (Char × List Char) := do
  let (high, rest) ← fourHexDigits text
  if isTrailingSurrogate high then .error .malformed
  else if isLeadingSurrogate high then do
    let (low, rest) ← trailingSurrogate rest
    .ok (Char.ofNat (0x10000 + (high - 0xD800) * 0x400 + (low - 0xDC00)), rest)
  else .ok (Char.ofNat high, rest)

/-- What follows a backslash. -/
def escape (text : List Char) : Except JsonFlaw (Char × List Char) :=
  match text with
  | [] => .error .truncated
  | 'u' :: rest => unicodeEscape rest
  | c :: rest =>
    match simpleEscape c with
    | some meant => .ok (meant, rest)
    | none => .error .malformed

/-- The next character of a string, or nothing if the string ends here. -/
def nextInString (text : List Char) : Except JsonFlaw (Option Char × List Char) :=
  match text with
  | [] => .error .truncated
  | '"' :: rest => .ok (none, rest)
  | '\\' :: rest => do
    let (c, rest) ← escape rest
    .ok (some c, rest)
  | c :: rest => if c.toNat < 0x20 then .error .malformed else .ok (some c, rest)

theorem fourHexDigits_length {text rest : List Char} {n : Nat}
    (h : fourHexDigits text = .ok (n, rest)) : rest.length < text.length := by
  unfold fourHexDigits at h
  rcases text with _ | ⟨a, _ | ⟨b, _ | ⟨c, _ | ⟨d, tail⟩⟩⟩⟩ <;> simp only at h <;>
    try (split at h <;> cases h)
  split at h
  next found hfound =>
    simp only [Option.bind_eq_bind, Option.bind_eq_some_iff, Option.some.injEq] at hfound
    obtain ⟨_, _, _, _, _, _, _, _, rfl⟩ := hfound
    simp only [Except.ok.injEq, Prod.mk.injEq] at h
    simp only [List.length_cons, ← h.2]
    omega
  next => split at h <;> cases h

theorem trailingSurrogate_length {text rest : List Char} {n : Nat}
    (h : trailingSurrogate text = .ok (n, rest)) : rest.length < text.length := by
  unfold trailingSurrogate at h
  split at h
  · cases h
  · cases h
  · next tail =>
    cases hd : fourHexDigits tail with
    | error e => simp [hd, bind, Except.bind] at h
    | ok found =>
      simp only [hd, bind, Except.bind] at h
      split at h
      · have := fourHexDigits_length (show _ = Except.ok (found.1, found.2) from hd)
        cases h
        simp only [List.length_cons]
        omega
      · cases h
  · cases h

theorem unicodeEscape_length {text rest : List Char} {c : Char}
    (h : unicodeEscape text = .ok (c, rest)) : rest.length < text.length := by
  unfold unicodeEscape at h
  cases hd : fourHexDigits text with
  | error e => simp [hd, bind, Except.bind] at h
  | ok found =>
    have hshort := fourHexDigits_length (show _ = Except.ok (found.1, found.2) from hd)
    simp only [hd, bind, Except.bind] at h
    split at h
    · cases h
    · split at h
      · cases ht : trailingSurrogate found.2 with
        | error e => simp [ht] at h
        | ok low =>
          have := trailingSurrogate_length (show _ = Except.ok (low.1, low.2) from ht)
          simp only [ht, Except.ok.injEq, Prod.mk.injEq] at h
          rw [← h.2]
          omega
      · cases h
        exact hshort

theorem escape_length {text rest : List Char} {c : Char}
    (h : escape text = .ok (c, rest)) : rest.length < text.length := by
  unfold escape at h
  split at h
  · cases h
  · have := unicodeEscape_length h
    simp only [List.length_cons]
    omega
  · split at h
    · cases h
      simp
    · cases h

theorem nextInString_length {text rest : List Char} {c : Option Char}
    (h : nextInString text = .ok (c, rest)) : rest.length < text.length := by
  unfold nextInString at h
  split at h
  · cases h
  · cases h
    simp
  · next tail =>
    cases he : escape tail with
    | error e => simp [he, bind, Except.bind] at h
    | ok found =>
      have := escape_length (show _ = Except.ok (found.1, found.2) from he)
      simp only [he, bind, Except.bind, Except.ok.injEq, Prod.mk.injEq] at h
      simp only [List.length_cons, ← h.2]
      omega
  · split at h
    · cases h
    · cases h
      simp

/-- The characters of a string up to its closing quote. -/
def readString (text : List Char) : Except JsonFlaw (List Char × List Char) :=
  match h : nextInString text with
  | .error flaw => .error flaw
  | .ok (none, rest) => .ok ([], rest)
  | .ok (some c, rest) =>
    have := nextInString_length h
    match readString rest with
    | .error flaw => .error flaw
    | .ok (more, rest) => .ok (c :: more, rest)
termination_by text.length

/-- One escape or plain character of a string that is not used. -/
def skipInString (text : List Char) : Except JsonFlaw (Bool × List Char) :=
  match text with
  | [] => .error .truncated
  | '"' :: rest => .ok (true, rest)
  | '\\' :: [] => .error .truncated
  | '\\' :: 'u' :: rest => do
    let (_, rest) ← fourHexDigits rest
    .ok (false, rest)
  | '\\' :: c :: rest => if (simpleEscape c).isSome then .ok (false, rest) else .error .malformed
  | c :: rest => if c.toNat < 0x20 then .error .malformed else .ok (false, rest)

theorem skipInString_length {text rest : List Char} {ends : Bool}
    (h : skipInString text = .ok (ends, rest)) : rest.length < text.length := by
  unfold skipInString at h
  split at h
  · cases h
  · cases h
    simp
  · cases h
  · next tail =>
    cases hd : fourHexDigits tail with
    | error e => simp [hd, bind, Except.bind] at h
    | ok found =>
      have := fourHexDigits_length (show _ = Except.ok (found.1, found.2) from hd)
      simp only [hd, bind, Except.bind, Except.ok.injEq, Prod.mk.injEq] at h
      simp only [List.length_cons, ← h.2]
      omega
  · split at h
    · cases h
      simp only [List.length_cons]
      omega
    · cases h
  · split at h
    · cases h
    · cases h
      simp

def skipString (text : List Char) : Except JsonFlaw (List Char) :=
  match h : skipInString text with
  | .error flaw => .error flaw
  | .ok (true, rest) => .ok rest
  | .ok (false, rest) =>
    have := skipInString_length h
    skipString rest
termination_by text.length

theorem skipString_length {text rest : List Char}
    (h : skipString text = .ok rest) : rest.length < text.length := by
  fun_induction skipString text with
  | case1 => cases h
  | case2 text tail hn =>
    cases h
    exact skipInString_length hn
  | case3 text tail hn hshort ih =>
    have := ih h
    omega

end ChatRooms.Json
