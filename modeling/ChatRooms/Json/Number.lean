import ChatRooms.Failure

namespace ChatRooms.Json

def isDigit (c : Char) : Bool :=
  '0' ≤ c && c ≤ '9'

def digitValue (c : Char) : Nat :=
  c.toNat - '0'.toNat

inductive Number where
  | natural (n : Nat)
  | other
  deriving DecidableEq, Repr

def wordLimit : Nat := Nat.pow 2 64

/-- Half to even, to the 53 leading bits. -/
def roundToDouble (n : Nat) : Nat :=
  let spare := n.log2 + 1 - 53
  let unit := Nat.pow 2 spare
  let quotient := n / unit
  let twice := 2 * (n % unit)
  let up := unit < twice || (unit == twice && quotient % 2 == 1)
  if up then (quotient + 1) * unit else quotient * unit

/-- Whether `significand * 10 ^ exponent`, computed in doubles, is infinite. -/
def overflowsDouble (significand : Nat) (exponent : Int) : Bool :=
  significand != 0 && (308 < exponent || (0 ≤ exponent &&
    Nat.pow 2 1024 - Nat.pow 2 970 ≤
      roundToDouble significand * roundToDouble (Nat.pow 10 exponent.toNat)))

/-- Appends digits to a significand as long as it fits a word; the rest is returned unread. -/
def accumulate (significand : Nat) : List Char → Nat × List Char
  | [] => (significand, [])
  | c :: rest =>
    let next := significand * 10 + digitValue c
    if next < wordLimit then accumulate next rest else (significand, c :: rest)

def natOfDigits (digits : List Char) : Nat :=
  digits.foldl (fun n c => n * 10 + digitValue c) 0

/-- Splits off a nonempty run of digits. -/
def digitRun (text : List Char) : Except JsonFlaw (List Char × List Char) :=
  match text with
  | [] => .error .truncated
  | c :: _ =>
    if isDigit c then .ok (text.takeWhile isDigit, text.dropWhile isDigit) else .error .malformed

/-- The digits before a point or exponent: a zero stands alone. -/
def integerPart (text : List Char) : Except JsonFlaw (List Char × List Char) := do
  let (digits, rest) ← digitRun text
  match digits with
  | '0' :: _ :: _ => .error .malformed
  | _ => .ok (digits, rest)

/-- What follows the letter of an exponent. -/
def exponentPart (text : List Char) : Except JsonFlaw (Int × List Char) :=
  match text with
  | '+' :: rest => do
    let (digits, rest) ← digitRun rest
    .ok (natOfDigits digits, rest)
  | '-' :: rest => do
    let (digits, rest) ← digitRun rest
    .ok (-natOfDigits digits, rest)
  | text => do
    let (digits, rest) ← digitRun text
    .ok (natOfDigits digits, rest)

def isExponentLetter (c : Char) : Bool :=
  c = 'e' || c = 'E'

/-- A number that is not a natural in range: refused only if it is too large for a double. -/
def inexact (significand : Nat) (exponent : Int) (rest : List Char) :
    Except JsonFlaw (Number × List Char) :=
  if overflowsDouble significand exponent then .error .malformed else .ok (.other, rest)

/-- The tail of a number from its exponent on, given the value of what precedes it. -/
def scaled (significand : Nat) (exponent : Int) (text : List Char) :
    Except JsonFlaw (Number × List Char) :=
  match text with
  | [] => inexact significand exponent []
  | c :: rest =>
    if isExponentLetter c then do
      let (shift, rest) ← exponentPart rest
      inexact significand (exponent + shift) rest
    else inexact significand exponent (c :: rest)

def readNumber (negative : Bool) (text : List Char) : Except JsonFlaw (Number × List Char) := do
  let (digits, rest) ← integerPart text
  let (significand, dropped) := accumulate 0 digits
  match rest with
  | '.' :: rest => do
    let (decimals, rest) ← digitRun rest
    let (significand, unread) := accumulate significand decimals
    scaled significand (dropped.length + unread.length - decimals.length : Int) rest
  | _ =>
    if dropped.isEmpty && !negative && !rest.head?.any isExponentLetter then
      .ok (.natural significand, rest)
    else scaled significand dropped.length rest

/-- In a value that is not used an incomplete number breaks the grammar, even at the end. -/
def skipDigitRun (text : List Char) : Except JsonFlaw (List Char) :=
  match digitRun text with
  | .ok (_, rest) => .ok rest
  | .error _ => .error .malformed

def skipExponent (text : List Char) : Except JsonFlaw (List Char) :=
  match text with
  | [] => .ok []
  | c :: rest =>
    if isExponentLetter c then
      match rest with
      | '+' :: rest => skipDigitRun rest
      | '-' :: rest => skipDigitRun rest
      | _ => skipDigitRun rest
    else .ok (c :: rest)

def skipNumber (text : List Char) : Except JsonFlaw (List Char) :=
  match integerPart text with
  | .error _ => .error .malformed
  | .ok (_, '.' :: rest) => do skipExponent (← skipDigitRun rest)
  | .ok (_, rest) => skipExponent rest

theorem digitRun_length {text digits rest : List Char} (h : digitRun text = .ok (digits, rest)) :
    rest.length < text.length := by
  unfold digitRun at h
  split at h
  · cases h
  · next c tail =>
    split at h
    · next hc =>
      cases h
      simp only [List.dropWhile_cons, hc, if_true, List.length_cons]
      exact Nat.lt_succ_of_le (List.dropWhile_sublist isDigit).length_le
    · cases h

theorem integerPart_length {text digits rest : List Char}
    (h : integerPart text = .ok (digits, rest)) : rest.length < text.length := by
  unfold integerPart at h
  cases hd : digitRun text with
  | error e => simp [hd, bind, Except.bind] at h
  | ok found =>
    have := digitRun_length (show _ = Except.ok (found.1, found.2) from hd)
    simp only [hd, bind, Except.bind] at h
    split at h
    · cases h
    · cases h
      exact this

theorem skipDigitRun_length {text rest : List Char} (h : skipDigitRun text = .ok rest) :
    rest.length < text.length := by
  unfold skipDigitRun at h
  split at h
  · next hd => cases h; exact digitRun_length hd
  · cases h

theorem skipExponent_length {text rest : List Char} (h : skipExponent text = .ok rest) :
    rest.length ≤ text.length := by
  unfold skipExponent at h
  split at h
  · cases h
    exact Nat.le_refl _
  · split at h
    · split at h <;> have := skipDigitRun_length h <;> simp only [List.length_cons] at this ⊢ <;>
        omega
    · cases h
      exact Nat.le_refl _

theorem skipNumber_length {text rest : List Char} (h : skipNumber text = .ok rest) :
    rest.length < text.length := by
  unfold skipNumber at h
  split at h
  · cases h
  · next digits tail hi =>
    have hint := integerPart_length hi
    cases hd : skipDigitRun tail with
    | error e => simp [hd, bind, Except.bind] at h
    | ok after =>
      have := skipDigitRun_length hd
      have := skipExponent_length (by simpa only [hd, bind, Except.bind] using h)
      simp only [List.length_cons] at hint
      omega
  · next digits tail _ hi =>
    exact Nat.lt_of_le_of_lt (skipExponent_length h) (integerPart_length hi)

end ChatRooms.Json
