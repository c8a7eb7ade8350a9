import ChatRooms.Json.Skip

namespace ChatRooms.Json

/-- A text that says nothing. -/
def IsGap (text : List Char) : Prop :=
  ∀ c ∈ text, isBlank c = true

/-- Four hexadecimal digits, and the number they write. -/
inductive WritesUnit : List Char → Nat → Prop where
  | digits {a b c d : Char} {w x y z : Nat} (ha : hexValue a = some w) (hb : hexValue b = some x)
      (hc : hexValue c = some y) (hd : hexValue d = some z) :
      WritesUnit [a, b, c, d] (((w * 16 + x) * 16 + y) * 16 + z)

def IsPlain (c : Char) : Prop :=
  c ≠ '"' ∧ c ≠ '\\' ∧ 0x20 ≤ c.toNat

instance : DecidablePred IsPlain :=
  fun c => inferInstanceAs (Decidable (c ≠ '"' ∧ c ≠ '\\' ∧ 0x20 ≤ c.toNat))

/-- The ways to write a character between quotes. One whose number has more than four hexadecimal
digits takes two surrogates. -/
inductive WritesChar : List Char → Char → Prop where
  | plain {c : Char} (h : IsPlain c) : WritesChar [c] c
  | letter {letter c : Char} (h : simpleEscape letter = some c) : WritesChar ['\\', letter] c
  | unit {digits : List Char} {c : Char} (h : WritesUnit digits c.toNat) :
      WritesChar ('\\' :: 'u' :: digits) c
  | pair {high low : List Char} {n : Nat} {c : Char} (hc : c.toNat = 0x10000 + n)
      (hhigh : WritesUnit high (0xD800 + n / 0x400)) (hlow : WritesUnit low (0xDC00 + n % 0x400)) :
      WritesChar ('\\' :: 'u' :: (high ++ '\\' :: 'u' :: low)) c

/-- What stands between the quotes of a string, and the characters it denotes. -/
inductive WritesString : List Char → List Char → Prop where
  | nil : WritesString [] []
  | cons {text rest cs : List Char} {c : Char} (hc : WritesChar text c)
      (hrest : WritesString rest cs) : WritesString (text ++ rest) (c :: cs)

/-- What stands between the quotes of a string that need not denote anything. -/
inductive IsString : List Char → Prop where
  | nil : IsString []
  | plain {c : Char} {rest : List Char} (hc : IsPlain c) (hrest : IsString rest) :
      IsString (c :: rest)
  | letter {letter c : Char} {rest : List Char} (hletter : simpleEscape letter = some c)
      (hrest : IsString rest) : IsString ('\\' :: letter :: rest)
  | unit {digits rest : List Char} {n : Nat} (hdigits : WritesUnit digits n)
      (hrest : IsString rest) : IsString ('\\' :: 'u' :: (digits ++ rest))

def IsDigits (text : List Char) : Prop :=
  text ≠ [] ∧ ∀ c ∈ text, isDigit c = true

/-- Digits without a zero in front. -/
def IsWhole (text : List Char) : Prop :=
  IsDigits text ∧ (text.head? = some '0' → text = ['0'])

inductive IsFraction : List Char → Prop where
  | none : IsFraction []
  | some {digits : List Char} (h : IsDigits digits) : IsFraction ('.' :: digits)

inductive IsExponent : List Char → Prop where
  | none : IsExponent []
  | some {letter : Char} {sign digits : List Char} (hletter : isExponentLetter letter = true)
      (hsign : sign = [] ∨ sign = ['+'] ∨ sign = ['-']) (hdigits : IsDigits digits) :
      IsExponent (letter :: (sign ++ digits))

/-- A number without its sign. -/
inductive IsNumber : List Char → Prop where
  | parts {whole fraction exponent : List Char} (hwhole : IsWhole whole)
      (hfraction : IsFraction fraction) (hexponent : IsExponent exponent) :
      IsNumber (whole ++ (fraction ++ exponent))

def Bracket.opening : Bracket → Char
  | array => '['
  | object => '\x7b'

/-- What stands before a value inside a bracket: nothing, or a name and a colon. -/
inductive IsLead : Bracket → List Char → Prop where
  | array : IsLead .array []
  | object {before name after : List Char} (hbefore : IsGap before) (hname : IsString name)
      (hafter : IsGap after) : IsLead .object (before ++ '"' :: (name ++ '"' :: (after ++ [':'])))

/-- A value as a whole, or what stands between two brackets that are not empty. -/
inductive Form where
  | value
  | inside (bracket : Bracket)

/-- The texts of each form, nested to any depth. -/
inductive Derives : Form → List Char → Prop where
  | null : Derives .value "null".toList
  | true : Derives .value "true".toList
  | false : Derives .value "false".toList
  | string {body : List Char} (hbody : IsString body) : Derives .value ('"' :: (body ++ ['"']))
  | number {text : List Char} (htext : IsNumber text) : Derives .value text
  | negative {text : List Char} (htext : IsNumber text) : Derives .value ('-' :: text)
  | empty {bracket : Bracket} {gap : List Char} (hgap : IsGap gap) :
      Derives .value (bracket.opening :: (gap ++ [bracket.closing]))
  | bracket {bracket : Bracket} {items : List Char} (hitems : Derives (.inside bracket) items) :
      Derives .value (bracket.opening :: (items ++ [bracket.closing]))
  | one {bracket : Bracket} {lead before value after : List Char} (hlead : IsLead bracket lead)
      (hbefore : IsGap before) (hvalue : Derives .value value) (hafter : IsGap after) :
      Derives (.inside bracket) (lead ++ (before ++ (value ++ after)))
  | more {bracket : Bracket} {lead before value after items : List Char}
      (hlead : IsLead bracket lead) (hbefore : IsGap before) (hvalue : Derives .value value)
      (hafter : IsGap after) (hitems : Derives (.inside bracket) items) :
      Derives (.inside bracket) (lead ++ (before ++ (value ++ (after ++ ',' :: items))))

abbrev IsValue (text : List Char) : Prop :=
  Derives .value text

end ChatRooms.Json
