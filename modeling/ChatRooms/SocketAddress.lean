namespace ChatRooms

inductive SocketAddress where
  | v4 (octets : List Nat) (port : Nat)
  | v6 (groups : List Nat) (scope port : Nat)
  deriving DecidableEq, Repr

namespace SocketAddress

def digit? (radix : Nat) (c : Char) : Option Nat :=
  let n :=
    if '0' ≤ c && c ≤ '9' then c.toNat - '0'.toNat
    else if 'a' ≤ c && c ≤ 'z' then c.toNat - 'a'.toNat + 10
    else if 'A' ≤ c && c ≤ 'Z' then c.toNat - 'A'.toNat + 10
    else radix
  if n < radix then some n else none

def number (radix limit : Nat) (text : List Char) : Option ((List Char × Nat) × List Char) :=
  let digits := text.takeWhile fun c => (digit? radix c).isSome
  let value := digits.foldl (fun n c => n * radix + (digit? radix c).getD 0) 0
  if digits.isEmpty || limit ≤ value then none
  else some ((digits, value), text.drop digits.length)

def expect (c : Char) : List Char → Option (List Char)
  | [] => none
  | d :: rest => if d = c then some rest else none

/-- A number of at most three digits below 256, without a leading zero. -/
def octet (text : List Char) : Option (Nat × List Char) := do
  let ((digits, value), rest) ← number 10 256 text
  if 3 < digits.length || (digits.head? == some '0' && 1 < digits.length) then none
  else some (value, rest)

/-- Four octets with dots between them. -/
def dotted (text : List Char) : Option (List Nat × List Char) := do
  let (a, rest) ← octet text
  let (b, rest) ← octet (← expect '.' rest)
  let (c, rest) ← octet (← expect '.' rest)
  let (d, rest) ← octet (← expect '.' rest)
  some ([a, b, c, d], rest)

def portNumber (text : List Char) : Option (Nat × List Char) := do
  let ((_, port), rest) ← number 10 65536 (← expect ':' text)
  some (port, rest)

/-- One to four hexadecimal digits. -/
def group (text : List Char) : Option (Nat × List Char) := do
  let ((digits, value), rest) ← number 16 65536 text
  if 4 < digits.length then none else some (value, rest)

/-- The two groups that a dotted address stands for. -/
def groupsOfOctets : List Nat → List Nat
  | [a, b, c, d] => [a * 256 + b, c * 256 + d]
  | _ => []

/-- As many groups as there are, at most `room`, with colons between them. A dotted address stands
for the two last ones; the flag says whether there was one. -/
def groups (first : Bool) : (room : Nat) → List Char → (List Nat × Bool) × List Char
  | 0, text => (([], false), text)
  | room + 1, text =>
    let start := if first then some text else expect ':' text
    match (if room = 0 then none else start.bind dotted) with
    | some (octets, rest) => ((groupsOfOctets octets, true), rest)
    | none =>
      match start.bind group with
      | some (g, rest) =>
        let ((more, isDotted), rest) := groups false room rest
        ((g :: more, isDotted), rest)
      | none => (([], false), text)

/-- Eight groups, of which one run of zeros may be left out. -/
def sixteenBitGroups (text : List Char) : Option (List Nat × List Char) :=
  let ((front, isDotted), rest) := groups true 8 text
  if front.length = 8 then some (front, rest)
  else if isDotted then none
  else do
    let rest ← expect ':' (← expect ':' rest)
    let room := 7 - front.length
    let ((back, _), rest) := groups true room rest
    some (front ++ List.replicate (8 - front.length - back.length) 0 ++ back, rest)

def scopeNumber (text : List Char) : Nat × List Char :=
  match (do number 10 (Nat.pow 2 32) (← expect '%' text)) with
  | some ((_, scope), rest) => (scope, rest)
  | none => (0, text)

def readV4 (text : List Char) : Option (SocketAddress × List Char) := do
  let (octets, rest) ← dotted text
  let (port, rest) ← portNumber rest
  some (.v4 octets port, rest)

def readV6 (text : List Char) : Option (SocketAddress × List Char) := do
  let (groups, rest) ← sixteenBitGroups (← expect '[' text)
  let (scope, rest) := scopeNumber rest
  let (port, rest) ← portNumber (← expect ']' rest)
  some (.v6 groups scope port, rest)

def parse (text : String) : Option SocketAddress :=
  match (readV4 text.toList).or (readV6 text.toList) with
  | some (address, []) => some address
  | _ => none

def renderOctets (octets : List Nat) : String :=
  ".".intercalate (octets.map toString)

def renderGroups (groups : List Nat) : String :=
  ":".intercalate (groups.map fun g => String.ofList (Nat.toDigits 16 g))

def leadingZeros : List Nat → Nat
  | 0 :: rest => leadingZeros rest + 1
  | _ => 0

/-- Where the first longest run of zeros starts, and its length. -/
def longestZeros : List Nat → Nat × Nat
  | [] => (0, 0)
  | g :: rest =>
    let here := leadingZeros (g :: rest)
    let (start, length) := longestZeros rest
    if length ≤ here then (0, here) else (start + 1, length)

def renderV6 (groups : List Nat) : String :=
  match groups with
  | [0, 0, 0, 0, 0, 0xFFFF, high, low] =>
    "::ffff:" ++ renderOctets [high / 256, high % 256, low / 256, low % 256]
  | _ =>
    let (start, length) := longestZeros groups
    if 1 < length then
      renderGroups (groups.take start) ++ "::" ++ renderGroups (groups.drop (start + length))
    else renderGroups groups

def render : SocketAddress → String
  | v4 octets port => renderOctets octets ++ ":" ++ toString port
  | v6 groups 0 port => "[" ++ renderV6 groups ++ "]:" ++ toString port
  | v6 groups scope port => "[" ++ renderV6 groups ++ "%" ++ toString scope ++ "]:" ++ toString port

end SocketAddress

end ChatRooms
