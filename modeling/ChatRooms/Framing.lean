import ChatRooms.Failure
import ChatRooms.Intake.Sweeper

namespace ChatRooms.Framing

def newline : UInt8 := 10

def carriageReturn : UInt8 := 13

/-- Splits at the first newline, if it is among the first `limit + 1` bytes. -/
def splitLine : (limit : Nat) → List UInt8 → Option (List UInt8 × List UInt8)
  | _, [] => none
  | limit, b :: rest =>
    if b = newline then some ([], rest)
    else
      match limit with
      | 0 => none
      | limit + 1 => (splitLine limit rest).map fun (line, rest) => (b :: line, rest)

def dropReturn : List UInt8 → List UInt8
  | [] => []
  | [b] => if b = carriageReturn then [] else [b]
  | b :: rest => b :: dropReturn rest

def textOf (line : List UInt8) : Except LineFault String :=
  match String.fromUTF8? (ByteArray.mk (dropReturn line).toArray) with
  | some text => .ok text
  | none => .error .notUnicode

/-- What a reader has made of its bytes: complete lines, then either bytes that wait for more or a
fault. Nothing is read after a fault. -/
structure Reading where
  lines : List String := []
  rest : Except LineFault (List UInt8)

theorem splitLine_length {limit : Nat} {bytes line rest : List UInt8}
    (h : splitLine limit bytes = some (line, rest)) : rest.length < bytes.length := by
  induction bytes generalizing limit line with
  | nil => simp [splitLine] at h
  | cons b bytes ih =>
    unfold splitLine at h
    split at h
    · cases h
      exact Nat.lt_succ_self _
    · split at h
      · cases h
      · obtain ⟨found, hfound, he⟩ := Option.map_eq_some_iff.1 h
        cases he
        exact Nat.lt_succ_of_lt (ih hfound)

/-- All lines that are complete. -/
def readLines (limit : Nat) (bytes : List UInt8) : Reading :=
  match h : splitLine limit bytes with
  | some (line, rest) =>
    match textOf line with
    | .error fault => { rest := .error fault }
    | .ok text =>
      have := splitLine_length h
      let reading := readLines limit rest
      { reading with lines := text :: reading.lines }
  | none =>
    if limit < bytes.length then { rest := .error .tooLong } else { rest := .ok bytes }
termination_by bytes.length

/-- What the bytes at the end of input are worth: an unfinished line counts, unless it is empty or
would be but for its carriage return. -/
def lastLine (bytes : List UInt8) : Except LineFault (Option String) :=
  if bytes = [] ∨ bytes = [carriageReturn] then .ok none
  else
    match textOf bytes with
    | .ok text => .ok (some text)
    | .error fault => .error fault

/-- Reads pieces one after another, starting from bytes that are left from before. -/
def readPieces (limit : Nat) (buffer : List UInt8) : List (List UInt8) → Reading
  | [] => { rest := .ok buffer }
  | piece :: pieces =>
    let reading := readLines limit (buffer ++ piece)
    match reading.rest with
    | .error fault => { reading with rest := .error fault }
    | .ok buffer =>
      let more := readPieces limit buffer pieces
      { lines := reading.lines ++ more.lines, rest := more.rest }

/-- The lines of a whole input, and what ended it. -/
def readAll (limit : Nat) (pieces : List (List UInt8)) : List String × Except LineFault Unit :=
  let reading := readPieces limit [] pieces
  match reading.rest with
  | .error fault => (reading.lines, .error fault)
  | .ok bytes =>
    match lastLine bytes with
    | .error fault => (reading.lines, .error fault)
    | .ok none => (reading.lines, .ok ())
    | .ok (some text) => (reading.lines ++ [text], .ok ())

/-- A line as it is sent. -/
def encode (line : String) : List UInt8 :=
  line.toUTF8.toList ++ [newline]

/-- What a worker reports of an input: its lines in order and then, whatever ended it, that it is over. -/
def reports (limit : Nat) (pieces : List (List UInt8)) : List Report × Except LineFault Unit :=
  let (lines, outcome) := readAll limit pieces
  (lines.map Report.line ++ [.closed], outcome)

end ChatRooms.Framing
