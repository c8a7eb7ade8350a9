import ChatRooms.Refusal
import ChatRooms.Text

namespace ChatRooms

inductive FrameKind where
  | chat
  | command
  | whisper
  deriving DecidableEq, Repr

/-- A line as TYPE:ARG1:ARG2:CONTENT. Only the first three colons separate, and the content may be missing. -/
structure Frame where
  kind : FrameKind
  arg1 : String
  arg2 : String
  body : String
  deriving DecidableEq, Repr

namespace Frame

def lowercase (text : List Char) : List Char :=
  text.map Char.toLower

/-- The kind that a tag names, in any case of its ASCII letters. -/
def kindOfTag (tag : List Char) : Option FrameKind :=
  let tag := lowercase tag
  if tag = "chat".toList then some .chat
  else if tag = "cmd".toList then some .command
  else if tag = "whisper".toList then some .whisper
  else none

/-- The tag, the two arguments and the content as they stand, or nothing if a colon is missing. -/
def fields (line : List Char) : Option (List Char × List Char × List Char × List Char) :=
  match Text.cut ':' line with
  | (_, none) => none
  | (tag, some rest) =>
    match Text.cut ':' rest with
    | (_, none) => none
    | (arg1, some rest) =>
      match Text.cut ':' rest with
      | (arg2, body) => some (tag, arg1, arg2, body.getD [])

def parse (line : String) : Except Refusal Frame :=
  match fields (Text.dropReturn line.toList) with
  | none => .error (.malformed .missingFields)
  | some (tag, arg1, arg2, body) =>
    let tag := Text.trim tag
    match kindOfTag tag with
    | none => .error (.malformed (.unknownType (String.ofList tag)))
    | some kind =>
      .ok {
        kind
        arg1 := String.ofList (Text.trim arg1)
        arg2 := String.ofList (Text.trim arg2)
        body := String.ofList body }

end Frame

end ChatRooms
