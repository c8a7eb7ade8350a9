namespace ChatRooms

/-- Clients are told apart by numbers of 128 bits. -/
abbrev ClientId := Nat

namespace ClientId

def hexDigit (n : Nat) : Char :=
  (if n < 10 then Char.ofNat (48 + n) else Char.ofNat (87 + n))

/-- The lowest `width` hexadecimal digits of a number, most significant first. -/
def hexDigits : (width n : Nat) → List Char
  | 0, _ => []
  | width + 1, n => hexDigits width (n / 16) ++ [hexDigit (n % 16)]

/-- The identifier as five hyphenated groups of 8, 4, 4, 4 and 12 digits. -/
def render (id : ClientId) : String :=
  String.ofList <|
    hexDigits 8 (id / Nat.pow 16 24) ++ '-' :: hexDigits 4 (id / Nat.pow 16 20) ++ '-' ::
      hexDigits 4 (id / Nat.pow 16 16) ++ '-' :: hexDigits 4 (id / Nat.pow 16 12) ++ '-' ::
        hexDigits 12 id

end ClientId

/-- What keeps a text from being a nickname or a room name. -/
inductive NameFlaw where
  | empty
  | tooLong
  | forbiddenCharacter
  deriving DecidableEq, Repr

/-- Longest nickname or room name, in bytes. -/
def maxNameBytes : Nat := 31

/-- What keeps a line from being a request. -/
inductive FormatFault where
  | missingFields
  | unknownType (tag : String)
  | missingVerb
  | missingArgument (verb what : String)
  | missingTarget
  | badName (what : String) (flaw : NameFlaw) (name : String)
  deriving DecidableEq, Repr

def FormatFault.describe : FormatFault → String
  | .missingFields => "expected TYPE:ARG1:ARG2:CONTENT"
  | .unknownType tag => "unknown message type '" ++ tag ++ "'"
  | .missingVerb => "missing command verb"
  | .missingArgument verb what => "command '" ++ verb ++ "' requires a " ++ what
  | .missingTarget => "whisper requires a target nickname"
  | .badName what .empty _ => what ++ " must not be empty"
  | .badName what .tooLong _ => what ++ " is longer than " ++ toString maxNameBytes ++ " bytes"
  | .badName what .forbiddenCharacter name =>
    what ++ " '" ++ name ++ "' contains a colon or whitespace"

/-- Why a request is refused. A refusal is reported to the client that asked, and to nobody else. -/
inductive Refusal where
  | invalidFormat (detail : String)
  | unknownCommand (verb : String)
  | alreadyExists (room : String)
  | notEmpty (room : String)
  | protectedRoom (room : String)
  | roomNotFound (room : String)
  | clientNotFound (id : ClientId)
  | duplicateNickname (nickname : String)
  | userNotFound (nickname : String)
  | serverFull (clients : Nat)
  | alreadyDefault (room : String)
  | tooManyRooms (limit : Nat)
  deriving DecidableEq, Repr

namespace Refusal

/-- The one word that clients can match on. -/
def kind : Refusal → String
  | invalidFormat _ => "InvalidFormat"
  | unknownCommand _ => "UnknownCommand"
  | alreadyExists _ => "AlreadyExists"
  | notEmpty _ => "NotEmpty"
  | protectedRoom _ => "ProtectedRoom"
  | roomNotFound _ => "RoomNotFound"
  | clientNotFound _ => "ClientNotFound"
  | duplicateNickname _ => "DuplicateNickname"
  | userNotFound _ => "UserNotFound"
  | serverFull _ => "ServerFull"
  | alreadyDefault _ => "AlreadyDefault"
  | tooManyRooms _ => "TooManyRooms"

def message : Refusal → String
  | invalidFormat detail => "invalid message format: " ++ detail
  | unknownCommand verb => "unknown command '" ++ verb ++ "'"
  | alreadyExists room => "room '" ++ room ++ "' already exists"
  | notEmpty room => "room '" ++ room ++ "' is not empty"
  | protectedRoom room => "room '" ++ room ++ "' is the default room and cannot be removed"
  | roomNotFound room => "room '" ++ room ++ "' not found"
  | clientNotFound id => "client " ++ id.render ++ " not found"
  | duplicateNickname nickname => "nickname '" ++ nickname ++ "' is already taken"
  | userNotFound nickname => "user '" ++ nickname ++ "' not found"
  | serverFull clients =>
    "server is full (" ++ toString clients ++ " clients connected), try again later"
  | alreadyDefault room => "you are already in the default room '" ++ room ++ "'"
  | tooManyRooms limit => "room limit of " ++ toString limit ++ " reached"

def malformed (fault : FormatFault) : Refusal :=
  .invalidFormat fault.describe

end Refusal

end ChatRooms
