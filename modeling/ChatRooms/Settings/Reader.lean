import ChatRooms.Json.Skip
import ChatRooms.Settings

namespace ChatRooms

open Json

namespace Settings

inductive Field where
  | bindHost
  | port
  | maxClients
  | maxRooms
  | defaultRoom
  | echoChatToSender
  | autoCreateRooms
  | readiness
  | maxLineLength
  | channelCapacity
  | clientQueue
  | shutdownTimeoutMs
  deriving DecidableEq, Repr

namespace Field

/-- In the order of an array. -/
def all : List Field :=
  [bindHost, port, maxClients, maxRooms, defaultRoom, echoChatToSender, autoCreateRooms, readiness,
    maxLineLength, channelCapacity, clientQueue, shutdownTimeoutMs]

def key : Field → String
  | bindHost => "bind_host"
  | port => "port"
  | maxClients => "max_clients"
  | maxRooms => "max_rooms"
  | defaultRoom => "default_room"
  | echoChatToSender => "echo_chat_to_sender"
  | autoCreateRooms => "auto_create_rooms"
  | readiness => "readiness"
  | maxLineLength => "max_line_length"
  | channelCapacity => "channel_capacity"
  | clientQueue => "client_queue"
  | shutdownTimeoutMs => "shutdown_timeout_ms"

def ofKey? (key : List Char) : Option Field :=
  all.find? fun field => field.key.toList = key

end Field

/-- What is wrong with a value that is not of the kind expected. A flaw inside a scalar is met before
its kind is known. -/
def unexpected (text : List Char) : JsonFlaw :=
  let scalar {α : Type} (read : Except JsonFlaw α) : JsonFlaw :=
    match read with
    | .ok _ => .mistyped
    | .error flaw => flaw
  match text with
  | [] => .truncated
  | 'n' :: rest => scalar (keyword "ull".toList rest)
  | 't' :: rest => scalar (keyword "rue".toList rest)
  | 'f' :: rest => scalar (keyword "alse".toList rest)
  | '"' :: rest => scalar (readString rest)
  | '-' :: rest => scalar (readNumber true rest)
  | '[' :: _ => .mistyped
  | '\x7b' :: _ => .mistyped
  | c :: rest => if isDigit c then scalar (readNumber false (c :: rest)) else .malformed

def readText (text : List Char) : Except JsonFlaw (List Char × List Char) :=
  match skipBlanks text with
  | '"' :: rest => readString rest
  | rest => .error (unexpected rest)

def readFlag (text : List Char) : Except JsonFlaw (Bool × List Char) :=
  match skipBlanks text with
  | 't' :: rest => do .ok (true, ← keyword "rue".toList rest)
  | 'f' :: rest => do .ok (false, ← keyword "alse".toList rest)
  | rest => .error (unexpected rest)

def readNatural (limit : Nat) (text : List Char) : Except JsonFlaw (Nat × List Char) :=
  match skipBlanks text with
  | [] => .error .truncated
  | c :: rest =>
    if isDigit c then do
      let (number, rest) ← readNumber false (c :: rest)
      match number with
      | .natural n => if n < limit then .ok (n, rest) else .error .mistyped
      | .other => .error .mistyped
    else .error (unexpected (c :: rest))

def readNull (text : List Char) : Except JsonFlaw (List Char) :=
  match skipBlanks text with
  | 'n' :: rest => keyword "ull".toList rest
  | rest => .error (unexpected rest)

/-- A name stands in quotes: whatever else is written in its place is no JSON. -/
def readName (text : List Char) : Except JsonFlaw (List Char × List Char) :=
  match skipBlanks text with
  | [] => .error .truncated
  | '"' :: rest => readString rest
  | _ => .error .malformed

def modeOfName (name : List Char) : Except JsonFlaw IntakeMode :=
  if name = "addressed".toList then .ok .addressed
  else if name = "sweep".toList then .ok .sweep
  else .error .mistyped

def readColon (text : List Char) : Except JsonFlaw (List Char) :=
  match skipBlanks text with
  | [] => .error .truncated
  | ':' :: rest => .ok rest
  | _ => .error .malformed

/-- A mode is its name, or an object that holds null under the name and nothing else. -/
def readMode (text : List Char) : Except JsonFlaw (IntakeMode × List Char) :=
  match skipBlanks text with
  | [] => .error .truncated
  | '"' :: rest => do
    let (name, rest) ← readString rest
    .ok (← modeOfName name, rest)
  | '\x7b' :: rest => do
    let (name, rest) ← readName rest
    let mode ← modeOfName name
    let rest ← readNull (← readColon rest)
    match skipBlanks rest with
    | [] => .error .truncated
    | '\x7d' :: rest => .ok (mode, rest)
    | _ => .error .malformed
  | _ => .error .malformed

def Field.read (settings : Settings) (text : List Char) :
    Field → Except JsonFlaw (Settings × List Char)
  | .bindHost => do
    let (host, rest) ← readText text
    .ok ({ settings with bindHost := String.ofList host }, rest)
  | .port => do
    let (n, rest) ← readNatural (Nat.pow 2 16) text
    .ok ({ settings with port := n }, rest)
  | .maxClients => do
    let (n, rest) ← readNatural wordLimit text
    .ok ({ settings with maxClients := n }, rest)
  | .maxRooms => do
    let (n, rest) ← readNatural wordLimit text
    .ok ({ settings with maxRooms := n }, rest)
  | .defaultRoom => do
    let (room, rest) ← readText text
    .ok ({ settings with defaultRoom := String.ofList room }, rest)
  | .echoChatToSender => do
    let (flag, rest) ← readFlag text
    .ok ({ settings with echoChatToSender := flag }, rest)
  | .autoCreateRooms => do
    let (flag, rest) ← readFlag text
    .ok ({ settings with autoCreateRooms := flag }, rest)
  | .readiness => do
    let (mode, rest) ← readMode text
    .ok ({ settings with readiness := mode }, rest)
  | .maxLineLength => do
    let (n, rest) ← readNatural wordLimit text
    .ok ({ settings with maxLineLength := n }, rest)
  | .channelCapacity => do
    let (n, rest) ← readNatural wordLimit text
    .ok ({ settings with channelCapacity := n }, rest)
  | .clientQueue => do
    let (n, rest) ← readNatural wordLimit text
    .ok ({ settings with clientQueue := n }, rest)
  | .shutdownTimeoutMs => do
    let (n, rest) ← readNatural wordLimit text
    .ok ({ settings with shutdownTimeoutMs := n }, rest)

/-- The next element of an array: what remains of the text, or nothing if the array ends. -/
def nextElement (first : Bool) (text : List Char) : Except JsonFlaw (Bool × List Char) :=
  match skipBlanks text with
  | [] => .error .truncated
  | ']' :: rest => .ok (false, rest)
  | c :: rest =>
    if first then .ok (true, c :: rest)
    else if c = ',' then
      match skipBlanks rest with
      | [] => .error .truncated
      | ']' :: _ => .error .malformed
      | rest => .ok (true, rest)
    else .error .malformed

/-- Fills the fields from an array, which must end when they do. -/
def readElements (first : Bool) (settings : Settings) :
    List Field → List Char → Except JsonFlaw (Settings × List Char)
  | [], text =>
    match skipBlanks text with
    | [] => .error .truncated
    | ']' :: rest => .ok (settings, rest)
    | _ => .error .malformed
  | field :: fields, text => do
    let (more, rest) ← nextElement first text
    if more then
      let (settings, rest) ← field.read settings rest
      readElements false settings fields rest
    else .ok (settings, rest)

/-- The name of the next member of an object, or nothing if the object ends. -/
def nextMember (first : Bool) (text : List Char) :
    Except JsonFlaw (Option (List Char) × List Char) :=
  match skipBlanks text with
  | [] => .error .truncated
  | '\x7d' :: rest => .ok (none, rest)
  | c :: rest =>
    if first then named (c :: rest)
    else if c = ',' then named rest
    else .error .malformed
where
  named (text : List Char) : Except JsonFlaw (Option (List Char) × List Char) := do
    let (name, rest) ← readName text
    .ok (some name, rest)

/-- The value of a member. A field may be given once; a name that is no field's is passed over. -/
def readMember (seen : List Field) (settings : Settings) (name text : List Char) :
    Except JsonFlaw (List Field × Settings × List Char) :=
  match Field.ofKey? name with
  | none => do .ok (seen, settings, ← skipValue (← readColon text))
  | some field =>
    if field ∈ seen then .error .mistyped
    else do
      let (settings, rest) ← field.read settings (← readColon text)
      .ok (field :: seen, settings, rest)

def readMembers (first : Bool) (seen : List Field) (settings : Settings) :
    (members : Nat) → List Char → Except JsonFlaw (Settings × List Char)
  | 0, _ => .error .truncated
  | members + 1, text => do
    let (name?, rest) ← nextMember first text
    match name? with
    | none => .ok (settings, rest)
    | some name =>
      let (seen, settings, rest) ← readMember seen settings name rest
      readMembers false seen settings members rest

def readValue (text : List Char) : Except JsonFlaw (Settings × List Char) :=
  match skipBlanks text with
  | '[' :: rest => readElements true {} Field.all rest
  | '\x7b' :: rest => readMembers true [] {} (rest.length + 1) rest
  | rest => .error (unexpected rest)

/-- The settings that a text writes, before any check of their values. -/
def readJson (text : String) : Except JsonFlaw Settings := do
  let (settings, rest) ← readValue text.toList
  if (skipBlanks rest).isEmpty then .ok settings else .error .malformed

/-- The settings that a text writes, if the server can run with them. -/
def ofJson (text : String) : Except Failure Settings :=
  match readJson text with
  | .error flaw => .error (.json flaw)
  | .ok settings => do
    settings.check
    return settings

/-- The settings in a file, given what the file holds if it exists. -/
def ofFile (contents : Option ByteArray) : Except Failure Settings :=
  match contents with
  | none => .error (.file .missing)
  | some bytes =>
    match String.fromUTF8? bytes with
    | none => .error (.file .notUnicode)
    | some text => ofJson text

/-- The environment variable that names a file of settings. -/
def fileVariable : String := "CHAT_RELAY_CONFIG"

/-- The settings in the file that the environment names, or the defaults if it names none. -/
def load (named : Option (Option ByteArray)) : Except Failure Settings :=
  match named with
  | none => .ok {}
  | some contents => ofFile contents

end Settings

end ChatRooms
