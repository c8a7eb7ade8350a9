import ChatRooms.Frame
import ChatRooms.Name

namespace ChatRooms

inductive Command where
  | add (room : RoomName)
  | remove (room : RoomName)
  | join (room : RoomName)
  | leave
  | list
  | users
  | nickname (name : String)
  | quit
  | help
  deriving DecidableEq, Repr

namespace Command

/-- Whether the command can change who is where, or under which name. -/
def isMutating : Command → Bool
  | list | users | help => false
  | _ => true

def required (verb argument what : String) : Except Refusal String :=
  if argument.isEmpty then .error (.malformed (.missingArgument verb what)) else .ok argument

def roomArgument (verb argument : String) : Except Refusal RoomName := do
  RoomName.parse (← required verb argument "room name")

def nicknameArgument (verb argument : String) : Except Refusal String := do
  let name ← required verb argument "nickname"
  checkName "nickname" name
  return name

def parse (verb argument : String) : Except Refusal Command :=
  if verb.isEmpty then .error (.malformed .missingVerb)
  else
    match String.ofList (Frame.lowercase verb.toList) with
    | "add" => add <$> roomArgument verb argument
    | "rm" => remove <$> roomArgument verb argument
    | "join" => join <$> roomArgument verb argument
    | "leave" => .ok leave
    | "list" => .ok list
    | "users" => .ok users
    | "nickname" => nickname <$> nicknameArgument verb argument
    | "nick" => nickname <$> nicknameArgument verb argument
    | "quit" => .ok quit
    | "help" => .ok help
    | _ => .error (.unknownCommand verb)

end Command

/-- The nickname and room that a client writes into its own fields carry no weight and are not kept. -/
inductive Request where
  | chat (text : String)
  | command (command : Command)
  | whisper (target body : String)
  deriving DecidableEq, Repr

namespace Request

def ofFrame (frame : Frame) : Except Refusal Request :=
  match frame.kind with
  | .chat => .ok (chat frame.body)
  | .command => command <$> Command.parse frame.arg1 frame.arg2
  | .whisper =>
    if frame.arg2.isEmpty then .error (.malformed .missingTarget)
    else .ok (whisper frame.arg2 frame.body)

def decode (line : String) : Except Refusal Request := do
  ofFrame (← Frame.parse line)

end Request

end ChatRooms
