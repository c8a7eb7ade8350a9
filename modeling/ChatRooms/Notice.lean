import ChatRooms.Name

namespace ChatRooms

/-- The lines that the server sends, each told apart by what happened and to whom. -/
inductive Notice where
  | refused (cause : Refusal)
  | welcome (nickname : String) (room : RoomName)
  | chat (room : RoomName) (nickname text : String)
  | connected (nickname : String)
  | disconnected (nickname : String)
  | joined (nickname : String) (room : RoomName)
  | left (nickname : String) (room : RoomName)
  | moved (room : RoomName)
  | alreadyIn (room : RoomName)
  | roomCreated (room : RoomName)
  | roomRemoved (room : RoomName)
  | roomList (rooms : List (RoomName × Nat))
  | userList (room : RoomName) (nicknames : List String)
  | nicknameSet (nickname : String)
  | renamed (old new : String)
  | whisperFrom (sender body : String)
  | whisperTo (target body : String)
  | goodbye
  | shuttingDown
  | help
  deriving DecidableEq, Repr

namespace Notice

def roomEntry (room : RoomName × Nat) : String :=
  room.1.text ++ " (" ++ toString room.2 ++ ")"

def helpText : String :=
  "* commands: CMD:add:<room>: CMD:rm:<room>: CMD:join:<room>: CMD:leave:: " ++
  "CMD:list:: CMD:users:: CMD:nickname:<name>: CMD:quit:: " ++
  "| chat: CHAT:<nick>:<room>:<text> | whisper: WHISPER:<nick>:<target>:<text>"

/-- The line without its newline. -/
def line : Notice → String
  | refused cause => "error: " ++ cause.kind ++ ": " ++ cause.message
  | welcome nickname room =>
    "* welcome " ++ nickname ++ "! you are in room '" ++ room.text ++
      "' (CMD:help:: lists commands)"
  | chat room nickname text => "[" ++ room.text ++ "] " ++ nickname ++ ": " ++ text
  | connected nickname => "* " ++ nickname ++ " connected"
  | disconnected nickname => "* " ++ nickname ++ " disconnected"
  | joined nickname room => "* " ++ nickname ++ " joined room '" ++ room.text ++ "'"
  | left nickname room => "* " ++ nickname ++ " left room '" ++ room.text ++ "'"
  | moved room => "* you are now in room '" ++ room.text ++ "'"
  | alreadyIn room => "* you are already in room '" ++ room.text ++ "'"
  | roomCreated room => "* room '" ++ room.text ++ "' created"
  | roomRemoved room => "* room '" ++ room.text ++ "' removed"
  | roomList rooms =>
    "* rooms (" ++ toString rooms.length ++ "): " ++ ", ".intercalate (rooms.map roomEntry)
  | userList room nicknames =>
    "* users in '" ++ room.text ++ "' (" ++ toString nicknames.length ++ "): " ++
      ", ".intercalate nicknames
  | nicknameSet nickname => "* your nickname is now '" ++ nickname ++ "'"
  | renamed old new => "* " ++ old ++ " is now known as " ++ new
  | whisperFrom sender body => "[whisper from " ++ sender ++ "] " ++ body
  | whisperTo target body => "[whisper to " ++ target ++ "] " ++ body
  | goodbye => "* goodbye"
  | shuttingDown => "* server is shutting down"
  | help => helpText

end Notice

end ChatRooms
