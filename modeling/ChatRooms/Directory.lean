import Std.Data.ExtTreeMap
import ChatRooms.Occupant
import ChatRooms.Room

namespace ChatRooms

open Std

/-- Who is connected, under which nickname, and where: three maps that are kept in step. -/
structure Directory where
  defaultRoom : RoomName
  /-- Most rooms at a time, the default room included. -/
  maxRooms : Nat
  occupants : ExtTreeMap ClientId Occupant := ∅
  rooms : ExtTreeMap RoomName Room := ∅
  nicknames : ExtTreeMap String ClientId := ∅

/-- How the maps can be out of step. -/
inductive Violation where
  | defaultRoomMissing
  | indexOutOfStep
  | nicknameNotIndexed (nickname : String)
  | notInItsRoom (id : ClientId) (room : RoomName)
  | staleMember (room : RoomName) (id : ClientId)
  deriving DecidableEq, Repr

def Violation.describe : Violation → String
  | defaultRoomMissing => "default room missing"
  | indexOutOfStep => "nickname index out of step"
  | nicknameNotIndexed nickname => "nickname " ++ nickname ++ " not indexed"
  | notInItsRoom id room => "client " ++ id.render ++ " not in its room " ++ room.text
  | staleMember room id => "room " ++ room.text ++ " has stale member " ++ id.render

/-- A defect of the server itself, which no request may bring about. -/
inductive Defect where
  | roomMissing
  | invariantViolated (violation : Violation)
  | guestNumbersExhausted
  deriving DecidableEq, Repr

def Defect.message : Defect → String
  | roomMissing => "client room missing from registry"
  | invariantViolated violation => "registry invariant violated: " ++ violation.describe
  | guestNumbersExhausted => "attempt to add with overflow"

/-- Why an operation gives no result: it is refused, or it runs into a defect. -/
inductive Stop where
  | refused (refusal : Refusal)
  | broken (defect : Defect)
  deriving DecidableEq, Repr

inductive Move where
  | unchanged
  | moved (origin target : RoomName) (created vacated : Bool)
  deriving DecidableEq, Repr

/-- A client as it was when it was removed, and whether its room went with it. -/
structure Departure where
  occupant : Occupant
  vacated : Bool
  deriving DecidableEq, Repr

namespace Directory

def new (defaultRoom : RoomName) (maxRooms : Nat) : Directory where
  defaultRoom
  maxRooms
  rooms := (∅ : ExtTreeMap RoomName Room).insert defaultRoom
    { name := defaultRoom, isDefault := true }

def size (directory : Directory) : Nat :=
  directory.occupants.size

def roomCount (directory : Directory) : Nat :=
  directory.rooms.size

def isEmpty (directory : Directory) : Bool :=
  directory.occupants.isEmpty

def occupant (directory : Directory) (id : ClientId) : Except Refusal Occupant :=
  match directory.occupants[id]? with
  | some occupant => .ok occupant
  | none => .error (.clientNotFound id)

def hasRoom (directory : Directory) (room : RoomName) : Bool :=
  directory.rooms.contains room

def hasNickname (directory : Directory) (nickname : String) : Bool :=
  directory.nicknames.contains nickname

def findByNickname? (directory : Directory) (nickname : String) : Option Occupant :=
  directory.nicknames[nickname]?.bind fun id => directory.occupants[id]?

def members (directory : Directory) (room : RoomName) : List Occupant :=
  match directory.rooms[room]? with
  | some room => room.members.toList.filterMap fun id => directory.occupants[id]?
  | none => []

/-- All rooms with the number of their members, by name. -/
def roomSummaries (directory : Directory) : List (RoomName × Nat) :=
  directory.rooms.toList.map fun (_, room) => (room.name, room.size)

/-- The nicknames in a room, in order. -/
def nicknamesIn (directory : Directory) (room : RoomName) : List String :=
  ((directory.members room).map Occupant.nickname).mergeSort fun a b => (compare a b).isLE

/-- Puts a client into a room, if the room exists. -/
def enter (directory : Directory) (id : ClientId) (room : RoomName) : Directory :=
  match directory.rooms[room]? with
  | some found => { directory with rooms := directory.rooms.insert room (found.add id) }
  | none => directory

/-- Takes a client out of a room, and removes the room if that leaves it deserted. -/
def vacate (directory : Directory) (id : ClientId) (room : RoomName) :
    Except Defect (Directory × Bool) :=
  match directory.rooms[room]? with
  | none => .error .roomMissing
  | some found =>
    let found := found.remove id
    if found.isDeserted then .ok ({ directory with rooms := directory.rooms.erase room }, true)
    else .ok ({ directory with rooms := directory.rooms.insert room found }, false)

def register (directory : Directory) (id : ClientId) (nickname : String)
    (peer : Option SocketAddress) : Except Refusal Directory :=
  if directory.hasNickname nickname then .error (.duplicateNickname nickname)
  else
    let room := directory.defaultRoom
    let directory := directory.enter id room
    .ok { directory with
      nicknames := directory.nicknames.insert nickname id
      occupants := directory.occupants.insert id { id, nickname, room, peer, presence := .active } }

def addRoom (directory : Directory) (room : RoomName) : Except Refusal Directory :=
  if directory.hasRoom room then .error (.alreadyExists room.text)
  else if directory.maxRooms ≤ directory.roomCount then .error (.tooManyRooms directory.maxRooms)
  else .ok { directory with rooms := directory.rooms.insert room { name := room } }

/-- Removes an empty room, but never the default one. -/
def removeRoom (directory : Directory) (room : RoomName) : Except Refusal Directory :=
  if room = directory.defaultRoom then .error (.protectedRoom room.text)
  else
    match directory.rooms[room]? with
    | none => .error (.roomNotFound room.text)
    | some found =>
      if found.isEmpty then .ok { directory with rooms := directory.rooms.erase room }
      else .error (.notEmpty room.text)

/-- Whether leaving the room will remove it, which makes way for another. -/
def freesItsRoom (directory : Directory) (room : RoomName) : Bool :=
  room != directory.defaultRoom && directory.rooms[room]?.any fun found => found.size == 1

/-- Whether a client of `origin` may move to a room that does not exist yet. -/
def mayCreate (directory : Directory) (origin target : RoomName) (create : Bool) :
    Except Refusal Unit :=
  if !create then .error (.roomNotFound target.text)
  else if directory.maxRooms ≤ directory.roomCount ∧ !directory.freesItsRoom origin then
    .error (.tooManyRooms directory.maxRooms)
  else .ok ()

/-- Moves a client to a room, which is created on demand if `create` allows it. -/
def move (directory : Directory) (id : ClientId) (target : RoomName) (create : Bool) :
    Except Stop (Directory × Move) :=
  match directory.occupants[id]? with
  | none => .error (.refused (.clientNotFound id))
  | some occupant =>
    let origin := occupant.room
    if origin = target then .ok (directory, .unchanged)
    else
      let created := !directory.hasRoom target
      match if created then directory.mayCreate origin target create else .ok () with
      | .error refusal => .error (.refused refusal)
      | .ok () =>
        match directory.vacate id origin with
        | .error defect => .error (.broken defect)
        | .ok (directory, vacated) =>
          let directory :=
            if created then
              { directory with rooms := directory.rooms.insert target { name := target } }
            else directory
          let directory := directory.enter id target
          .ok ({ directory with
            occupants := directory.occupants.insert id { occupant with room := target } },
            .moved origin target created vacated)

/-- Gives a client another nickname, and returns the old one. -/
def rename (directory : Directory) (id : ClientId) (nickname : String) :
    Except Refusal (Directory × String) :=
  if directory.nicknames[nickname]?.any (· != id) then .error (.duplicateNickname nickname)
  else
    match directory.occupants[id]? with
    | none => .error (.clientNotFound id)
    | some occupant =>
      .ok ({ directory with
        occupants := directory.occupants.insert id { occupant with nickname }
        nicknames := (directory.nicknames.erase occupant.nickname).insert nickname id },
        occupant.nickname)

/-- Removes a client with everything that is known of it. It may have been removed before. -/
def remove (directory : Directory) (id : ClientId) :
    Except Defect (Directory × Option Departure) :=
  match directory.occupants[id]? with
  | none => .ok (directory, none)
  | some occupant =>
    let directory := { directory with
      occupants := directory.occupants.erase id
      nicknames := directory.nicknames.erase occupant.nickname }
    match directory.vacate id occupant.room with
    | .error defect => .error defect
    | .ok (directory, vacated) => .ok (directory, some { occupant := occupant.hangUp, vacated })

/-- Rewrites an entry in place, whatever that does to the other maps. -/
def amend (directory : Directory) (id : ClientId) (change : Occupant → Occupant) :
    Except Refusal Directory :=
  match directory.occupants[id]? with
  | none => .error (.clientNotFound id)
  | some occupant =>
    .ok { directory with occupants := directory.occupants.insert id (change occupant) }

def hangUp (directory : Directory) (id : ClientId) : Except Refusal Directory :=
  directory.amend id Occupant.hangUp

def hangUpAll (directory : Directory) : Directory :=
  { directory with occupants := directory.occupants.map fun _ occupant => occupant.hangUp }

end Directory

end ChatRooms
