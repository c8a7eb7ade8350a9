import ChatRooms.Name
import ChatRooms.SocketAddress

namespace ChatRooms

inductive Presence where
  /-- Not yet in a room. -/
  | connecting
  /-- In a room, and heard. -/
  | active
  /-- Cut off from its outbox and no longer heard, but still in its room until it is reclaimed. -/
  | disconnected
  deriving DecidableEq, Repr

structure Occupant where
  id : ClientId
  nickname : String
  room : RoomName
  /-- Where the client was reached from, if that is known. -/
  peer : Option SocketAddress := none
  presence : Presence := .connecting
  deriving DecidableEq, Repr

namespace Occupant

def isActive (occupant : Occupant) : Bool :=
  occupant.presence = .active

def hangUp (occupant : Occupant) : Occupant :=
  { occupant with presence := .disconnected }

end Occupant

end ChatRooms
