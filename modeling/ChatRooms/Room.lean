import Std.Data.ExtTreeSet
import ChatRooms.Name

namespace ChatRooms

structure Room where
  name : RoomName
  isDefault : Bool := false
  members : Std.ExtTreeSet ClientId := ∅

namespace Room

def contains (room : Room) (id : ClientId) : Bool :=
  room.members.contains id

def add (room : Room) (id : ClientId) : Room :=
  { room with members := room.members.insert id }

def remove (room : Room) (id : ClientId) : Room :=
  { room with members := room.members.erase id }

def size (room : Room) : Nat :=
  room.members.size

def isEmpty (room : Room) : Bool :=
  room.members.isEmpty

def isDeserted (room : Room) : Bool :=
  room.isEmpty && !room.isDefault

end Room

end ChatRooms
