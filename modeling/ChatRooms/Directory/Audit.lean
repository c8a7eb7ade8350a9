import ChatRooms.Directory

namespace ChatRooms.Directory

def occupantViolation (directory : Directory) (occupant : Occupant) : Option Violation :=
  if directory.nicknames[occupant.nickname]? ≠ some occupant.id then
    some (.nicknameNotIndexed occupant.nickname)
  else if directory.rooms[occupant.room]?.any fun room => room.contains occupant.id then none
  else some (.notInItsRoom occupant.id occupant.room)

def memberViolation (directory : Directory) (room : RoomName) (id : ClientId) :
    Option Violation :=
  if directory.occupants[id]?.any fun occupant => occupant.room = room then none
  else some (.staleMember room id)

def roomViolation (directory : Directory) (room : Room) : Option Violation :=
  room.members.toList.findSome? (directory.memberViolation room.name)

def audit (directory : Directory) : Option Violation :=
  if !directory.hasRoom directory.defaultRoom then some .defaultRoomMissing
  else if directory.nicknames.size ≠ directory.occupants.size then some .indexOutOfStep
  else
    (directory.occupants.toList.findSome? fun entry => directory.occupantViolation entry.2).or
      (directory.rooms.toList.findSome? fun entry => directory.roomViolation entry.2)

end ChatRooms.Directory
