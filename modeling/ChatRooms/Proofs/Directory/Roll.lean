import ChatRooms.Proofs.Directory.Integrity

namespace ChatRooms

open Std

/-- What is known of a client, apart from its identifier. -/
structure Entry where
  nickname : String
  room : RoomName
  peer : Option SocketAddress
  presence : Presence
  deriving DecidableEq, Repr

def Entry.occupant (entry : Entry) (id : ClientId) : Occupant where
  id
  nickname := entry.nickname
  room := entry.room
  peer := entry.peer
  presence := entry.presence

def Occupant.entry (occupant : Occupant) : Entry where
  nickname := occupant.nickname
  room := occupant.room
  peer := occupant.peer
  presence := occupant.presence

structure Roll where
  defaultRoom : RoomName
  maxRooms : Nat
  entries : ExtTreeMap ClientId Entry := ∅
  rooms : ExtTreeSet RoomName

namespace Roll

/-- The clients whose room it is, by identifier. -/
def members (roll : Roll) (room : RoomName) : List Occupant :=
  (roll.entries.toList.filter fun (_, entry) => entry.room = room).map fun (id, entry) =>
    entry.occupant id

def isTaken (roll : Roll) (nickname : String) : Bool :=
  roll.entries.toList.any fun (_, entry) => entry.nickname = nickname

def isTakenBesides (roll : Roll) (id : ClientId) (nickname : String) : Bool :=
  roll.entries.toList.any fun (other, entry) => entry.nickname = nickname && other != id

def findByNickname? (roll : Roll) (nickname : String) : Option Occupant :=
  (roll.entries.toList.find? fun (_, entry) => entry.nickname = nickname).map fun (id, entry) =>
    entry.occupant id

def nicknamesIn (roll : Roll) (room : RoomName) : List String :=
  ((roll.members room).map Occupant.nickname).mergeSort fun a b => (compare a b).isLE

def roomSummaries (roll : Roll) : List (RoomName × Nat) :=
  roll.rooms.toList.map fun room => (room, (roll.members room).length)

def goesWith (roll : Roll) (id : ClientId) (room : RoomName) : Bool :=
  room != roll.defaultRoom && (roll.members room).all fun occupant => occupant.id = id

def without (roll : Roll) (id : ClientId) (room : RoomName) : ExtTreeSet RoomName :=
  if roll.goesWith id room then roll.rooms.erase room else roll.rooms

def register (roll : Roll) (id : ClientId) (nickname : String) (peer : Option SocketAddress) :
    Except Refusal Roll :=
  if roll.isTaken nickname then .error (.duplicateNickname nickname)
  else .ok { roll with
    entries := roll.entries.insert id
      { nickname, room := roll.defaultRoom, peer, presence := .active } }

def addRoom (roll : Roll) (room : RoomName) : Except Refusal Roll :=
  if room ∈ roll.rooms then .error (.alreadyExists room.text)
  else if roll.maxRooms ≤ roll.rooms.size then .error (.tooManyRooms roll.maxRooms)
  else .ok { roll with rooms := roll.rooms.insert room }

def removeRoom (roll : Roll) (room : RoomName) : Except Refusal Roll :=
  if room = roll.defaultRoom then .error (.protectedRoom room.text)
  else if room ∉ roll.rooms then .error (.roomNotFound room.text)
  else if roll.members room ≠ [] then .error (.notEmpty room.text)
  else .ok { roll with rooms := roll.rooms.erase room }

def move (roll : Roll) (id : ClientId) (target : RoomName) (create : Bool) :
    Except Refusal (Roll × Move) :=
  match roll.entries[id]? with
  | none => .error (.clientNotFound id)
  | some entry =>
    if entry.room = target then .ok (roll, .unchanged)
    else if target ∉ roll.rooms ∧ create = false then .error (.roomNotFound target.text)
    else if target ∉ roll.rooms ∧ roll.maxRooms ≤ roll.rooms.size ∧
        roll.goesWith id entry.room = false then .error (.tooManyRooms roll.maxRooms)
    else .ok ({ roll with
      entries := roll.entries.insert id { entry with room := target }
      rooms := (roll.without id entry.room).insert target },
      .moved entry.room target (target ∉ roll.rooms) (roll.goesWith id entry.room))

def rename (roll : Roll) (id : ClientId) (nickname : String) : Except Refusal (Roll × String) :=
  if roll.isTakenBesides id nickname then .error (.duplicateNickname nickname)
  else
    match roll.entries[id]? with
    | none => .error (.clientNotFound id)
    | some entry =>
      .ok ({ roll with entries := roll.entries.insert id { entry with nickname } }, entry.nickname)

def remove (roll : Roll) (id : ClientId) : Roll × Option Departure :=
  match roll.entries[id]? with
  | none => (roll, none)
  | some entry =>
    ({ roll with
      entries := roll.entries.erase id
      rooms := roll.without id entry.room },
      some {
        occupant := (entry.occupant id).hangUp
        vacated := roll.goesWith id entry.room })

def hangUp (roll : Roll) (id : ClientId) : Except Refusal Roll :=
  match roll.entries[id]? with
  | none => .error (.clientNotFound id)
  | some entry =>
    .ok { roll with entries := roll.entries.insert id { entry with presence := .disconnected } }

end Roll

namespace Directory

def roll (directory : Directory) : Roll where
  defaultRoom := directory.defaultRoom
  maxRooms := directory.maxRooms
  entries := directory.occupants.map fun _ occupant => occupant.entry
  rooms := ExtTreeSet.ofList directory.rooms.keys

variable {directory : Directory} {name : RoomName}

theorem mem_roll_rooms : name ∈ directory.roll.rooms ↔ name ∈ directory.rooms := by
  rw [roll, ExtTreeSet.mem_ofList, List.contains_iff_mem, ExtTreeMap.mem_keys]

theorem roll_eq {roll : Roll} (hdefault : directory.defaultRoom = roll.defaultRoom)
    (hmax : directory.maxRooms = roll.maxRooms)
    (hentries : ∀ i : ClientId, (directory.occupants[i]?).map Occupant.entry = roll.entries[i]?)
    (hrooms : ∀ name, name ∈ directory.rooms ↔ name ∈ roll.rooms) : directory.roll = roll := by
  have h₁ : directory.roll.entries = roll.entries := by
    apply ExtTreeMap.ext_getElem?
    intro i
    rw [← hentries, Directory.roll, ExtTreeMap.getElem?_map]
  have h₂ : directory.roll.rooms = roll.rooms := by
    apply ExtTreeSet.ext_mem
    intro name
    rw [mem_roll_rooms, hrooms]
  obtain ⟨defaultRoom, maxRooms, entries, rooms⟩ := roll
  subst hdefault hmax h₁ h₂
  rfl

end Directory

end ChatRooms
