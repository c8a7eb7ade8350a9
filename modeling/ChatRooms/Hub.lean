import ChatRooms.Directory.Audit
import ChatRooms.Notice
import ChatRooms.Request
import ChatRooms.Settings

namespace ChatRooms

/-- It owns the directory and takes one event at a time. It never looks at an outbox, so no client can
change what it does by being slow. -/
structure Hub where
  echoChatToSender : Bool := false
  autoCreateRooms : Bool := true
  directory : Directory
  /-- The number in the guest nickname given out last. -/
  lastGuest : Nat := 0

inductive Event where
  /-- A connection was accepted. -/
  | register (id : ClientId) (peer : Option SocketAddress)
  /-- A client's worker has ended. -/
  | exited (id : ClientId)
  | line (id : ClientId) (text : String)
  /-- A client's worker has nothing more to report. -/
  | closed (id : ClientId)
  | shutdown
  deriving DecidableEq, Repr

inductive Effect where
  | deliver (id : ClientId) (notice : Notice)
  /-- Let go of the client's outbox. -/
  | hangUp (id : ClientId)
  /-- Start to visit the client's feed. -/
  | attach (id : ClientId)
  /-- Stop to visit the client's feed. -/
  | detach (id : ClientId)
  deriving DecidableEq, Repr

namespace Hub

/-- What handling an event gives. -/
abbrev Outcome := Except Defect (Hub × List Effect)

def start (settings : Settings) (defaultRoom : RoomName) : Hub where
  echoChatToSender := settings.echoChatToSender
  autoCreateRooms := settings.autoCreateRooms
  directory := .new defaultRoom settings.maxRooms

def guestNickname (n : Nat) : String :=
  "guest" ++ toString n

def guestLimit : Nat := Nat.pow 2 64

/-- The first number after `last` whose nickname is free, among as many as `tries` allows. -/
def nextGuest (directory : Directory) : (tries last : Nat) → Option Nat
  | 0, _ => none
  | tries + 1, last =>
    if guestLimit ≤ last + 1 then none
    else if directory.hasNickname (guestNickname (last + 1)) then
      nextGuest directory tries (last + 1)
    else some (last + 1)

/-- Each indexed nickname can stand in the way once. -/
def nextGuestNumber (hub : Hub) : Option Nat :=
  nextGuest hub.directory (hub.directory.nicknames.size + 1) hub.lastGuest

/-- To every active member of a room but at most one. -/
def broadcast (directory : Directory) (room : RoomName) (notice : Notice)
    (spared : Option ClientId) : List Effect :=
  (directory.members room).filter (fun member => member.isActive && some member.id != spared)
    |>.map fun member => .deliver member.id notice

def chat (hub : Hub) (sender : Occupant) (text : String) : List Effect :=
  broadcast hub.directory sender.room (.chat sender.room sender.nickname text)
    (if hub.echoChatToSender then none else some sender.id)

def whisper (hub : Hub) (sender : Occupant) (target body : String) :
    Except Refusal (List Effect) :=
  match (hub.directory.findByNickname? target).filter Occupant.isActive with
  | none => .error (.userNotFound target)
  | some hearer =>
    .ok [.deliver hearer.id (.whisperFrom sender.nickname body),
      .deliver sender.id (.whisperTo target body)]

/-- Both rooms hear of a move, each as it is after the move. -/
def move (hub : Hub) (client : Occupant) (target : RoomName) (create : Bool) :
    Except Stop (Hub × List Effect) :=
  match hub.directory.move client.id target create with
  | .error stop => .error stop
  | .ok (directory, .unchanged) =>
    .ok ({ hub with directory }, [.deliver client.id (.alreadyIn target)])
  | .ok (directory, .moved origin target _ vacated) =>
    .ok ({ hub with directory },
      (if vacated then []
        else broadcast directory origin (.left client.nickname origin) (some client.id)) ++
      broadcast directory target (.joined client.nickname target) (some client.id) ++
      [.deliver client.id (.moved target)])

def rename (hub : Hub) (client : Occupant) (nickname : String) :
    Except Refusal (Hub × List Effect) :=
  if client.nickname = nickname then
    .ok (hub, [.deliver client.id (.nicknameSet nickname)])
  else
    match hub.directory.rename client.id nickname with
    | .error refusal => .error refusal
    | .ok (directory, old) =>
      .ok ({ hub with directory },
        .deliver client.id (.nicknameSet nickname) ::
          broadcast directory client.room (.renamed old nickname) (some client.id))

def quit (hub : Hub) (client : Occupant) : Except Refusal (Hub × List Effect) :=
  match hub.directory.hangUp client.id with
  | .error refusal => .error refusal
  | .ok directory =>
    .ok ({ hub with directory }, [.deliver client.id .goodbye, .hangUp client.id])

/-- A change to the directory that the client alone is told of. -/
def confirm (hub : Hub) (client : Occupant) (notice : Notice) :
    Except Refusal Directory → Except Stop (Hub × List Effect)
  | .error refusal => .error (.refused refusal)
  | .ok directory => .ok ({ hub with directory }, [.deliver client.id notice])

def orRefuse {α : Type} : Except Refusal α → Except Stop α
  | .ok a => .ok a
  | .error refusal => .error (.refused refusal)

def command (hub : Hub) (client : Occupant) : Command → Except Stop (Hub × List Effect)
  | .add room => hub.confirm client (.roomCreated room) (hub.directory.addRoom room)
  | .remove room => hub.confirm client (.roomRemoved room) (hub.directory.removeRoom room)
  | .join room => hub.move client room hub.autoCreateRooms
  | .leave =>
    let room := hub.directory.defaultRoom
    if client.room = room then .error (.refused (.alreadyDefault room.text))
    else hub.move client room false
  | .list => .ok (hub, [.deliver client.id (.roomList hub.directory.roomSummaries)])
  | .users =>
    .ok (hub, [.deliver client.id (.userList client.room (hub.directory.nicknamesIn client.room))])
  | .nickname name => orRefuse (hub.rename client name)
  | .quit => orRefuse (hub.quit client)
  | .help => .ok (hub, [.deliver client.id .help])

def perform (hub : Hub) (client : Occupant) : Request → Except Stop (Hub × List Effect)
  | .chat text => .ok (hub, hub.chat client text)
  | .whisper target body => do
    let effects ← orRefuse (hub.whisper client target body)
    .ok (hub, effects)
  | .command command => hub.command client command

/-- Decodes and performs a line. What it asks for is done entirely, or refused and not begun. -/
def request (hub : Hub) (client : Occupant) (line : String) : Outcome :=
  match orRefuse (Request.decode line) >>= hub.perform client with
  | .ok outcome => .ok outcome
  | .error (.broken defect) => .error defect
  | .error (.refused refusal) => .ok (hub, [.deliver client.id (.refused refusal)])

/-- Lines of clients that are unknown or have been cut off are dropped. -/
def hear (hub : Hub) (id : ClientId) (line : String) : Outcome :=
  match hub.directory.occupants[id]? with
  | some client => if client.isActive then hub.request client line else .ok (hub, [])
  | none => .ok (hub, [])

/-- Registers a newcomer under a free guest nickname, and greets it. -/
def welcome (hub : Hub) (id : ClientId) (peer : Option SocketAddress) : Outcome :=
  match hub.nextGuestNumber with
  | none => .error .guestNumbersExhausted
  | some guest =>
    let nickname := guestNickname guest
    match hub.directory.register id nickname peer with
    | .error _ => .ok ({ hub with lastGuest := guest }, [.attach id, .detach id, .hangUp id])
    | .ok directory =>
      let room := directory.defaultRoom
      .ok ({ hub with directory, lastGuest := guest },
        .attach id :: .deliver id (.welcome nickname room) ::
          broadcast directory room (.connected nickname) (some id))

/-- Removes a client and everything it had, unless that has been done before. -/
def reclaim (hub : Hub) (id : ClientId) : Outcome :=
  match hub.directory.remove id with
  | .error defect => .error defect
  | .ok (directory, none) => .ok ({ hub with directory }, [.detach id])
  | .ok (directory, some departure) =>
    let client := departure.occupant
    .ok ({ hub with directory },
      .detach id :: .hangUp id ::
        if departure.vacated then []
        else broadcast directory client.room (.disconnected client.nickname) none)

/-- Tells every client that it is over, and lets go of it. -/
def closeAll (hub : Hub) : Hub × List Effect :=
  ({ hub with directory := hub.directory.hangUpAll },
    hub.directory.occupants.toList.flatMap fun (id, client) =>
      if client.isActive then [.deliver id .shuttingDown, .hangUp id] else [.hangUp id])

/-- Stops at the first sign that the directory is out of step. -/
def audited : Outcome → Outcome
  | .error defect => .error defect
  | .ok (hub, effects) =>
    match hub.directory.audit with
    | some violation => .error (.invariantViolated violation)
    | none => .ok (hub, effects)

def handle (hub : Hub) : Event → Outcome
  | .register id peer => hub.welcome id peer
  | .exited id => hub.reclaim id
  | .line id text => audited (hub.hear id text)
  | .closed id => audited (hub.reclaim id)
  | .shutdown => .ok hub.closeAll

/-- Handles events in order; the effects are in the order of the events. -/
def handleAll (hub : Hub) : List Event → Outcome
  | [] => .ok (hub, [])
  | event :: events => do
    let (hub, effects) ← hub.handle event
    let (hub, more) ← hub.handleAll events
    return (hub, effects ++ more)

end Hub

end ChatRooms
