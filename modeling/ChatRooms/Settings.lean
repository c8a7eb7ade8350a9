import ChatRooms.Failure
import ChatRooms.Name
import ChatRooms.SocketAddress

namespace ChatRooms

/-- How workers make pending input known: as envelopes in one shared queue, or as private queues
that the hub visits when a bell rings. -/
inductive IntakeMode where
  | addressed
  | sweep
  deriving DecidableEq, Repr

/-- What an operator can set. -/
structure Settings where
  /-- Interface to listen on. -/
  bindHost : String := "0.0.0.0"
  /-- Port to listen on; 0 takes any free one. -/
  port : Nat := 8080
  maxClients : Nat := 64
  /-- The default room counts. -/
  maxRooms : Nat := 64
  /-- The room of every newcomer. It is never removed. -/
  defaultRoom : String := "general"
  echoChatToSender : Bool := false
  /-- Whether joining a missing room creates it. -/
  autoCreateRooms : Bool := true
  readiness : IntakeMode := .addressed
  /-- Longest accepted line, in bytes before its newline. -/
  maxLineLength : Nat := 1024
  /-- Capacity of the hub's own queues. -/
  channelCapacity : Nat := 256
  /-- Capacity of each client's outbox. -/
  clientQueue : Nat := 32
  /-- How long the server waits for its workers when it stops. -/
  shutdownTimeoutMs : Nat := 5000
  deriving DecidableEq, Repr

namespace Settings

def defaultRoomName (settings : Settings) : Except Failure RoomName :=
  match RoomName.parse settings.defaultRoom with
  | .ok room => .ok room
  | .error refusal => .error (.settings ("default_room: " ++ refusal.message))

/-- The wait at the end, as whole seconds and the nanoseconds beyond them. -/
def shutdownTimeout (settings : Settings) : Nat × Nat :=
  (settings.shutdownTimeoutMs / 1000, settings.shutdownTimeoutMs % 1000 * 1000000)

/-- The first thing that keeps the server from running with these settings. -/
def check (settings : Settings) : Except Failure Unit :=
  if settings.maxClients = 0 then .error (.settings "max_clients must be positive")
  else if settings.maxRooms = 0 then .error (.settings "max_rooms must be positive")
  else if settings.clientQueue = 0 ∨ settings.channelCapacity = 0 then
    .error (.settings "queue capacities must be positive")
  else if settings.maxLineLength = 0 then .error (.settings "max_line_length must be positive")
  else
    match settings.defaultRoomName with
    | .ok _ => .ok ()
    | .error failure => .error failure

/-- The address to listen on. -/
def bindAddress (settings : Settings) : Except Failure SocketAddress :=
  match SocketAddress.parse (settings.bindHost ++ ":" ++ toString settings.port) with
  | some address => .ok address
  | none => .error (.settings "bind address: invalid socket address syntax")

end Settings

end ChatRooms
