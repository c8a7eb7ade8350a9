import Std.Async.Signal
import Std.Async.TCP
import Std.Async.Timer
import Std.Sync.Channel
import ChatRooms.CommandLine

namespace ChatRooms.Main

open Std.Async

/-- What the loop is told. -/
inductive News where
  | connected (socket : TCP.Socket.Client)
  | occurred (occurrence : Occurrence)

instance : Inhabited News := ⟨.occurred .stopRequested⟩

abbrev Inbox := Std.Channel News

def tell (inbox : Inbox) (news : News) : Async Unit :=
  discard <| (inbox.send news : BaseIO _)

/-- The same address for the sockets. A scope is not passed on. -/
def socketAddress : SocketAddress → Std.Net.SocketAddress
  | .v4 octets port =>
    let octet (i : Nat) : UInt8 := (octets.getD i 0).toUInt8
    .v4 ⟨.ofParts (octet 0) (octet 1) (octet 2) (octet 3), port.toUInt16⟩
  | .v6 groups _ port =>
    let group (i : Nat) : UInt16 := (groups.getD i 0).toUInt16
    .v6 ⟨.ofParts (group 0) (group 1) (group 2) (group 3) (group 4) (group 5) (group 6) (group 7),
      port.toUInt16⟩

/-- Where a socket was reached from. -/
def peerOf : Std.Net.SocketAddress → SocketAddress
  | .v4 address =>
    .v4 (address.addr.octets.toList.map UInt8.toNat) address.port.toNat
  | .v6 address =>
    .v6 (address.addr.segments.toList.map UInt16.toNat) 0 address.port.toNat

/-- Reports what a socket receives until there is no more. -/
partial def listen (inbox : Inbox) (id : ClientId) (socket : TCP.Socket.Client) : Async Unit := do
  let received ← try some <$> socket.recv? 4096 catch _ => pure none
  match received with
  | some (some bytes) =>
    tell inbox (.occurred (.received id bytes.toList))
    listen inbox id socket
  | some none => tell inbox (.occurred (.inputEnded id))
  | none => tell inbox (.occurred (.broken id))

def send (inbox : Inbox) (id : ClientId) (socket : TCP.Socket.Client) (line : String) :
    Async Unit := do
  let occurrence : Occurrence ←
    try
      socket.send (ByteArray.mk (Framing.encode line).toArray)
      pure (.written id)
    catch _ => pure (.broken id)
  tell inbox (.occurred occurrence)

partial def acceptAll (inbox : Inbox) (server : TCP.Socket.Server) : Async Unit := do
  try
    tell inbox (.connected (← server.accept))
  catch _ =>
    sleep 100
  acceptAll inbox server

partial def tick (inbox : Inbox) : Async Unit := do
  sleep 50
  tell inbox (.occurred (.timePassed 50))
  tick inbox

def awaitInterrupt (inbox : Inbox) : Async Unit := do
  let waiter ← Signal.Waiter.mk .sigint false
  discard <| await (← waiter.wait)
  tell inbox (.occurred .stopRequested)
  tick inbox

abbrev Sockets := Std.ExtTreeMap ClientId TCP.Socket.Client

/-- Tells a client that there is no place for it. -/
def turnAway (socket : TCP.Socket.Client) (line : String) : Async Unit := do
  try
    socket.send (ByteArray.mk (Framing.encode line).toArray)
    socket.shutdown
  catch _ => pure ()

def perform (inbox : Inbox) (sockets : Sockets) : Output → Async Sockets
  | .send id line => do
    if let some socket := sockets[id]? then
      background (send inbox id socket line)
    return sockets
  | .hangUp id => do
    if let some socket := sockets[id]? then
      background (try socket.shutdown catch _ => pure ())
    return sockets.erase id
  | .turnAway id line => do
    if let some socket := sockets[id]? then
      background (turnAway socket line)
    return sockets.erase id

def newId : BaseIO ClientId := do
  let high ← IO.rand 0 (Nat.pow 2 64 - 1)
  let low ← IO.rand 0 (Nat.pow 2 64 - 1)
  return high * Nat.pow 2 64 + low

/-- Answers one thing after another until the service has stopped. -/
partial def serve (inbox : Inbox) (service : Service) (sockets : Sockets) : Async UInt32 := do
  let next ← (inbox.recv : BaseIO _)
  let news ← (IO.wait next : BaseIO _)
  let (occurrence, sockets) ← match news with
    | .occurred occurrence => pure (occurrence, sockets)
    | .connected socket =>
      let id ← (newId : BaseIO _)
      let peer ← try some <$> (socket.getPeerName : IO _) catch _ => pure none
      background (listen inbox id socket)
      pure (Occurrence.accepted id (peer.map peerOf), sockets.insert id socket)
  match service.react occurrence with
  | .error fault =>
    (IO.eprintln fault.message : IO _)
    return 101
  | .ok (service, outputs) =>
    let mut sockets := sockets
    for output in outputs do
      sockets ← perform inbox sockets output
    if service.isStopped then return 0
    serve inbox service sockets

/-- What the environment says about a file of settings: nothing, or the file's contents if it can be
read. -/
def namedFile : IO (Option (Option ByteArray)) := do
  match ← IO.getEnv Settings.fileVariable with
  | none => return none
  | some path => try return some (some (← IO.FS.readBinFile path)) catch _ => return some none

def run (service : Service) (address : SocketAddress) : Async UInt32 := do
  let server ← TCP.Socket.Server.mk
  server.bind (socketAddress address)
  server.listen 128
  let inbox ← (Std.Channel.new : BaseIO Inbox)
  background (awaitInterrupt inbox)
  background (acceptAll inbox server)
  serve inbox service ∅

end ChatRooms.Main

def main (arguments : List String) : IO UInt32 := do
  let named ← ChatRooms.Main.namedFile
  match ChatRooms.CommandLine.start arguments named with
  | .error fault =>
    IO.eprintln fault.message
    return fault.status.toUInt32
  | .ok (service, address) =>
    try (ChatRooms.Main.run service address).block
    catch error =>
      IO.eprintln error.toString
      return 1
