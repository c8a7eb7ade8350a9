import ChatRooms.Exchange
import ChatRooms.Framing

namespace ChatRooms

open Std

inductive Stage where
  /-- Its registration waits for a place among the orders. -/
  | accepted
  /-- Its registration waits for the hub. -/
  | announced
  | working
  /-- Its worker has ended, and its slot is still taken. -/
  | ended
  /-- Its slot is free again, and the hub has not been told yet. -/
  | unreported
  deriving DecidableEq, Repr

structure Connection where
  peer : Option SocketAddress := none
  stage : Stage := .accepted
  /-- What was received and is not a line yet. -/
  received : List UInt8 := []
  /-- Lines that wait for a place in the intake. -/
  unheard : List String := []
  /-- Nothing more will be read, and the hub is to know. -/
  isFinished : Bool := false
  /-- A line is on its way out. -/
  isWriting : Bool := false
  deriving DecidableEq, Repr

/-- The exchange with its connections, each of which holds one of a fixed number of slots until its worker
has ended. -/
structure Service where
  exchange : Exchange
  maxClients : Nat
  maxLineLength : Nat
  clientQueue : Nat
  freeSlots : Nat
  connections : ExtTreeMap ClientId Connection := ∅

/-- What happens to the server from outside. -/
inductive Occurrence where
  | accepted (id : ClientId) (peer : Option SocketAddress)
  | received (id : ClientId) (bytes : List UInt8)
  /-- The client will send nothing more. -/
  | inputEnded (id : ClientId)
  /-- The line that was on its way has left. -/
  | written (id : ClientId)
  | broken (id : ClientId)
  | stopRequested
  | timePassed (time : Nat)
  deriving DecidableEq, Repr

/-- What the server does to the outside. -/
inductive Output where
  | send (id : ClientId) (line : String)
  | hangUp (id : ClientId)
  /-- Say why there is no place for the client, and hang up. -/
  | turnAway (id : ClientId) (line : String)
  deriving DecidableEq, Repr

namespace Service

def new (settings : Settings) : Except Exchange.SetupFault Service := do
  let exchange ← Exchange.new settings
  (checkPermits settings.maxClients).mapError .capacity
  return {
    exchange
    maxClients := settings.maxClients
    maxLineLength := settings.maxLineLength
    clientQueue := settings.clientQueue
    freeSlots := settings.maxClients }

def holdsSlot : Stage → Bool
  | .accepted | .announced | .working | .ended => true
  | .unreported => false

def update (service : Service) (id : ClientId) (change : Connection → Connection) : Service :=
  { service with connections := service.connections.modify id change }

def setStage (service : Service) (id : ClientId) (stage : Stage) : Service :=
  service.update id fun connection => { connection with stage }

def forget (service : Service) (id : ClientId) : Service :=
  { service with connections := service.connections.erase id }

/-- Takes a slot for a new connection, if one is free. -/
def accept (service : Service) (id : ClientId) (peer : Option SocketAddress) :
    Except CapacityFault (Option Service) :=
  if service.freeSlots = 0 then .ok none
  else do
    let outbox ← Outbox.new service.clientQueue
    return some { service with
      freeSlots := service.freeSlots - 1
      exchange := service.exchange.connect id outbox
      connections := service.connections.insert id { peer } }

def dismiss (service : Service) (id : ClientId) : Service :=
  { service.forget id with freeSlots := service.freeSlots + 1 }

/-- Gives up a connection for which there is no hub any more. -/
def giveUp (service : Service) (id : ClientId) : Service :=
  { service.dismiss id with exchange := service.exchange.refuse id }

def announce (service : Service) (id : ClientId) (connection : Connection) : Service :=
  match service.exchange.post (.register id connection.peer) with
  | .accepted exchange => { service with exchange }.setStage id .announced
  | .full => service
  | .closed => service.giveUp id

/-- Starts the worker of a connection that has been registered, or gives it up if it was refused. -/
def startWork (service : Service) (id : ClientId) : Service :=
  match service.exchange.registrations[id]? with
  | some .accepted => service.setStage id .working
  | some .refused => service.dismiss id
  | _ => service

/-- The worker ends, however that comes; what it had not reported is lost. -/
def endWork (service : Service) (id : ClientId) : Service :=
  { service with
    exchange := (service.exchange.abandon id).updateOutbox id Outbox.stopReading }.setStage id .ended

def releaseSlot (service : Service) (id : ClientId) : Service :=
  { service with freeSlots := service.freeSlots + 1 }.setStage id .unreported

/-- Tells the hub of a worker's end, if somebody is there to be told. -/
def reportEnd (service : Service) (id : ClientId) : Service :=
  match service.exchange.post (.exited id) with
  | .accepted exchange => { service with exchange }.forget id
  | .full => service
  | .closed => service.forget id

/-- Reports the next line of a worker, or its end after the last line. -/
def forward (service : Service) (id : ClientId) (connection : Connection) : Service :=
  match connection.unheard with
  | line :: unheard =>
    match service.exchange.forward id line with
    | .accepted exchange =>
      { service with exchange }.update id fun connection => { connection with unheard }
    | .full => service
    | .closed => service.endWork id
  | [] =>
    if connection.isFinished then
      match service.exchange.close id with
      | .accepted exchange =>
        { service with exchange := exchange.updateOutbox id Outbox.stopReading }.setStage id .ended
      | .full => service
      | .closed => service.endWork id
    else service

/-- Sends the next line of an outbox, or ends the worker when there will be none. -/
def write (service : Service) (id : ClientId) (connection : Connection) :
    Service × List Output :=
  if connection.isWriting then (service, [])
  else
    match service.exchange.outboxes[id]?.map Outbox.take with
    | some (outbox, .line line) =>
      ({ service with exchange := service.exchange.updateOutbox id fun _ => outbox }.update id
        fun connection => { connection with isWriting := true }, [.send id line])
    | some (_, .ended) => (service.endWork id, [])
    | _ => (service, [])

/-- Whatever can be done for one connection at once. -/
def attend (service : Service) (id : ClientId) (connection : Connection) :
    Service × List Output :=
  match connection.stage with
  | .accepted => (service.announce id connection, [])
  | .announced => (service.startWork id, [])
  | .working =>
    let (service, outputs) := service.write id connection
    if service.connections[id]?.any fun connection => connection.stage = .working then
      (service.forward id connection, outputs)
    else (service, outputs)
  | .ended => (service.releaseSlot id, [.hangUp id])
  | .unreported => (service.reportEnd id, [])

/-- The hub runs until it waits, and then every connection is attended to once. -/
def round (service : Service) : Service × List Output :=
  let service := { service with exchange := service.exchange.settle }
  service.connections.toList.foldl
    (fun (service, outputs) (id, connection) =>
      let (service, more) := service.attend id connection
      (service, outputs ++ more))
    (service, [])

/-- Connections that still have something to do for themselves. -/
def pending (service : Service) : Nat :=
  service.connections.toList.foldl
    (fun n (_, connection) => n + connection.unheard.length + 6) 2

def runWithin : Nat → Service → Service × List Output
  | 0, service => (service, [])
  | rounds + 1, service =>
    let (service, outputs) := service.round
    let (service, more) := runWithin rounds service
    (service, outputs ++ more)

def run (service : Service) : Service × List Output :=
  runWithin service.pending service

/-- Cuts what was received into lines. A fault ends the input, and the lines before it count. -/
def receive (service : Service) (connection : Connection) (bytes : List UInt8) : Connection :=
  if connection.isFinished then connection
  else
    let reading := Framing.readLines service.maxLineLength (connection.received ++ bytes)
    let unheard := connection.unheard ++ reading.lines
    match reading.rest with
    | .ok received => { connection with unheard, received }
    | .error _ => { connection with unheard, received := [], isFinished := true }

def finishInput (connection : Connection) : Connection :=
  if connection.isFinished then connection
  else
    match Framing.lastLine connection.received with
    | .ok (some line) =>
      { connection with unheard := connection.unheard ++ [line], received := [], isFinished := true }
    | _ => { connection with received := [], isFinished := true }

/-- The line that turns away a client for whom there is no slot. -/
def fullNotice (service : Service) : Notice :=
  .refused (.serverFull service.maxClients)

/-- A connection that fails ends its worker. -/
def breakOff (service : Service) (id : ClientId) : Service :=
  if service.connections[id]?.any fun connection => connection.stage = .working then
    service.endWork id
  else service

def note (service : Service) : Occurrence → Except CapacityFault (Service × List Output)
  | .accepted id peer => do
    match ← service.accept id peer with
    | some service => return (service, [])
    | none => return (service, [.turnAway id service.fullNotice.line])
  | .received id bytes =>
    .ok (service.update id fun connection => service.receive connection bytes, [])
  | .inputEnded id => .ok (service.update id finishInput, [])
  | .written id =>
    .ok (service.update id fun connection => { connection with isWriting := false }, [])
  | .broken id => .ok (service.breakOff id, [])
  | .stopRequested =>
    match service.exchange.post .shutdown with
    | .accepted exchange => .ok ({ service with exchange }, [])
    | _ => .ok (service, [])
  | .timePassed time =>
    let exchange := { service.exchange with clock := service.exchange.clock + time }
    .ok ({ service with exchange }, [])

/-- Answers an occurrence with everything that can be done about it at once. -/
def react (service : Service) (occurrence : Occurrence) :
    Except CapacityFault (Service × List Output) := do
  let (service, outputs) ← service.note occurrence
  let (service, more) := service.run
  return (service, outputs ++ more)

def isStopped (service : Service) : Bool :=
  !service.exchange.isOpen

end Service

end ChatRooms
