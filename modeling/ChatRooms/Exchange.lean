import ChatRooms.Hub
import ChatRooms.Intake

namespace ChatRooms

open Std

namespace Clock

/-- Thirty years. Whoever would wait longer is woken then. -/
def longestWait : Nat := 30 * 365 * 24 * 60 * 60 * 1000

/-- Every later moment counts as this one: the three highest values of a word are not moments. -/
def lastMoment : Nat := Nat.pow 2 64 - 3

/-- When a wait that begins now is over. -/
def deadline (now wait : Nat) : Nat :=
  min (now + min wait longestWait) lastMoment

theorem deadline_eq {now wait : Nat} (hw : wait ≤ longestWait) (hn : now + wait ≤ lastMoment) :
    deadline now wait = now + wait := by
  unfold deadline
  omega

end Clock

/-- What the hub is told by those who accept connections and watch over workers. -/
inductive Order where
  | register (id : ClientId) (peer : Option SocketAddress)
  | exited (id : ClientId)
  | shutdown
  deriving DecidableEq, Repr

/-- Where a registration stands, as whoever asked for it can tell. -/
inductive Registration where
  | pending
  | accepted
  | refused
  deriving DecidableEq, Repr

inductive Phase where
  | running
  /-- Waiting for the clients' workers, at most until the deadline. -/
  | closing (deadline : Nat)
  | stopped
  | failed (defect : Defect)
  deriving DecidableEq, Repr

/-- The hub with the orders and the reports that wait for it, the outboxes that it fills, and a clock. -/
structure Exchange where
  hub : Hub
  intake : Intake
  orders : List Order := []
  orderCapacity : Nat
  outboxes : ExtTreeMap ClientId Outbox := ∅
  registrations : ExtTreeMap ClientId Registration := ∅
  phase : Phase := .running
  clock : Nat := 0
  /-- How long closing may take. -/
  patience : Nat
  /-- Somebody is left who could give an order. -/
  hasHandles : Bool := true

def Envelope.event (envelope : Envelope) : Event :=
  match envelope.report with
  | .line text => .line envelope.id text
  | .closed => .closed envelope.id

namespace Exchange

/-- Why an exchange cannot be set up. -/
inductive SetupFault where
  | failure (failure : Failure)
  | capacity (fault : CapacityFault)
  deriving DecidableEq, Repr

/-- The settings are not checked, apart from what is needed here. -/
def new (settings : Settings) : Except SetupFault Exchange := do
  let defaultRoom ← settings.defaultRoomName.mapError .failure
  let intake ← (Intake.new settings.readiness settings.channelCapacity).mapError .capacity
  (checkQueueCapacity settings.channelCapacity).mapError .capacity
  return {
    hub := .start settings defaultRoom
    intake
    orderCapacity := settings.channelCapacity
    patience := settings.shutdownTimeoutMs }

/-- Whether the hub still takes anything. -/
def isOpen (exchange : Exchange) : Bool :=
  match exchange.phase with
  | .running | .closing _ => true
  | .stopped | .failed _ => false

/-- Makes both ways for a new client. Nothing from it is heard before it is registered. -/
def connect (exchange : Exchange) (id : ClientId) (outbox : Outbox) : Exchange :=
  { exchange with
    outboxes := exchange.outboxes.insert id outbox
    intake := exchange.intake.offer id
    registrations := exchange.registrations.insert id .pending }

def post (exchange : Exchange) (order : Order) : Posting Exchange :=
  if !exchange.isOpen then .closed
  else if exchange.orderCapacity ≤ exchange.orders.length then .full
  else .accepted { exchange with orders := exchange.orders ++ [order] }

def forward (exchange : Exchange) (id : ClientId) (line : String) : Posting Exchange :=
  if exchange.isOpen then
    (exchange.intake.forward id line).map fun intake => { exchange with intake }
  else .closed

def close (exchange : Exchange) (id : ClientId) : Posting Exchange :=
  if exchange.isOpen then
    (exchange.intake.close id).map fun intake => { exchange with intake }
  else .closed

def abandon (exchange : Exchange) (id : ClientId) : Exchange :=
  { exchange with intake := exchange.intake.abandon id }

def updateOutbox (exchange : Exchange) (id : ClientId) (change : Outbox → Outbox) : Exchange :=
  { exchange with outboxes := exchange.outboxes.modify id change }

/-- Lets go of both ways of a client that will not be registered. -/
def refuse (exchange : Exchange) (id : ClientId) : Exchange :=
  let exchange := exchange.updateOutbox id Outbox.hangUp
  { exchange with
    intake := exchange.intake.withdraw id
    registrations := exchange.registrations.insert id .refused }

def apply (exchange : Exchange) : Effect → Exchange
  | .deliver id notice => exchange.updateOutbox id (·.offer notice.line)
  | .hangUp id => exchange.updateOutbox id Outbox.hangUp
  | .attach id => { exchange with intake := exchange.intake.attach id }
  | .detach id => { exchange with intake := exchange.intake.detach id }

/-- Lets go of everything. Whoever still waits to be registered is refused. -/
def halt (exchange : Exchange) (phase : Phase) : Exchange :=
  { exchange with
    phase
    orders := []
    outboxes := exchange.outboxes.map fun _ outbox => outbox.hangUp
    registrations := exchange.registrations.map fun _ registration =>
      if registration = .pending then .refused else registration }

/-- Hands events to the hub, and does what it says. -/
def handle (exchange : Exchange) (events : List Event) : Exchange :=
  match exchange.hub.handleAll events with
  | .ok (hub, effects) => effects.foldl apply { exchange with hub }
  | .error defect => exchange.halt (.failed defect)

def handleBatch (exchange : Exchange) (batch : List Envelope) : Exchange :=
  exchange.handle (batch.map Envelope.event)

def beginClosing (exchange : Exchange) : Exchange :=
  let exchange := exchange.handle [.shutdown]
  { exchange with phase := .closing (Clock.deadline exchange.clock exchange.patience) }

/-- What a worker reported before its end is handled before its end. -/
def takeExit (exchange : Exchange) (id : ClientId) : Exchange :=
  let (intake, batch) := exchange.intake.drain
  { exchange with intake }.handle (batch.map Envelope.event ++ [Event.exited id])

def takeOrder (exchange : Exchange) (order : Order) : Exchange :=
  match order, exchange.phase with
  | .register id peer, .running =>
    let exchange := exchange.handle [.register id peer]
    if exchange.isOpen then
      { exchange with registrations := exchange.registrations.insert id .accepted }
    else exchange
  | .register id _, _ => exchange.refuse id
  | .exited id, _ => exchange.takeExit id
  | .shutdown, .running => exchange.beginClosing
  | .shutdown, _ => exchange

def takeBatch? (exchange : Exchange) : Option Exchange :=
  exchange.intake.next?.map fun (intake, batch) => { exchange with intake }.handleBatch batch

/-- One turn of the hub: an order if there is one, else a batch if there is one. -/
def takeNext? (exchange : Exchange) : Option Exchange :=
  match exchange.orders with
  | order :: orders => some ({ exchange with orders }.takeOrder order)
  | [] => exchange.takeBatch?

def advance (exchange : Exchange) : Option Exchange :=
  match exchange.phase with
  | .running =>
    if exchange.orders.isEmpty && !exchange.hasHandles then some exchange.beginClosing
    else exchange.takeNext?
  | .closing deadline =>
    if exchange.hub.directory.isEmpty || deadline ≤ exchange.clock then
      some (exchange.halt .stopped)
    else exchange.takeNext?
  | .stopped | .failed _ => none

/-- A bound on the steps that the hub can take on its own. -/
def pending (exchange : Exchange) : Nat :=
  exchange.orders.length + (if exchange.intake.isAnnounced then 1 else 0) +
    match exchange.phase with
    | .running => 2
    | .closing _ => 1
    | .stopped | .failed _ => 0

def settleWithin : Nat → Exchange → Exchange
  | 0, exchange => exchange
  | steps + 1, exchange =>
    match exchange.advance with
    | some exchange => settleWithin steps exchange
    | none => exchange

/-- Runs the hub until it has to wait. -/
def settle (exchange : Exchange) : Exchange :=
  settleWithin exchange.pending exchange

end Exchange

end ChatRooms
