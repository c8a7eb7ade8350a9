import ChatRooms.Rehearsal.Turn

namespace ChatRooms

/-- What a step shows: answers by act, lines by client, and the clients whose end was seen. -/
structure StepView where
  answers : List Answer
  lines : List (ClientId × List String)
  ended : List ClientId
  isStopped : Bool
  deriving Repr

namespace Rehearsal

/-- Tells the worker of a connection to end, if there is one. -/
def endLinked (rehearsal : Rehearsal) (link : Link) : Rehearsal :=
  match link.worker with
  | none => rehearsal
  | some number => rehearsal.endWorker number

/-- Lets go of the worker's side of an earlier connection. -/
def replace (rehearsal : Rehearsal) (id : ClientId) : Rehearsal :=
  match rehearsal.links[id]? with
  | none => rehearsal
  | some link =>
    let exchange := if link.hasUplink then rehearsal.exchange.abandon id else rehearsal.exchange
    { rehearsal with exchange }.endLinked link

def beginConnect (rehearsal : Rehearsal) (waiter : Waiter) (id : ClientId)
    (queue : Option Nat) (isSlow : Bool) (peer : Option SocketAddress) :
    Except CapacityFault Rehearsal :=
  if !rehearsal.hasHandle then .ok (rehearsal.answer waiter .noHandle)
  else do
    let outbox ← Outbox.new (queue.getD rehearsal.clientQueue)
    let rehearsal := rehearsal.replace id
    let rehearsal := { rehearsal with
      exchange := rehearsal.exchange.connect id outbox
      links := rehearsal.links.insert id { isSlow } }
    return rehearsal.pursue waiter (.toRegister id peer)

/-- Takes at most `count` lines from an outbox. -/
def takeLines : (count : Nat) → Outbox → Outbox × List String × Bool
  | 0, outbox => (outbox, [], false)
  | count + 1, outbox =>
    match outbox.take with
    | (outbox, .line line) =>
      let (outbox, lines, ended) := takeLines count outbox
      (outbox, line :: lines, ended)
    | (outbox, .ended) => (outbox, [], true)
    | (outbox, _) => (outbox, [], false)

def setLink (rehearsal : Rehearsal) (id : ClientId) (link : Link) : Rehearsal :=
  { rehearsal with links := rehearsal.links.insert id link }

def outbox (rehearsal : Rehearsal) (id : ClientId) : Outbox :=
  (rehearsal.exchange.outboxes[id]?).getD { capacity := 0, isRead := false }

def setOutbox (rehearsal : Rehearsal) (id : ClientId) (outbox : Outbox) : Rehearsal :=
  { rehearsal with exchange := rehearsal.exchange.updateOutbox id fun _ => outbox }

def beginLinked (rehearsal : Rehearsal) (waiter : Waiter) (id : ClientId) (link : Link) :
    Act → Rehearsal
  | .line _ text =>
    if link.hasUplink then rehearsal.pursue waiter (.toForward id text)
    else rehearsal.answer waiter .noUplink
  | .close _ =>
    if link.hasUplink then
      (rehearsal.setLink id { link with hasUplink := false }).pursue waiter (.toClose id)
    else rehearsal.answer waiter .noUplink
  | .drop _ =>
    let after :=
      if link.hasUplink then
        { rehearsal with exchange := rehearsal.exchange.abandon id }.setLink id
          { link with hasUplink := false }
      else rehearsal
    after.answer waiter (.flag link.hasUplink)
  | .dropOutbox _ =>
    let outbox := rehearsal.outbox id
    (rehearsal.setOutbox id outbox.stopReading).answer waiter (.flag outbox.isRead)
  | .read _ count =>
    let (outbox, lines, ended) := takeLines count (rehearsal.outbox id)
    (rehearsal.setOutbox id outbox).answer waiter (.lines lines ended)
  | .spawn _ needsSlot =>
    if !rehearsal.hasHandle then rehearsal.answer waiter .noHandle
    else if needsSlot && rehearsal.freeSlots == 0 then rehearsal.answer waiter .noSlot
    else
      let freeSlots := if needsSlot then rehearsal.freeSlots - 1 else rehearsal.freeSlots
      let number := rehearsal.nextNumber
      let rehearsal := { rehearsal with freeSlots }.startWorker id needsSlot
      ((rehearsal.endLinked link).setLink id { link with worker := some number }).answer waiter .done
  | .finish _ =>
    if link.worker.isNone then rehearsal.answer waiter .noWorker
    else
      ((rehearsal.endLinked link).setLink id { link with worker := none }).answer waiter (.flag true)
  | _ => rehearsal

def order (rehearsal : Rehearsal) (waiter : Waiter) (order : Order) : Rehearsal :=
  if rehearsal.hasHandle then rehearsal.pursue waiter (.toOrder order)
  else rehearsal.answer waiter .noHandle

def begin (rehearsal : Rehearsal) (waiter : Waiter) (act : Act) :
    Except CapacityFault Rehearsal :=
  match act with
  | .connect id queue isSlow peer => rehearsal.beginConnect waiter id queue isSlow peer
  | .exit id => .ok (rehearsal.order waiter (.exited id))
  | .shutdown => .ok (rehearsal.order waiter .shutdown)
  | .dropHandle => .ok ({ rehearsal with hasHandle := false }.answer waiter .nothing)
  | .slots => .ok (rehearsal.answer waiter (.count rehearsal.freeSlots))
  | .advance time =>
    let exchange := { rehearsal.exchange with clock := rehearsal.exchange.clock + time }
    .ok ({ rehearsal with exchange }.answer waiter .nothing)
  | .line id _ | .close id | .drop id | .dropOutbox id | .read id _ | .spawn id _ | .finish id =>
    match rehearsal.links[id]? with
    | some link => .ok (rehearsal.beginLinked waiter id link act)
    | none => .ok (rehearsal.answer waiter .noClient)

def beginAll (rehearsal : Rehearsal) : Nat → List Act → Except CapacityFault Rehearsal
  | _, [] => .ok rehearsal
  | ticket, act :: acts => do (← rehearsal.begin (.act ticket) act).rouse.beginAll (ticket + 1) acts

/-- What a client that reads all the time finds in its outbox. -/
def collect (rehearsal : Rehearsal) (id : ClientId) (link : Link) :
    Rehearsal × List String × Bool :=
  let (outbox, lines, _) := takeLines (rehearsal.outbox id).lines.length (rehearsal.outbox id)
  let ends := outbox.hasEnded && !link.sawEnd
  ((rehearsal.setOutbox id outbox).setLink id { link with sawEnd := link.sawEnd || ends },
    lines, ends)

def collectAll (rehearsal : Rehearsal) :
    List (ClientId × Link) → Rehearsal × List (ClientId × List String) × List ClientId
  | [] => (rehearsal, [], [])
  | (id, link) :: links =>
    if link.isSlow then rehearsal.collectAll links
    else
      let (rehearsal, lines, ends) := rehearsal.collect id link
      let (rehearsal, out, ended) := rehearsal.collectAll links
      (rehearsal, if lines.isEmpty then out else (id, lines) :: out,
        if ends then id :: ended else ended)

/-- Begins the acts, lets everything run until it is idle, and shows what came of it. -/
def step (rehearsal : Rehearsal) (acts : List Act) :
    Except CapacityFault (Rehearsal × StepView) := do
  let rehearsal := (← { rehearsal with answers := ∅ }.beginAll 0 acts).settle
  let (rehearsal, lines, ended) := rehearsal.collectAll rehearsal.links.toList
  return (rehearsal, {
    answers := (List.range acts.length).map fun n => (rehearsal.answers[n]?).getD .nothing
    lines
    ended
    isStopped := !rehearsal.exchange.isOpen })

end Rehearsal

end ChatRooms
