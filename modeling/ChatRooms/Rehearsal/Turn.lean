import ChatRooms.Rehearsal.Act

namespace ChatRooms

open Std

/-- The worker's side of a connection. -/
structure Link where
  hasUplink : Bool := true
  /-- The outbox is read only when an act says so. -/
  isSlow : Bool := false
  sawEnd : Bool := false
  /-- The number of the worker under supervision, if there is one. -/
  worker : Option Nat := none
  deriving DecidableEq, Repr

/-- What is left to be done for an act that has begun. -/
inductive Wait where
  | toRegister (id : ClientId) (peer : Option SocketAddress)
  | toBeRegistered (id : ClientId)
  | toOrder (order : Order)
  | toForward (id : ClientId) (line : String)
  | toClose (id : ClientId)
  deriving DecidableEq, Repr

namespace Wait

/-- Whether a place among the orders is waited for. -/
def isForOrder : Wait → Bool
  | toRegister .. | toOrder _ => true
  | toBeRegistered _ | toForward .. | toClose _ => false

/-- Whether a handle is held on to until the act is done. -/
def holdsHandle : Wait → Bool
  | toRegister .. | toBeRegistered _ | toOrder _ => true
  | toForward .. | toClose _ => false

end Wait

/-- A worker under supervision. Its watcher waits for its end, gives back its slot and reports it. -/
structure Worker where
  id : ClientId
  holdsSlot : Bool
  /-- It is to end at its next turn. -/
  isTold : Bool := false
  hasEnded : Bool := false
  deriving DecidableEq, Repr

/-- Who takes turns. A worker and its watcher have the same number. -/
inductive Task where
  | hub
  | worker (number : Nat)
  | watcher (number : Nat)
  deriving DecidableEq, Repr

/-- Who can wait for a place: an act, known by the place of its answer, or a watcher. -/
inductive Waiter where
  | act (ticket : Nat)
  | watcher (number : Nat)
  deriving DecidableEq, Repr

namespace Waiter

def isAct : Waiter → Bool
  | act _ => true
  | watcher _ => false

end Waiter

structure Rehearsal where
  exchange : Exchange
  clientQueue : Nat
  freeSlots : Nat
  hasHandle : Bool := true
  links : ExtTreeMap ClientId Link := ∅
  /-- The workers whose end is not yet being reported, by number. -/
  workers : ExtTreeMap Nat Worker := ∅
  nextNumber : Nat := 0
  /-- Whose turn it is, and who comes next. -/
  ready : List Task := []
  /-- What is not done, in the order of its beginning. -/
  waiting : List (Waiter × Wait) := []
  answers : ExtTreeMap Nat Answer := ∅

namespace Rehearsal

def new (settings : Settings) (slots : Nat) : Except Exchange.SetupFault Rehearsal := do
  let exchange ← Exchange.new settings
  (checkPermits slots).mapError .capacity
  return { exchange, clientQueue := settings.clientQueue, freeSlots := slots }

/-- Notes what came of an act. Watchers are not interested. -/
def answer (rehearsal : Rehearsal) (waiter : Waiter) (answer : Answer) : Rehearsal :=
  match waiter with
  | .act ticket => { rehearsal with answers := rehearsal.answers.insert ticket answer }
  | .watcher _ => rehearsal

def wait (rehearsal : Rehearsal) (waiter : Waiter) (wait : Wait) : Rehearsal :=
  { rehearsal with waiting := rehearsal.waiting ++ [(waiter, wait)] }

/-- A place among the orders goes to whoever has waited longest. -/
def post (rehearsal : Rehearsal) (order : Order) : Posting Exchange :=
  let ahead := (rehearsal.waiting.filter fun entry => entry.2.isForOrder).length
  let exchange := rehearsal.exchange
  if exchange.isOpen && exchange.orderCapacity ≤ exchange.orders.length + ahead then .full
  else exchange.post order

/-- Goes on with something as far as possible. -/
def pursue (rehearsal : Rehearsal) (waiter : Waiter) (act : Wait) : Rehearsal :=
  match act with
  | .toRegister id peer =>
    match rehearsal.post (.register id peer) with
    | .accepted exchange => { rehearsal with exchange }.wait waiter (.toBeRegistered id)
    | .full => rehearsal.wait waiter act
    | .closed =>
      { rehearsal with exchange := rehearsal.exchange.refuse id }.answer waiter (.failed .hubGone)
  | .toBeRegistered id =>
    match rehearsal.exchange.registrations[id]? with
    | some .accepted => rehearsal.answer waiter .done
    | some .refused => rehearsal.answer waiter (.failed .hubGone)
    | _ => rehearsal.wait waiter act
  | .toOrder order =>
    match rehearsal.post order with
    | .accepted exchange => { rehearsal with exchange }.answer waiter .done
    | .full => rehearsal.wait waiter act
    | .closed => rehearsal.answer waiter (.failed .hubGone)
  | .toForward id line =>
    match rehearsal.exchange.forward id line with
    | .accepted exchange => { rehearsal with exchange }.answer waiter .done
    | .full => rehearsal.wait waiter act
    | .closed => rehearsal.answer waiter (.undeliverable .closed)
  | .toClose id =>
    match rehearsal.exchange.close id with
    | .accepted exchange => { rehearsal with exchange }.answer waiter .done
    | .full => rehearsal.wait waiter act
    | .closed => rehearsal.answer waiter .done

/-- Lets some of those who wait try again. -/
def serve (rehearsal : Rehearsal) (mayTry : Waiter → Bool) : Rehearsal :=
  rehearsal.waiting.foldl
    (fun rehearsal (waiter, act) =>
      if mayTry waiter then rehearsal.pursue waiter act else rehearsal.wait waiter act)
    { rehearsal with waiting := [] }

/-- Whoever is in the line already keeps its place. -/
def wake (rehearsal : Rehearsal) (task : Task) : Rehearsal :=
  if task ∈ rehearsal.ready then rehearsal
  else { rehearsal with ready := rehearsal.ready ++ [task] }

/-- A new worker and its watcher, which have not had a turn yet. -/
def startWorker (rehearsal : Rehearsal) (id : ClientId) (holdsSlot : Bool) : Rehearsal :=
  let number := rehearsal.nextNumber
  let rehearsal := { rehearsal with
    nextNumber := number + 1
    workers := rehearsal.workers.insert number { id, holdsSlot } }
  (rehearsal.wake (.worker number)).wake (.watcher number)

def endWorker (rehearsal : Rehearsal) (number : Nat) : Rehearsal :=
  { rehearsal with
    workers := rehearsal.workers.modify number fun worker => { worker with isTold := true }
    : Rehearsal }.wake (.worker number)

/-- Somebody is left who can give an order: the script, a worker's watcher, or a waiting act. -/
def hasHandles (rehearsal : Rehearsal) : Bool :=
  rehearsal.hasHandle || !rehearsal.workers.isEmpty ||
    rehearsal.waiting.any fun entry => entry.2.holdsHandle

/-- The exchange, as the hub finds it. -/
def scene (rehearsal : Rehearsal) : Exchange :=
  { rehearsal.exchange with hasHandles := rehearsal.hasHandles }

/-- Wakes the hub if there is something for it to do. -/
def rouse (rehearsal : Rehearsal) : Rehearsal :=
  if rehearsal.scene.advance.isSome then rehearsal.wake .hub else rehearsal

/-- Wakes the watchers for which there is a place now, or none ever again. -/
def wakeWatchers (rehearsal : Rehearsal) : Rehearsal :=
  let exchange := rehearsal.exchange
  let entries := rehearsal.waiting.filter fun entry => entry.2.isForOrder
  let served :=
    if exchange.isOpen then entries.take (exchange.orderCapacity - exchange.orders.length)
    else entries
  served.foldl
    (fun rehearsal entry =>
      match entry.1 with
      | .act _ => rehearsal
      | .watcher number => rehearsal.wake (.watcher number))
    rehearsal

def workerTurn (rehearsal : Rehearsal) (number : Nat) : Rehearsal :=
  match rehearsal.workers[number]? with
  | none => rehearsal
  | some worker =>
    if worker.isTold then
      { rehearsal with
        workers := rehearsal.workers.insert number { worker with hasEnded := true }
        : Rehearsal }.wake (.watcher number)
    else rehearsal

/-- If the worker has ended, gives back its slot and begins the report; goes on with a report that has
begun. -/
def watcherTurn (rehearsal : Rehearsal) (number : Nat) : Rehearsal :=
  match rehearsal.workers[number]? with
  | none => rehearsal.serve (· == .watcher number)
  | some worker =>
    if worker.hasEnded then
      { rehearsal with
        freeSlots := if worker.holdsSlot then rehearsal.freeSlots + 1 else rehearsal.freeSlots
        workers := rehearsal.workers.erase number
        : Rehearsal }.pursue (.watcher number) (.toOrder (.exited worker.id))
    else rehearsal

def turn (rehearsal : Rehearsal) : Task → Rehearsal
  | .hub => { rehearsal with exchange := rehearsal.scene.settle }.wakeWatchers
  | .worker number => rehearsal.workerTurn number
  | .watcher number => rehearsal.watcherTurn number

def runReady : (turns : Nat) → Rehearsal → Rehearsal
  | 0, rehearsal => rehearsal
  | turns + 1, rehearsal =>
    match rehearsal.ready with
    | [] => rehearsal
    | task :: ready => runReady turns ({ rehearsal with ready }.turn task).rouse

/-- Runs until nobody is left in the line. A worker can wake its watcher once, a watcher whose report
has a place is woken once for it, and each report wakes the hub at most once. -/
def runUntilIdle (rehearsal : Rehearsal) : Rehearsal :=
  runReady (rehearsal.ready.length + 3 * rehearsal.workers.size + 2 * rehearsal.waiting.length + 1)
    rehearsal

def hasWaitingAct (rehearsal : Rehearsal) : Bool :=
  rehearsal.waiting.any fun entry => entry.1.isAct

def settleWithin : Nat → Rehearsal → Rehearsal
  | 0, rehearsal => rehearsal
  | rounds + 1, rehearsal =>
    let rehearsal := (rehearsal.runUntilIdle.serve Waiter.isAct).rouse
    if rehearsal.hasWaitingAct then settleWithin rounds rehearsal else rehearsal

/-- Each round brings at least one of those who wait a stage further. -/
def settle (rehearsal : Rehearsal) : Rehearsal :=
  settleWithin (2 * (rehearsal.waiting.length + rehearsal.workers.size) + 1) rehearsal

end Rehearsal

end ChatRooms
