import ChatRooms.Failure

namespace ChatRooms

inductive CapacityFault where
  | zero
  | tooLarge
  deriving DecidableEq, Repr

/-- The most places or permits that can be counted: three bits of a word are needed for flags. -/
def maxPermits : Nat := (Nat.pow 2 64 - 1) / 8

def CapacityFault.message : CapacityFault → String
  | zero => "mpsc bounded channel requires buffer > 0"
  | tooLarge => "a semaphore may not have more than MAX_PERMITS permits (" ++
      toString maxPermits ++ ")"

def checkPermits (permits : Nat) : Except CapacityFault Unit :=
  if maxPermits < permits then .error .tooLarge else .ok ()

def checkQueueCapacity (capacity : Nat) : Except CapacityFault Unit :=
  if capacity = 0 then .error .zero else checkPermits capacity

/-- The lines that wait for one client's connection. A line that finds the outbox full is lost. -/
structure Outbox where
  capacity : Nat
  lines : List String := []
  /-- The hub has not hung up. -/
  isHeld : Bool := true
  /-- The connection still takes lines. -/
  isRead : Bool := true
  deriving DecidableEq, Repr

/-- What a connection finds in its outbox. -/
inductive Taken where
  | line (text : String)
  | nothingYet
  | ended
  | notReading
  deriving DecidableEq, Repr

namespace Outbox

def new (capacity : Nat) : Except CapacityFault Outbox := do
  checkQueueCapacity capacity
  return { capacity }

def send (outbox : Outbox) (line : String) : Except Undeliverable Outbox :=
  if !outbox.isHeld || !outbox.isRead then .error .closed
  else if outbox.capacity ≤ outbox.lines.length then .error .full
  else .ok { outbox with lines := outbox.lines ++ [line] }

/-- Queues the line if the outbox takes it. -/
def offer (outbox : Outbox) (line : String) : Outbox :=
  match outbox.send line with
  | .ok outbox => outbox
  | .error _ => outbox

/-- What is queued stays to be taken. -/
def hangUp (outbox : Outbox) : Outbox :=
  { outbox with isHeld := false }

def stopReading (outbox : Outbox) : Outbox :=
  { outbox with isRead := false, lines := [] }

def take (outbox : Outbox) : Outbox × Taken :=
  if !outbox.isRead then (outbox, .notReading)
  else
    match outbox.lines with
    | line :: lines => ({ outbox with lines }, .line line)
    | [] => (outbox, if outbox.isHeld then .nothingYet else .ended)

/-- Nothing is left and nothing will come. -/
def hasEnded (outbox : Outbox) : Bool :=
  outbox.isRead && outbox.lines.isEmpty && !outbox.isHeld

end Outbox

end ChatRooms
