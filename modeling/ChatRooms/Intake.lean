import ChatRooms.Intake.Sweeper
import ChatRooms.Outbox
import ChatRooms.Settings

namespace ChatRooms

open Std

structure SharedQueue where
  capacity : Nat
  envelopes : List Envelope := []
  deriving DecidableEq, Repr

/-- Where the hub gets its clients' lines from, in either mode. A feed is offered together with its client's
registration, and visited only once that has been applied. -/
inductive Intake where
  | addressed (queue : SharedQueue)
  | sweep (sweeper : Sweeper) (offered : ExtTreeMap ClientId Feed)

/-- What becomes of something that is put into a bounded queue. -/
inductive Posting (α : Type) where
  | accepted (after : α)
  /-- There is no place for it now. -/
  | full
  /-- There is nobody to take it. -/
  | closed

def Posting.map {α β : Type} (f : α → β) : Posting α → Posting β
  | accepted after => accepted (f after)
  | full => full
  | closed => closed

namespace Intake

def new (mode : IntakeMode) (capacity : Nat) : Except CapacityFault Intake :=
  match mode with
  | .addressed => do
    checkQueueCapacity capacity
    return .addressed { capacity }
  | .sweep => return .sweep {} ∅

def mode : Intake → IntakeMode
  | addressed _ => .addressed
  | sweep _ _ => .sweep

def isPrivate (intake : Intake) : Bool :=
  intake.mode = .sweep

/-- Makes a feed that is not visited yet. -/
def offer (intake : Intake) (id : ClientId) : Intake :=
  match intake with
  | addressed queue => addressed queue
  | sweep sweeper offered => sweep sweeper (offered.insert id {})

def withdraw (intake : Intake) (id : ClientId) : Intake :=
  match intake with
  | addressed queue => addressed queue
  | sweep sweeper offered => sweep sweeper (offered.erase id)

/-- Starts to visit the feed on offer, with what it already holds. -/
def attach (intake : Intake) (id : ClientId) : Intake :=
  match intake with
  | addressed queue => addressed queue
  | sweep sweeper offered =>
    match offered[id]? with
    | some feed => sweep (sweeper.attach id feed) (offered.erase id)
    | none => sweep sweeper offered

def detach (intake : Intake) (id : ClientId) : Intake :=
  match intake with
  | addressed queue => addressed queue
  | sweep sweeper offered => sweep (sweeper.detach id) offered

/-- Announces that there may be something, for all who have feeds of their own. -/
def ring (intake : Intake) : Intake :=
  match intake with
  | addressed queue => addressed queue
  | sweep sweeper offered => sweep sweeper.ring offered

def enqueue (queue : SharedQueue) (envelope : Envelope) : Posting Intake :=
  if queue.capacity ≤ queue.envelopes.length then .full
  else .accepted (addressed { queue with envelopes := queue.envelopes ++ [envelope] })

/-- A line from a worker. In a private feed there is always a place. -/
def forward (intake : Intake) (id : ClientId) (line : String) : Posting Intake :=
  match intake with
  | addressed queue => enqueue queue { id, report := .line line }
  | sweep sweeper offered =>
    match offered[id]? with
    | some feed => .accepted (sweep sweeper.ring (offered.insert id (feed.push line)))
    | none =>
      if sweeper.isAttached id then
        .accepted (sweep (sweeper.update id (·.push line)).ring offered)
      else .closed

/-- The end of a worker's lines. -/
def close (intake : Intake) (id : ClientId) : Posting Intake :=
  match intake with
  | addressed queue => enqueue queue { id, report := .closed }
  | sweep sweeper offered =>
    match offered[id]? with
    | some feed => .accepted (sweep sweeper.ring (offered.insert id feed.finish))
    | none => .accepted (sweep (sweeper.update id Feed.finish).ring offered)

/-- A worker that is gone without a word: its end is lost if there is no place for it. -/
def abandon (intake : Intake) (id : ClientId) : Intake :=
  match intake.close id with
  | .accepted intake => intake
  | _ => intake

def drain (intake : Intake) : Intake × List Envelope :=
  match intake with
  | addressed queue => (addressed { queue with envelopes := [] }, queue.envelopes)
  | sweep sweeper offered =>
    let (sweeper, batch) := sweeper.sweep
    (sweep sweeper offered, batch)

def isAnnounced : Intake → Bool
  | addressed queue => !queue.envelopes.isEmpty
  | sweep sweeper _ => sweeper.isRung

/-- The next batch, if something has been announced. In a private feed an announcement may turn out
to be about nothing. -/
def next? (intake : Intake) : Option (Intake × List Envelope) :=
  match intake with
  | addressed queue => if queue.envelopes.isEmpty then none else some intake.drain
  | sweep sweeper offered =>
    sweeper.answer.map fun (sweeper, batch) => (sweep sweeper offered, batch)

end Intake

end ChatRooms
