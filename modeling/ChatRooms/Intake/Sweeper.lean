import Std.Data.ExtTreeMap
import ChatRooms.Refusal

namespace ChatRooms

open Std

/-- What a worker reports of its client: the lines it has read, and that there will be no more. -/
inductive Report where
  | line (text : String)
  | closed
  deriving DecidableEq, Repr

structure Envelope where
  id : ClientId
  report : Report
  deriving DecidableEq, Repr

structure Feed where
  lines : List String := []
  /-- The worker has let go of its end. -/
  hasEnded : Bool := false
  deriving DecidableEq, Repr

namespace Feed

def push (feed : Feed) (line : String) : Feed :=
  { feed with lines := feed.lines ++ [line] }

def finish (feed : Feed) : Feed :=
  { feed with hasEnded := true }

def drained (feed : Feed) : Feed :=
  { feed with lines := [] }

end Feed

/-- Private feeds and one bell, which says only that some feed has something. Whoever answers it visits
every feed. -/
structure Sweeper where
  feeds : ExtTreeMap ClientId Feed := ∅
  /-- The bell has rung and nobody has answered it yet. -/
  isRung : Bool := false

/-- What a sweep has gathered so far. -/
structure Haul where
  lines : List Envelope := []
  ended : List ClientId := []
  deriving DecidableEq, Repr

/-- Endings come after the lines, whichever feeds they are from. -/
def Haul.batch (haul : Haul) : List Envelope :=
  haul.lines ++ haul.ended.map fun id => { id, report := .closed }

namespace Sweeper

def attach (sweeper : Sweeper) (id : ClientId) (feed : Feed) : Sweeper :=
  { sweeper with feeds := sweeper.feeds.insert id feed }

def isAttached (sweeper : Sweeper) (id : ClientId) : Bool :=
  sweeper.feeds.contains id

def detach (sweeper : Sweeper) (id : ClientId) : Sweeper :=
  { sweeper with feeds := sweeper.feeds.erase id }

def ring (sweeper : Sweeper) : Sweeper :=
  { sweeper with isRung := true }

def hush (sweeper : Sweeper) : Sweeper :=
  { sweeper with isRung := false }

def update (sweeper : Sweeper) (id : ClientId) (change : Feed → Feed) : Sweeper :=
  match sweeper.feeds[id]? with
  | some feed => sweeper.attach id (change feed)
  | none => sweeper

/-- Empties one feed into the haul, and notes whether it has ended. -/
def visit (sweep : Sweeper × Haul) (id : ClientId) : Sweeper × Haul :=
  let (sweeper, haul) := sweep
  match sweeper.feeds[id]? with
  | none => (sweeper, haul)
  | some feed =>
    (sweeper.attach id feed.drained,
      { lines := haul.lines ++ feed.lines.map fun line => { id, report := .line line }
        ended := if feed.hasEnded then haul.ended ++ [id] else haul.ended })

/-- Visits the feeds in the given order, and detaches those that have ended. -/
def sweepInOrder (sweeper : Sweeper) (order : List ClientId) : Sweeper × List Envelope :=
  let (sweeper, haul) := order.foldl visit (sweeper, {})
  (haul.ended.foldl detach sweeper, haul.batch)

def sweep (sweeper : Sweeper) : Sweeper × List Envelope :=
  sweeper.sweepInOrder sweeper.feeds.keys

/-- Answers the bell with a sweep, if it has rung. -/
def answer (sweeper : Sweeper) : Option (Sweeper × List Envelope) :=
  if sweeper.isRung then some sweeper.hush.sweep else none

end Sweeper

end ChatRooms
