import ChatRooms.Exchange

namespace ChatRooms

inductive Act where
  | connect (id : ClientId) (queue : Option Nat) (isSlow : Bool) (peer : Option SocketAddress)
  | line (id : ClientId) (text : String)
  | close (id : ClientId)
  | drop (id : ClientId)
  | dropOutbox (id : ClientId)
  | read (id : ClientId) (count : Nat)
  | exit (id : ClientId)
  | shutdown
  | dropHandle
  | spawn (id : ClientId) (needsSlot : Bool)
  | finish (id : ClientId)
  | slots
  | advance (time : Nat)
  deriving DecidableEq, Repr

inductive Answer where
  | done
  | nothing
  | flag (value : Bool)
  | count (value : Nat)
  /-- Lines that were read, and whether the end came after them. -/
  | lines (lines : List String) (ended : Bool)
  | failed (failure : Failure)
  | undeliverable (cause : Undeliverable)
  | noHandle
  | noClient
  | noUplink
  | noSlot
  | noWorker
  deriving DecidableEq, Repr

end ChatRooms
