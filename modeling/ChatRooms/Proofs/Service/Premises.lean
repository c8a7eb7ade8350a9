import ChatRooms.Proofs.Exchange.Schedule
import ChatRooms.Proofs.Service.Slots

namespace ChatRooms

open Std

/-- How a worker ends. -/
inductive Ending where
  | clean
  | failed (reason : String)
  | panicked
  deriving DecidableEq, Repr

/-- What happens in the life of a connection. -/
inductive Milestone where
  /-- It was given a slot. -/
  | admitted
  /-- The hub applied its registration. -/
  | registered
  /-- Its worker was started. -/
  | begun
  | ended (ending : Ending)
  /-- Its slot was set free. -/
  | released
  /-- The end of its worker was reported. -/
  | reported
  /-- The hub handled the report. -/
  | exited
  deriving DecidableEq, Repr

/-- What can be told of a step. -/
inductive Episode where
  /-- It happened on the floor of the hub. -/
  | seen (happening : Happening)
  | reached (id : ClientId) (milestone : Milestone)
  /-- There was no slot for the client. -/
  | turnedAway (id : ClientId)

/-- What the hub handles may be a milestone for a client. -/
def Happening.milestone? (id : ClientId) : Happening → Option Milestone
  | handled _ (.register other _) => if other = id then some .registered else none
  | handled _ (.exited other) => if other = id then some .exited else none
  | handled .. | forwarded .. | taken .. => none

namespace Episode

def happening? : Episode → Option Happening
  | seen happening => some happening
  | reached .. | turnedAway _ => none

def milestone? (id : ClientId) : Episode → Option Milestone
  | seen happening => happening.milestone? id
  | reached other milestone => if other = id then some milestone else none
  | turnedAway _ => none

end Episode

def happeningsOf (trace : List Episode) : List Happening :=
  trace.filterMap Episode.happening?

def lifeOf (id : ClientId) (trace : List Episode) : List Milestone :=
  trace.filterMap (Episode.milestone? id)

def wholeLife (ending : Ending) : List Milestone :=
  [.admitted, .registered, .begun, .ended ending, .released, .reported, .exited]

/-- The service itself sees to connections, and to what the hub is told of them. -/
def Choice.isOfService : Choice → Bool
  | connect .. | giveUp _ | post (.register ..) | post (.exited _) => true
  | _ => false

structure Premises where
  service : Service
  activity : Activity := .handling []
  /-- Whose workers have not let go of their ends. -/
  holders : ExtTreeSet ClientId := ∅
  /-- Whose workers have written, or let go, and have yet to ring. -/
  ringers : List ClientId := []

namespace Premises

def floor (premises : Premises) : Floor where
  exchange := premises.service.exchange
  activity := premises.activity
  holders := premises.holders
  ringers := premises.ringers

/-- The same premises, after something has happened on the floor. -/
def onFloor (premises : Premises) (floor : Floor) : Premises where
  service := { premises.service with exchange := floor.exchange }
  activity := floor.activity
  holders := floor.holders
  ringers := floor.ringers

/-- What anybody can do next. A worker may end at any time and in any way, and whoever watches over it then
goes on by himself. -/
inductive Step (premises : Premises) : List Episode → Premises → Prop where
  /-- The hub, the workers with their lines, the connections that take them, and the clock. -/
  | seen {choice : Choice} {happenings : List Happening} {floor : Floor}
      (hchoice : choice.isOfService = false)
      (hchoose : premises.floor.choose choice = some (happenings, floor)) :
      Step premises (happenings.map .seen) (premises.onFloor floor)
  | accept {id : ClientId} {peer : Option SocketAddress} {service : Service}
      (hnew : premises.service.exchange.registrations[id]? = none)
      (hnobody : premises.service.stage? id = none)
      (haccept : premises.service.accept id peer = .ok (some service)) :
      Step premises [.reached id .admitted] { premises with
        service, holders := premises.holders.insert id }
  | turnAway {id : ClientId} {peer : Option SocketAddress}
      (haccept : premises.service.accept id peer = .ok none) :
      Step premises [.turnedAway id] premises
  | announce {id : ClientId} {connection : Connection}
      (hconnection : premises.service.connections[id]? = some connection)
      (hstage : connection.stage = .accepted) :
      Step premises [] { premises with service := premises.service.announce id connection }
  | begin {id : ClientId} (hstage : premises.service.stage? id = some .announced)
      (haccepted : premises.service.exchange.registrations[id]? = some .accepted) :
      Step premises [.reached id .begun] { premises with service := premises.service.startWork id }
  | giveUp {id : ClientId} (hstage : premises.service.stage? id = some .announced)
      (hrefused : premises.service.exchange.registrations[id]? = some .refused) :
      Step premises [] { premises with service := premises.service.startWork id }
  /-- A worker that ends because it cannot write has not let go of what it reads for. -/
  | finish {id : ClientId} (ending : Ending) (hstage : premises.service.stage? id = some .working) :
      Step premises [.reached id (.ended ending)] { premises with
        service := premises.service.setStage id .ended }
  | release {id : ClientId} (hstage : premises.service.stage? id = some .ended) :
      Step premises [.reached id .released] { premises with
        service := premises.service.releaseSlot id }
  | report {id : ClientId} {exchange : Exchange}
      (hstage : premises.service.stage? id = some .unreported)
      (hpost : premises.service.exchange.post (.exited id) = .accepted exchange) :
      Step premises [.reached id .reported] { premises with
        service := premises.service.reportEnd id }
  /-- There is nobody to report to. -/
  | withhold {id : ClientId} (hstage : premises.service.stage? id = some .unreported)
      (hgone : premises.service.exchange.isOpen = false) :
      Step premises [] { premises with service := premises.service.reportEnd id }
  /-- Bytes come in, and lines go out. -/
  | note {id : ClientId} {change : Connection → Connection}
      (hchange : ∀ connection, (change connection).stage = connection.stage) :
      Step premises [] { premises with service := premises.service.update id change }

/-- What has happened since a service was set up, and what has come of it. -/
inductive Reached (settings : Settings) : List Episode → Premises → Prop where
  | start {service : Service} (hnew : Service.new settings = .ok service) :
      Reached settings [] { service }
  | step {trace episodes : List Episode} {premises premises' : Premises}
      (before : Reached settings trace premises) (hstep : Step premises episodes premises') :
      Reached settings (trace ++ episodes) premises'

variable {premises premises' : Premises} {episodes trace more : List Episode} {settings : Settings}
  {id : ClientId} {happenings : List Happening}

theorem happeningsOf_append : happeningsOf (trace ++ more) = happeningsOf trace ++ happeningsOf more :=
  List.filterMap_append

theorem happeningsOf_seen : happeningsOf (happenings.map .seen) = happenings := by
  rw [happeningsOf, List.filterMap_map]
  exact List.filterMap_some

theorem lifeOf_append : lifeOf id (trace ++ more) = lifeOf id trace ++ lifeOf id more :=
  List.filterMap_append

theorem lifeOf_seen : lifeOf id (happenings.map .seen) = happenings.filterMap (·.milestone? id) := by
  rw [lifeOf, List.filterMap_map]
  rfl

theorem Step.slots_eq (hstep : Step premises episodes premises') :
    premises'.service.freeSlots + premises'.service.slotsHeld =
        premises.service.freeSlots + premises.service.slotsHeld ∧
      premises'.service.maxClients = premises.service.maxClients := by
  have turned {id : ClientId} {stage? : Option Stage}
      (h : premises.service.Turns id stage? premises'.service) := And.intro h.slots_eq h.maxClients
  cases hstep with
  | seen | turnAway => exact ⟨rfl, rfl⟩
  | accept _ hnobody haccept => exact turned (Service.of_accept hnobody haccept).1
  | announce hconnection hstage =>
    obtain ⟨_, h⟩ := Service.turns_announce hconnection hstage
    exact turned h
  | begin hstage haccepted =>
    apply turned
    rw [Service.startWork_of_accepted haccepted]
    exact Service.turns_setStage hstage rfl
  | giveUp hstage hrefused =>
    apply turned
    rw [Service.startWork_of_refused hrefused]
    exact Service.turns_dismiss hstage rfl
  | finish _ hstage => exact turned (Service.turns_setStage hstage rfl)
  | release hstage => exact turned (Service.turns_releaseSlot hstage)
  | @report _ exchange hstage hpost =>
    apply turned
    rw [Service.reportEnd_of_post hpost]
    exact .of_exchange (Service.turns_forget hstage)
  | withhold hstage hgone =>
    apply turned
    rw [Service.reportEnd_of_closed hgone]
    exact Service.turns_forget hstage
  | note hchange => exact turned (Service.turns_update hchange)

end Premises

end ChatRooms
