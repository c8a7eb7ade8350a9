import ChatRooms.Exchange
import ChatRooms.Proofs.Intake.Tour

namespace ChatRooms

open Std

/-- What the hub is doing. -/
inductive Activity where
  /-- It has these events left to handle; if there are none, it is free. -/
  | handling (events : List Event)
  /-- It gathers a batch, after which it will handle the exit of `leaver`, if there is one. -/
  | gathering (round : Round) (leaver : Option ClientId)
  deriving DecidableEq, Repr

structure Floor where
  exchange : Exchange
  activity : Activity := .handling []
  /-- Whose workers have not let go of their ends. -/
  holders : ExtTreeSet ClientId := ∅
  /-- Whose workers have written, or let go, and have yet to ring. -/
  ringers : List ClientId := []

/-- What can be told of a step from outside. -/
inductive Happening where
  /-- A line from the client's worker was taken in. -/
  | forwarded (id : ClientId) (line : String)
  /-- The event was handled by the hub as it was at that moment. -/
  | handled (hub : Hub) (event : Event)
  /-- The client's connection took the line from its outbox. -/
  | taken (id : ClientId) (line : String)

namespace Exchange

/-- The hub does not stop before it looks for the next thing to do. -/
def isReady (exchange : Exchange) : Bool :=
  match exchange.phase with
  | .running => true
  | .closing _ => !exchange.hub.directory.isEmpty
  | .stopped | .failed _ => false

/-- What the hub handles when it takes an order other than an exit. -/
def announced (exchange : Exchange) (order : Order) : List Happening :=
  match order, exchange.phase with
  | .register id peer, .running => [.handled exchange.hub (.register id peer)]
  | .shutdown, .running => [.handled exchange.hub .shutdown]
  | _, _ => []

end Exchange

namespace Floor

/-- The worker of a client that was made its ways has let go of its end. -/
def Finished (floor : Floor) (id : ClientId) : Prop :=
  floor.exchange.registrations[id]? ≠ none ∧ id ∉ floor.holders

/-- A client is registered once. Nobody asks whose exit is reported, and when. -/
def Permits (floor : Floor) : Order → Prop
  | .register id _ => floor.exchange.registrations[id]? = some .pending ∧
      ∀ peer, .register id peer ∉ floor.exchange.orders
  | .exited _ | .shutdown => True

/-- Nothing of a client is lost if its exit is reported only when its worker has finished. -/
def Gives (floor : Floor) : Order → Prop
  | .register id _ => floor.exchange.registrations[id]? = some .pending ∧
      ∀ peer, .register id peer ∉ floor.exchange.orders
  | .exited id => floor.Finished id
  | .shutdown => True

/-- What can happen next if workers, and those who watch over them, wait for each other. An order may come
in just after the hub has looked for one, and time may pass just after it has looked at the clock, so
neither keeps it from taking something else. -/
inductive Step (floor : Floor) : List Happening → Floor → Prop where
  | connect {id : ClientId} {capacity : Nat} {outbox : Outbox}
      (hnew : floor.exchange.registrations[id]? = none)
      (houtbox : Outbox.new capacity = .ok outbox) :
      Step floor [] { floor with
        exchange := floor.exchange.connect id outbox, holders := floor.holders.insert id }
  | post {order : Order} {exchange : Exchange} (hgives : floor.Gives order)
      (hpost : floor.exchange.post order = .accepted exchange) :
      Step floor [] { floor with exchange }
  /-- A newcomer is turned away without having been announced. -/
  | giveUp {id : ClientId} (hpending : floor.exchange.registrations[id]? = some .pending)
      (hunasked : ∀ peer, .register id peer ∉ floor.exchange.orders) :
      Step floor [] { floor with exchange := floor.exchange.refuse id }
  /-- A worker reads nothing before its registration is accepted. -/
  | write {id : ClientId} {line : String} {intake : Intake} (hholds : id ∈ floor.holders)
      (haccepted : floor.exchange.registrations[id]? = some .accepted)
      (hopen : floor.exchange.isOpen = true)
      (hwrite : floor.exchange.intake.write id line = .accepted intake) :
      Step floor [.forwarded id line] { floor with
        exchange := { floor.exchange with intake }, ringers := id :: floor.ringers }
  | letGo {id : ClientId} {intake : Intake} (hholds : id ∈ floor.holders)
      (hopen : floor.exchange.isOpen = true)
      (hletGo : floor.exchange.intake.letGo id = .accepted intake) :
      Step floor [] { floor with
        exchange := { floor.exchange with intake }
        holders := floor.holders.erase id
        ringers := id :: floor.ringers }
  /-- In a shared queue there may be no place for an ending, or nobody to wait for one. -/
  | vanish {id : ClientId} (hholds : id ∈ floor.holders)
      (hlost : floor.exchange.intake.isPrivate = false ∨ floor.exchange.isOpen = false) :
      Step floor [] { floor with holders := floor.holders.erase id }
  | ring {id : ClientId} (hid : id ∈ floor.ringers) :
      Step floor [] { floor with
        exchange := { floor.exchange with intake := floor.exchange.intake.ring }
        ringers := floor.ringers.erase id }
  | take {id : ClientId} {outbox outbox' : Outbox} {line : String}
      (houtbox : floor.exchange.outboxes[id]? = some outbox)
      (htake : outbox.take = (outbox', .line line)) :
      Step floor [.taken id line] { floor with
        exchange := floor.exchange.updateOutbox id fun _ => outbox' }
  | stopReading (id : ClientId) :
      Step floor [] { floor with
        exchange := floor.exchange.updateOutbox id Outbox.stopReading }
  | pass (time : Nat) :
      Step floor [] { floor with
        exchange := { floor.exchange with clock := floor.exchange.clock + time } }
  | dropHandles :
      Step floor [] { floor with exchange := { floor.exchange with hasHandles := false } }
  | order {order : Order} {orders : List Order} (hfree : floor.activity = .handling [])
      (hready : floor.exchange.isReady = true) (horders : floor.exchange.orders = order :: orders)
      (hstays : ∀ id, order ≠ .exited id) :
      Step floor (floor.exchange.announced order) { floor with
        exchange := { floor.exchange with orders }.takeOrder order }
  | leave {id : ClientId} {orders : List Order} {round : Round}
      (hfree : floor.activity = .handling []) (hready : floor.exchange.isReady = true)
      (horders : floor.exchange.orders = .exited id :: orders)
      (hbegins : floor.exchange.intake.Begins round) :
      Step floor [] { floor with
        exchange := { floor.exchange with orders }, activity := .gathering round (some id) }
  | answer {round : Round} (hfree : floor.activity = .handling [])
      (hready : floor.exchange.isReady = true)
      (hannounced : floor.exchange.intake.isAnnounced = true)
      (hbegins : floor.exchange.intake.hush.Begins round) :
      Step floor [] { floor with
        exchange := { floor.exchange with intake := floor.exchange.intake.hush }
        activity := .gathering round none }
  | gather {round round' : Round} {leaver : Option ClientId} {intake : Intake}
      (hactivity : floor.activity = .gathering round leaver)
      (hgather : floor.exchange.intake.gather round = some (intake, round')) :
      Step floor [] { floor with
        exchange := { floor.exchange with intake }, activity := .gathering round' leaver }
  | conclude {round : Round} {leaver : Option ClientId}
      (hactivity : floor.activity = .gathering round leaver)
      (hend : floor.exchange.intake.gather round = none) :
      Step floor [] { floor with
        exchange := { floor.exchange with intake := floor.exchange.intake.conclude round }
        activity := .handling (round.batch.map Envelope.event ++ leaver.toList.map Event.exited) }
  | handle {event : Event} {events : List Event} (hactivity : floor.activity = .handling (event :: events))
      (hopen : floor.exchange.isOpen = true) :
      Step floor [.handled floor.exchange.hub event] { floor with
        exchange := floor.exchange.handle [event], activity := .handling events }
  /-- Nobody is left who could give an order. -/
  | close (hfree : floor.activity = .handling []) (hphase : floor.exchange.phase = .running)
      (horders : floor.exchange.orders = []) (hhandles : floor.exchange.hasHandles = false) :
      Step floor [.handled floor.exchange.hub .shutdown] { floor with
        exchange := floor.exchange.beginClosing }
  | stop {deadline : Nat} (hfree : floor.activity = .handling [])
      (hphase : floor.exchange.phase = .closing deadline)
      (hover : floor.exchange.hub.directory.isEmpty = true ∨ deadline ≤ floor.exchange.clock) :
      Step floor [] { floor with exchange := floor.exchange.halt .stopped }

/-- What can happen next, whether or not anybody waits. -/
inductive Stir (floor : Floor) : List Happening → Floor → Prop where
  | step {happenings : List Happening} {floor' : Floor} (hstep : Step floor happenings floor') :
      Stir floor happenings floor'
  /-- The worker does not wait for its client to be registered. -/
  | write {id : ClientId} {line : String} {intake : Intake} (hholds : id ∈ floor.holders)
      (hopen : floor.exchange.isOpen = true)
      (hwrite : floor.exchange.intake.write id line = .accepted intake) :
      Stir floor [.forwarded id line] { floor with
        exchange := { floor.exchange with intake }, ringers := id :: floor.ringers }
  /-- Nobody asks whether there is a worker, and whether it has ended. -/
  | report {id : ClientId} {exchange : Exchange}
      (hpost : floor.exchange.post (.exited id) = .accepted exchange) :
      Stir floor [] { floor with exchange }

/-- What happens from some moment on. -/
inductive Goes (start : Floor) : List Happening → Floor → Prop where
  | refl : Goes start [] start
  | step {trace happenings : List Happening} {floor floor' : Floor}
      (before : Goes start trace floor) (hstir : Stir floor happenings floor') :
      Goes start (trace ++ happenings) floor'

/-- What has happened since an exchange was set up, and what has come of it. -/
def Bustle (settings : Settings) (trace : List Happening) (floor : Floor) : Prop :=
  ∃ exchange, Exchange.new settings = .ok exchange ∧ Goes { exchange } trace floor

/-- What has happened if they wait for each other, and what has come of it. -/
inductive Run (settings : Settings) : List Happening → Floor → Prop where
  | start {exchange : Exchange} (hnew : Exchange.new settings = .ok exchange) :
      Run settings [] { exchange }
  | step {trace happenings : List Happening} {floor floor' : Floor}
      (before : Run settings trace floor) (hstep : Step floor happenings floor') :
      Run settings (trace ++ happenings) floor'

variable {settings : Settings} {trace more happenings : List Happening} {first floor floor' : Floor}

theorem Gives.permits {order : Order} (h : floor.Gives order) : floor.Permits order := by
  cases order with
  | register => exact h
  | exited | shutdown => trivial

theorem Permits.gives {order : Order} (h : floor.Permits order) (hstays : ∀ id, order ≠ .exited id) :
    floor.Gives order := by
  cases order with
  | register => exact h
  | exited id => exact absurd rfl (hstays id)
  | shutdown => trivial

theorem Goes.trans (h : Goes first trace floor) (hmore : Goes floor more floor') :
    Goes first (trace ++ more) floor' := by
  induction hmore with
  | refl =>
    rw [List.append_nil]
    exact h
  | step _ hstir ih =>
    rw [← List.append_assoc]
    exact ih.step hstir

theorem Bustle.start {exchange : Exchange} (hnew : Exchange.new settings = .ok exchange) :
    Bustle settings [] { exchange } :=
  ⟨exchange, hnew, .refl⟩

theorem Bustle.extend (h : Bustle settings trace floor) (hmore : Goes floor more floor') :
    Bustle settings (trace ++ more) floor' := by
  obtain ⟨exchange, hnew, hgoes⟩ := h
  exact ⟨exchange, hnew, hgoes.trans hmore⟩

theorem Bustle.stir (h : Bustle settings trace floor) (hstir : Stir floor happenings floor') :
    Bustle settings (trace ++ happenings) floor' := by
  obtain ⟨exchange, hnew, hgoes⟩ := h
  exact ⟨exchange, hnew, hgoes.step hstir⟩

theorem Bustle.step (h : Bustle settings trace floor) (hstep : Step floor happenings floor') :
    Bustle settings (trace ++ happenings) floor' :=
  h.stir (.step hstep)

/-- Something that holds at the start and is preserved by every step holds throughout. -/
theorem Bustle.preserves {P : List Happening → Floor → Prop} (h : Bustle settings trace floor)
    (hstart : ∀ exchange, Exchange.new settings = .ok exchange → P [] { exchange })
    (hstep : ∀ {trace happenings floor floor'}, Bustle settings trace floor → P trace floor →
      Stir floor happenings floor' → P (trace ++ happenings) floor') : P trace floor := by
  obtain ⟨exchange, hnew, hgoes⟩ := h
  induction hgoes with
  | refl => exact hstart exchange hnew
  | step before hstir ih => exact hstep ⟨exchange, hnew, before⟩ ih hstir

theorem Run.bustle (h : Run settings trace floor) : Bustle settings trace floor := by
  induction h with
  | start hnew => exact .start hnew
  | step _ hstep ih => exact ih.step hstep

end Floor

end ChatRooms
