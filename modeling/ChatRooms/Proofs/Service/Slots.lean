import ChatRooms.Proofs.Maps
import ChatRooms.Service

namespace ChatRooms

open Std

namespace Service

def stages (service : Service) : ExtTreeMap ClientId Stage :=
  service.connections.map fun _ connection => connection.stage

def stage? (service : Service) (id : ClientId) : Option Stage :=
  service.stages[id]?

def slotsHeld (service : Service) : Nat :=
  (service.stages.filter fun _ => holdsSlot).size

def workers (service : Service) : Nat :=
  (service.stages.filter fun _ stage => stage = .working).size

/-- The slots that somebody takes whose connection has come so far. -/
def share (stage? : Option Stage) : Nat :=
  if stage?.any holdsSlot then 1 else 0

variable {service service' : Service} {id other : ClientId} {connection : Connection} {stage : Stage}

theorem stage?_eq (service : Service) (id : ClientId) :
    service.stage? id = service.connections[id]?.map Connection.stage :=
  ExtTreeMap.getElem?_map

theorem workers_le_slotsHeld (service : Service) : service.workers ≤ service.slotsHeld := by
  have hworkers : service.stages.filter (fun _ stage => stage = .working) =
      (service.stages.filter fun _ => holdsSlot).filter fun _ stage => stage = .working := by
    apply ExtTreeMap.ext_getElem?
    intro id
    rw [ExtTreeMap.getElem?_filter', ExtTreeMap.getElem?_filter', ExtTreeMap.getElem?_filter']
    cases service.stages[id]? with
    | none => rfl
    | some stage => cases stage <;> rfl
  rw [workers, hworkers]
  exact ExtTreeMap.size_filter_le_size

/-- The connection of one client comes to a stage, or to an end, and its slot goes with it. -/
structure Turns (id : ClientId) (stage? : Option Stage) (service service' : Service) : Prop where
  self : service'.stage? id = stage?
  other {other : ClientId} : other ≠ id → service'.stage? other = service.stage? other
  slots : service'.freeSlots + share stage? = service.freeSlots + share (service.stage? id)
  maxClients : service'.maxClients = service.maxClients

theorem Turns.slots_eq {stage? : Option Stage} (h : Turns id stage? service service') :
    service'.freeSlots + service'.slotsHeld = service.freeSlots + service.slotsHeld := by
  have hheld := Maps.size_filter_add holdsSlot fun other hother => h.other hother
  have hslots := h.slots
  have hself := h.self
  unfold share Service.stage? at hslots
  unfold Service.stage? at hself
  rw [hself] at hheld
  unfold slotsHeld
  omega

theorem Turns.of_exchange {stage? : Option Stage} {exchange : Exchange}
    (h : Turns id stage? { service with exchange } service') : Turns id stage? service service' :=
  ⟨h.self, h.other, h.slots, h.maxClients⟩

/-- Whatever else becomes of a connection, how far it has come stays the same. -/
theorem turns_update {change : Connection → Connection}
    (hchange : ∀ connection, (change connection).stage = connection.stage) :
    Turns id (service.stage? id) service (service.update id change) := by
  have hsame (other : ClientId) : (service.update id change).stage? other = service.stage? other := by
    rw [stage?_eq, stage?_eq, update, ExtTreeMap.getElem?_modify]
    split
    next heq =>
      obtain rfl := Std.compare_eq_iff_eq.1 heq
      cases service.connections[id]? <;> simp [hchange]
    next => rfl
  exact ⟨hsame id, fun _ => hsame _, rfl, rfl⟩

theorem stage?_setStage (hstage : service.stage? id ≠ none) (stage : Stage) :
    (service.setStage id stage).stage? id = some stage := by
  rw [stage?_eq] at hstage ⊢
  rw [setStage, update, ExtTreeMap.getElem?_modify, if_pos Std.compare_self]
  cases hconnection : service.connections[id]? with
  | none =>
    rw [hconnection] at hstage
    exact absurd rfl hstage
  | some connection => rfl

theorem stage?_setStage_of_ne (hne : other ≠ id) (stage : Stage) :
    (service.setStage id stage).stage? other = service.stage? other := by
  rw [stage?_eq, stage?_eq, setStage, update, ExtTreeMap.getElem?_modify,
    if_neg (mt Std.compare_eq_iff_eq.1 hne.symm)]

theorem stage?_forget (service : Service) (id : ClientId) : (service.forget id).stage? id = none := by
  rw [stage?_eq, forget, ExtTreeMap.getElem?_erase_self]
  rfl

theorem stage?_forget_of_ne (hne : other ≠ id) :
    (service.forget id).stage? other = service.stage? other := by
  rw [stage?_eq, stage?_eq, forget, Maps.getElem?_erase_of_ne hne.symm]

theorem turns_setStage {before : Stage} (hstage : service.stage? id = some before)
    (hholds : holdsSlot stage = holdsSlot before) :
    Turns id (some stage) service (service.setStage id stage) where
  self := stage?_setStage (by simp [hstage]) stage
  other hne := stage?_setStage_of_ne hne stage
  slots := by rw [hstage, share, share, Option.any_some, Option.any_some, hholds]; rfl
  maxClients := rfl

theorem turns_releaseSlot (hstage : service.stage? id = some .ended) :
    Turns id (some .unreported) service (service.releaseSlot id) where
  self := by
    rw [releaseSlot, stage?_setStage]
    show service.stage? id ≠ none
    rw [hstage]
    simp
  other hne := stage?_setStage_of_ne hne _
  slots := by rw [hstage]; rfl
  maxClients := rfl

theorem turns_dismiss {before : Stage} (hstage : service.stage? id = some before)
    (hholds : holdsSlot before = true) : Turns id none service (service.dismiss id) where
  self := stage?_forget service id
  other hne := stage?_forget_of_ne hne
  slots := by rw [hstage, share, share, Option.any_some, hholds]; rfl
  maxClients := rfl

theorem turns_forget (hstage : service.stage? id = some .unreported) :
    Turns id none service (service.forget id) where
  self := stage?_forget service id
  other hne := stage?_forget_of_ne hne
  slots := by rw [hstage]; rfl
  maxClients := rfl

theorem turns_giveUp {before : Stage} (hstage : service.stage? id = some before)
    (hholds : holdsSlot before = true) : Turns id none service (service.giveUp id) :=
  have h := turns_dismiss hstage hholds
  ⟨h.self, h.other, h.slots, h.maxClients⟩

theorem announce_of_post {exchange : Exchange}
    (hpost : service.exchange.post (.register id connection.peer) = .accepted exchange) :
    service.announce id connection = { service with exchange }.setStage id .announced := by
  rw [announce, hpost]

theorem startWork_of_accepted (haccepted : service.exchange.registrations[id]? = some .accepted) :
    service.startWork id = service.setStage id .working := by
  rw [startWork, haccepted]

theorem startWork_of_refused (hrefused : service.exchange.registrations[id]? = some .refused) :
    service.startWork id = service.dismiss id := by
  rw [startWork, hrefused]

theorem reportEnd_of_post {exchange : Exchange}
    (hpost : service.exchange.post (.exited id) = .accepted exchange) :
    service.reportEnd id = { service with exchange }.forget id := by
  rw [reportEnd, hpost]

theorem reportEnd_of_closed (hgone : service.exchange.isOpen = false) :
    service.reportEnd id = service.forget id := by
  rw [reportEnd, Exchange.post, hgone]
  rfl

theorem stage?_of_connection (hconnection : service.connections[id]? = some connection) :
    service.stage? id = some connection.stage := by
  rw [stage?_eq, hconnection, Option.map_some]

/-- Whether or not there is a place among the orders, and whether or not there is a hub. -/
theorem turns_announce (hconnection : service.connections[id]? = some connection)
    (hstage : connection.stage = .accepted) :
    ∃ stage?, Turns id stage? service (service.announce id connection) := by
  have haccepted : service.stage? id = some .accepted := by
    rw [stage?_of_connection hconnection, hstage]
  unfold announce
  split
  next exchange _ =>
    exact ⟨_, Turns.of_exchange (turns_setStage haccepted rfl)⟩
  next => exact ⟨_, rfl, fun _ => rfl, rfl, rfl⟩
  next => exact ⟨_, turns_giveUp haccepted rfl⟩

theorem exists_of_accept {peer : Option SocketAddress}
    (h : service.accept id peer = .ok (some service')) :
    service.freeSlots ≠ 0 ∧ ∃ outbox, Outbox.new service.clientQueue = .ok outbox ∧
      service' = { service with
        freeSlots := service.freeSlots - 1
        exchange := service.exchange.connect id outbox
        connections := service.connections.insert id { peer } } := by
  unfold accept at h
  split at h
  next => cases h
  next hfree =>
    cases houtbox : Outbox.new service.clientQueue with
    | error fault =>
      rw [houtbox] at h
      cases h
    | ok outbox =>
      rw [houtbox] at h
      exact ⟨hfree, outbox, rfl, (Option.some.inj (Except.ok.inj h)).symm⟩

theorem of_accept {peer : Option SocketAddress} (hnobody : service.stage? id = none)
    (h : service.accept id peer = .ok (some service')) :
    Turns id (some .accepted) service service' ∧ ∃ outbox, Outbox.new service.clientQueue = .ok outbox ∧
      service'.exchange = service.exchange.connect id outbox := by
  obtain ⟨hfree, outbox, houtbox, rfl⟩ := exists_of_accept h
  refine ⟨⟨?_, fun {other} hne => ?_, ?_, rfl⟩, outbox, houtbox, rfl⟩
  · rw [stage?_eq, ExtTreeMap.getElem?_insert_self]
    rfl
  · rw [stage?_eq, stage?_eq, Maps.getElem?_insert_of_ne hne.symm]
  · rw [hnobody]
    show service.freeSlots - 1 + 1 = service.freeSlots + 0
    omega

theorem freeSlots_eq_zero_of_accept {peer : Option SocketAddress}
    (h : service.accept id peer = .ok none) : service.freeSlots = 0 := by
  unfold accept at h
  split at h
  next hnone => exact hnone
  next =>
    cases houtbox : Outbox.new service.clientQueue <;> rw [houtbox] at h <;> cases h

end Service

end ChatRooms
