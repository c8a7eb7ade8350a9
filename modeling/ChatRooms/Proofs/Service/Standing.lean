import ChatRooms.Proofs.Exchange.Handshake
import ChatRooms.Proofs.Service.Premises

namespace ChatRooms

open Std

def Activity.exitsOf (id : ClientId) : Activity → Nat
  | handling events => events.count (.exited id)
  | gathering _ leaver => leaver.toList.count id

structure Standing where
  stage? : Option Stage
  registration? : Option Registration
  /-- Requests to register it that wait for the hub. -/
  requests : Nat
  /-- Reports of its worker's end that the hub has not handled. -/
  exits : Nat
  isPresent : Bool

namespace Floor

def requestsOf (floor : Floor) (id : ClientId) : Nat :=
  floor.exchange.orders.countP (·.newcomer? = some id)

def exitsOf (floor : Floor) (id : ClientId) : Nat :=
  floor.exchange.orders.count (.exited id) + floor.activity.exitsOf id

def standing (floor : Floor) (id : ClientId) (stage? : Option Stage) : Standing where
  stage?
  registration? := floor.exchange.registrations[id]?
  requests := floor.requestsOf id
  exits := floor.exitsOf id
  isPresent := floor.exchange.hub.directory.occupants.contains id

end Floor

def Premises.standing (premises : Premises) (id : ClientId) : Standing :=
  premises.floor.standing id (premises.service.stage? id)

namespace Standing

/-- How a client stands after the milestones that are behind it. -/
inductive Accords : List Milestone → Standing → Prop where
  | unknown : Accords [] ⟨none, none, 0, 0, false⟩
  | accepted : Accords [.admitted] ⟨some .accepted, some .pending, 0, 0, false⟩
  | announced : Accords [.admitted] ⟨some .announced, some .pending, 1, 0, false⟩
  | refused : Accords [.admitted] ⟨some .announced, some .refused, 0, 0, false⟩
  | dismissed : Accords [.admitted] ⟨none, some .refused, 0, 0, false⟩
  | registered (isPresent : Bool) :
      Accords [.admitted, .registered] ⟨some .announced, some .accepted, 0, 0, isPresent⟩
  | working (isPresent : Bool) : Accords [.admitted, .registered, .begun]
      ⟨some .working, some .accepted, 0, 0, isPresent⟩
  | ended (ending : Ending) (isPresent : Bool) :
      Accords [.admitted, .registered, .begun, .ended ending]
        ⟨some .ended, some .accepted, 0, 0, isPresent⟩
  | released (ending : Ending) (isPresent : Bool) :
      Accords [.admitted, .registered, .begun, .ended ending, .released]
        ⟨some .unreported, some .accepted, 0, 0, isPresent⟩
  | reported (ending : Ending) (isPresent : Bool) :
      Accords [.admitted, .registered, .begun, .ended ending, .released, .reported]
        ⟨none, some .accepted, 0, 1, isPresent⟩
  | exited (ending : Ending) : Accords (wholeLife ending) ⟨none, some .accepted, 0, 0, false⟩

/-- What one step can do for one client, as long as there is a hub. -/
inductive Proceeds : Standing → List Milestone → Standing → Prop where
  /-- It may be reclaimed on account of its ways alone. -/
  | stay {stage? : Option Stage} {registration? : Option Registration} {requests exits : Nat}
      {isPresent isPresent' : Bool} (hpresent : isPresent' = true → isPresent = true) :
      Proceeds ⟨stage?, registration?, requests, exits, isPresent⟩ []
        ⟨stage?, registration?, requests, exits, isPresent'⟩
  | accept {requests exits : Nat} {isPresent : Bool} :
      Proceeds ⟨none, none, requests, exits, isPresent⟩ [.admitted]
        ⟨some .accepted, some .pending, requests, exits, isPresent⟩
  | announce {registration? : Option Registration} {requests exits : Nat} {isPresent : Bool} :
      Proceeds ⟨some .accepted, registration?, requests, exits, isPresent⟩ []
        ⟨some .announced, registration?, requests + 1, exits, isPresent⟩
  | register {stage? : Option Stage} {registration? : Option Registration} {requests exits : Nat}
      {isPresent : Bool} :
      Proceeds ⟨stage?, registration?, requests + 1, exits, isPresent⟩ [.registered]
        ⟨stage?, some .accepted, requests, exits, true⟩
  | refuse {stage? : Option Stage} {registration? : Option Registration} {requests exits : Nat}
      {isPresent : Bool} :
      Proceeds ⟨stage?, registration?, requests + 1, exits, isPresent⟩ []
        ⟨stage?, some .refused, requests, exits, isPresent⟩
  | dismiss {requests exits : Nat} {isPresent : Bool} :
      Proceeds ⟨some .announced, some .refused, requests, exits, isPresent⟩ []
        ⟨none, some .refused, requests, exits, isPresent⟩
  | begin {requests exits : Nat} {isPresent : Bool} :
      Proceeds ⟨some .announced, some .accepted, requests, exits, isPresent⟩ [.begun]
        ⟨some .working, some .accepted, requests, exits, isPresent⟩
  | finish {registration? : Option Registration} {requests exits : Nat} {isPresent : Bool}
      (ending : Ending) :
      Proceeds ⟨some .working, registration?, requests, exits, isPresent⟩ [.ended ending]
        ⟨some .ended, registration?, requests, exits, isPresent⟩
  | release {registration? : Option Registration} {requests exits : Nat} {isPresent : Bool} :
      Proceeds ⟨some .ended, registration?, requests, exits, isPresent⟩ [.released]
        ⟨some .unreported, registration?, requests, exits, isPresent⟩
  | report {registration? : Option Registration} {requests exits : Nat} {isPresent : Bool} :
      Proceeds ⟨some .unreported, registration?, requests, exits, isPresent⟩ [.reported]
        ⟨none, registration?, requests, exits + 1, isPresent⟩
  | exit {stage? : Option Stage} {registration? : Option Registration} {requests exits : Nat}
      {isPresent : Bool} :
      Proceeds ⟨stage?, registration?, requests, exits + 1, isPresent⟩ [.exited]
        ⟨stage?, registration?, requests, exits, false⟩

variable {life more : List Milestone} {standing standing' : Standing} {stage? : Option Stage}
  {registration? : Option Registration} {requests exits : Nat} {isPresent isPresent' : Bool}

theorem Accords.stay (h : Accords life ⟨stage?, registration?, requests, exits, isPresent⟩)
    (hpresent : isPresent' = true → isPresent = true) :
    Accords life ⟨stage?, registration?, requests, exits, isPresent'⟩ := by
  cases isPresent' with
  | false =>
    cases h with
    | unknown => exact .unknown
    | accepted => exact .accepted
    | announced => exact .announced
    | refused => exact .refused
    | dismissed => exact .dismissed
    | registered => exact .registered false
    | working => exact .working false
    | ended ending => exact .ended ending false
    | released ending => exact .released ending false
    | reported ending => exact .reported ending false
    | exited ending => exact .exited ending
  | true =>
    rw [hpresent rfl] at h
    exact h

theorem Accords.proceed (h : Accords life standing) (hmore : Proceeds standing more standing') :
    Accords (life ++ more) standing' := by
  cases hmore with
  | stay hpresent =>
    rw [List.append_nil]
    exact h.stay hpresent
  | accept => cases h with
    | unknown => exact .accepted
  | announce => cases h with
    | accepted => exact .announced
  | register => cases h with
    | announced => exact .registered true
  | refuse => cases h with
    | announced => exact .refused
  | dismiss => cases h with
    | refused => exact .dismissed
  | begin => cases h with
    | registered => exact .working _
  | finish ending => cases h with
    | working => exact .ended ending _
  | release => cases h with
    | ended ending => exact .released ending _
  | report => cases h with
    | released ending => exact .reported ending _
  | exit => cases h with
    | reported ending => exact .exited ending

/-- Everything in the life of a connection happens once at most, and in this order. -/
theorem Accords.isPrefix (h : Accords life standing) : ∃ ending, life <+: wholeLife ending := by
  cases h with
  | unknown => exact ⟨.clean, List.nil_prefix⟩
  | accepted | announced | refused | dismissed => exact ⟨.clean, _, rfl⟩
  | registered | working => exact ⟨.clean, _, rfl⟩
  | ended ending | released ending | reported ending => exact ⟨ending, _, rfl⟩
  | exited ending => exact ⟨ending, [], rfl⟩

/-- A worker that has ended is reported once, unless whoever watches over it has yet to do so. -/
theorem Accords.of_ended (h : Accords life standing) {ending : Ending} (hended : .ended ending ∈ life) :
    life.count .reported = 1 ∨
      standing.stage? = some .ended ∨ standing.stage? = some .unreported := by
  cases h with
  | ended => exact Or.inr (Or.inl rfl)
  | released => exact Or.inr (Or.inr rfl)
  | reported | exited => exact Or.inl rfl
  | _ => simp at hended

theorem Accords.count_reported (h : Accords life standing) :
    life.count .reported = standing.exits + life.count .exited := by
  cases h <;> rfl

/-- Whoever is present has a worker that is about to start, or has not ended, or is yet to be told of. -/
theorem Accords.of_present (h : Accords life standing) (hpresent : standing.isPresent = true) :
    (standing.stage? = some .announced ∨ standing.stage? = some .working) ∨
      standing.stage? = some .ended ∨ standing.stage? = some .unreported ∨ 0 < standing.exits := by
  cases h with
  | registered => exact Or.inl (Or.inl rfl)
  | working => exact Or.inl (Or.inr rfl)
  | ended => exact Or.inr (Or.inl rfl)
  | released => exact Or.inr (Or.inr (Or.inl rfl))
  | reported => exact Or.inr (Or.inr (Or.inr Nat.one_pos))
  | _ => cases hpresent

theorem Accords.of_exit (h : Accords life standing) (hmore : Proceeds standing more standing')
    (hexit : .exited ∈ more) : standing.registration? = some .accepted := by
  cases hmore with
  | exit => cases h with
    | reported => rfl
  | _ => simp at hexit

theorem Accords.of_accepted (h : Accords life standing) (hstage : standing.stage? = some .accepted) :
    standing.registration? = some .pending ∧ standing.requests = 0 := by
  cases h with
  | accepted => exact ⟨rfl, rfl⟩
  | _ => cases hstage

end Standing

/-- What an event that is not about a newcomer leaves as it is, and who goes on account of it. -/
theorem Exchange.handle_of_ne {exchange : Exchange} {event : Event} (hintact : exchange.hub.directory.Intact)
    (hevent : ∀ id peer, event ≠ .register id peer) :
    (exchange.handle [event]).registrations = exchange.registrations ∧
      (exchange.handle [event]).orders = exchange.orders ∧
      ∀ id, id ∈ (exchange.handle [event]).hub.directory.occupants ↔
        id ∈ exchange.hub.directory.occupants ∧ event ≠ .closed id ∧ event ≠ .exited id := by
  obtain ⟨hub, effects, hok⟩ := Hub.exists_handle_of_ne hintact hevent
  rcases handle_eq exchange event with ⟨hub', effects', outboxes, hhandle, heq⟩ | ⟨defect, herror, -⟩
  · rw [heq]
    refine ⟨rfl, rfl, fun id => ?_⟩
    rw [(Hub.steps_of_handle hhandle).mem_occupants_iff hintact, or_iff_right]
    rintro ⟨peer, hregister⟩
    exact hevent id peer hregister
  · cases hok.symm.trans herror

theorem Activity.exitsOf_conclude (id : ClientId) (batch : List Envelope) (leaver : Option ClientId) :
    (handling (batch.map Envelope.event ++ leaver.toList.map Event.exited)).exitsOf id =
      leaver.toList.count id := by
  have hbatch : (batch.map Envelope.event).count (.exited id) = 0 := by
    rw [List.count_eq_zero]
    intro hmem
    obtain ⟨⟨other, report⟩, -, hreport⟩ := List.mem_map.1 hmem
    cases report <;> cases hreport
  rw [exitsOf, List.count_append, hbatch, Nat.zero_add]
  cases leaver with
  | none => rfl
  | some other => simp [List.count_cons]

theorem Happening.milestones_eq_nil {hub : Hub} {event : Event} {id : ClientId}
    (hregister : ∀ peer, event ≠ .register id peer) (hexit : event ≠ .exited id) :
    [handled hub event].filterMap (·.milestone? id) = [] := by
  rw [List.filterMap_eq_nil_iff]
  intro happening hmem
  obtain rfl := List.mem_singleton.1 hmem
  cases event with
  | register other peer => exact if_neg fun hid => hregister peer (by rw [hid])
  | exited other => exact if_neg fun hid => hexit (by rw [hid])
  | line | closed | shutdown => rfl

namespace Floor

variable {settings : Settings} {floor floor' : Floor} {trace happenings : List Happening}
  {choice : Choice} {id : ClientId} {stage? : Option Stage} {order : Order} {orders : List Order}

theorem proceeds_stay
    (hregistration : floor'.exchange.registrations[id]? = floor.exchange.registrations[id]?)
    (hrequests : floor'.requestsOf id = floor.requestsOf id)
    (hexits : floor'.exitsOf id = floor.exitsOf id)
    (hpresent : id ∈ floor'.exchange.hub.directory.occupants →
      id ∈ floor.exchange.hub.directory.occupants) :
    Standing.Proceeds (floor.standing id stage?) [] (floor'.standing id stage?) := by
  rw [standing, standing, hregistration, hrequests, hexits]
  refine .stay ?_
  rw [ExtTreeMap.contains_iff_mem, ExtTreeMap.contains_iff_mem]
  exact hpresent

theorem requestsOf_post (floor : Floor) (order : Order) (id : ClientId) :
    requestsOf { floor with exchange :=
        { floor.exchange with orders := floor.exchange.orders ++ [order] } } id =
      floor.requestsOf id + if order.newcomer? = some id then 1 else 0 := by
  simp [requestsOf, List.countP_cons]

theorem exitsOf_post (floor : Floor) (order : Order) (id : ClientId) :
    exitsOf { floor with exchange :=
        { floor.exchange with orders := floor.exchange.orders ++ [order] } } id =
      floor.exitsOf id + if order = .exited id then 1 else 0 := by
  simp [exitsOf, List.count_cons]
  omega

theorem proceeds_handle (hsound : Sound settings trace floor) {event : Event} {events : List Event}
    (hactivity : floor.activity = .handling (event :: events)) :
    Standing.Proceeds (floor.standing id stage?)
      ([Happening.handled floor.exchange.hub event].filterMap (·.milestone? id))
      (standing { floor with
        exchange := floor.exchange.handle [event], activity := .handling events } id stage?) := by
  have hevent : ∀ id peer, event ≠ .register id peer := by
    have hevents := hsound.events event
    rw [hactivity] at hevents
    exact hevents List.mem_cons_self
  obtain ⟨hregistrations, horders, hoccupants⟩ :=
    Exchange.handle_of_ne hsound.exchange.reachable.intact hevent
  by_cases hleaves : event = .exited id
  · subst hleaves
    have hgone : (floor.exchange.handle [.exited id]).hub.directory.occupants.contains id = false := by
      rw [← Bool.not_eq_true, ExtTreeMap.contains_iff_mem, hoccupants]
      exact fun h => h.2.2 rfl
    have hexits : floor.exitsOf id = exitsOf { floor with
        exchange := floor.exchange.handle [.exited id], activity := .handling events } id + 1 := by
      rw [exitsOf, exitsOf, hactivity, horders, Activity.exitsOf, List.count_cons_self]
      rfl
    have hmilestones : [Happening.handled floor.exchange.hub (.exited id)].filterMap
        (·.milestone? id) = [.exited] := by simp [Happening.milestone?]
    rw [hmilestones, standing, standing, requestsOf, requestsOf, hregistrations, horders, hgone, hexits]
    exact .exit
  · rw [Happening.milestones_eq_nil (hevent id) hleaves]
    refine proceeds_stay (by rw [hregistrations]) (by rw [requestsOf, requestsOf, horders]) ?_
      fun h => ((hoccupants id).1 h).1
    rw [exitsOf, exitsOf, horders, hactivity, Activity.exitsOf, Activity.exitsOf,
      List.count_cons_of_ne hleaves]

theorem proceeds_beginClosing (hsound : floor.exchange.Sound settings) :
    Standing.Proceeds (floor.standing id stage?)
      ([Happening.handled floor.exchange.hub .shutdown].filterMap (·.milestone? id))
      (standing { floor with exchange := floor.exchange.beginClosing } id stage?) := by
  have hshutdown (id : ClientId) (peer : Option SocketAddress) : Event.shutdown ≠ .register id peer := by
    simp
  obtain ⟨hregistrations, horders, hoccupants⟩ :=
    Exchange.handle_of_ne hsound.reachable.intact hshutdown
  rw [Happening.milestones_eq_nil (by simp) (by simp)]
  refine proceeds_stay ?_ ?_ ?_ fun h => ((hoccupants id).1 h).1
  · exact congrArg (·[id]?) hregistrations
  · exact congrArg (List.countP _) horders
  · exact congrArg (fun orders => List.count (Order.exited id) orders + floor.activity.exitsOf id) horders

theorem requestsOf_register {other : ClientId} {peer : Option SocketAddress}
    (horders : floor.exchange.orders = .register other peer :: orders) (id : ClientId) :
    floor.requestsOf id = orders.countP (·.newcomer? = some id) + if other = id then 1 else 0 := by
  rw [requestsOf, horders, List.countP_cons]
  simp [Order.newcomer?]

theorem exitsOf_cons (horders : floor.exchange.orders = order :: orders)
    (hstays : ∀ id, order ≠ .exited id) (id : ClientId) :
    floor.exitsOf id = orders.count (.exited id) + floor.activity.exitsOf id := by
  rw [exitsOf, horders, List.count_cons_of_ne (hstays id)]

theorem proceeds_welcome (hsound : floor.exchange.Sound settings) {other : ClientId}
    {peer : Option SocketAddress} {hub : Hub} {effects : List Effect} {intake : Intake}
    {outboxes : ExtTreeMap ClientId Outbox}
    (horders : floor.exchange.orders = .register other peer :: orders)
    (hhandle : floor.exchange.hub.handle (.register other peer) = .ok (hub, effects)) :
    Standing.Proceeds (floor.standing id stage?)
      ([Happening.handled floor.exchange.hub (.register other peer)].filterMap (·.milestone? id))
      (standing { floor with exchange := { floor.exchange with
        orders, hub, intake, outboxes
        registrations := floor.exchange.registrations.insert other .accepted } } id stage?) := by
  have hrequests := requestsOf_register horders id
  have hexits := exitsOf_cons horders (by simp) id
  have hoccupants : id ∈ hub.directory.occupants ↔
      (∃ address, Event.register other peer = .register id address) ∨
        id ∈ floor.exchange.hub.directory.occupants ∧
          Event.register other peer ≠ .closed id ∧ Event.register other peer ≠ .exited id :=
    (Hub.steps_of_handle hhandle).mem_occupants_iff hsound.reachable.intact
  by_cases hid : other = id
  · subst hid
    have hmilestones : [Happening.handled floor.exchange.hub (.register other peer)].filterMap
        (·.milestone? other) = [.registered] := by simp [Happening.milestone?]
    have hpresent : hub.directory.occupants.contains other = true :=
      ExtTreeMap.contains_iff_mem.2 (hoccupants.2 (Or.inl ⟨peer, rfl⟩))
    rw [if_pos rfl] at hrequests
    rw [hmilestones, standing, hrequests, hexits]
    show Standing.Proceeds _ _ ⟨stage?,
      (floor.exchange.registrations.insert other .accepted)[other]?, _, _,
      hub.directory.occupants.contains other⟩
    rw [ExtTreeMap.getElem?_insert_self, hpresent]
    exact .register
  · rw [if_neg hid] at hrequests
    rw [Happening.milestones_eq_nil (by simp [hid]) (by simp)]
    refine proceeds_stay (Maps.getElem?_insert_of_ne hid) hrequests.symm hexits.symm fun h => ?_
    refine (hoccupants.1 h).elim ?_ And.left
    rintro ⟨address, hevent⟩
    exact absurd (Event.register.inj hevent).1 hid

theorem proceeds_refuse {other : ClientId} {peer : Option SocketAddress}
    (horders : floor.exchange.orders = .register other peer :: orders) :
    Standing.Proceeds (floor.standing id stage?) []
      (standing { floor with exchange := { floor.exchange with orders }.refuse other } id stage?) := by
  have hrequests := requestsOf_register horders id
  have hexits := exitsOf_cons horders (by simp) id
  by_cases hid : other = id
  · subst hid
    rw [if_pos rfl] at hrequests
    rw [standing, hrequests, hexits]
    show Standing.Proceeds _ [] ⟨stage?, (floor.exchange.registrations.insert other .refused)[other]?,
      _, _, _⟩
    rw [ExtTreeMap.getElem?_insert_self]
    exact .refuse
  · rw [if_neg hid] at hrequests
    exact proceeds_stay (Maps.getElem?_insert_of_ne hid) hrequests.symm hexits.symm fun h => h

/-- What becomes of one client when the hub takes the next order, other than an exit. -/
theorem proceeds_order {exchange : Exchange} (hsound : floor.exchange.Sound settings)
    (horders : floor.exchange.orders = order :: orders) (hopen : exchange.isOpen = true)
    (hobeys : Exchange.Obeys { floor.exchange with orders } order happenings exchange) :
    Standing.Proceeds (floor.standing id stage?) (happenings.filterMap (·.milestone? id))
      (standing { floor with exchange } id stage?) := by
  have hsame (hshutdown : order = .shutdown) : floor.standing id stage? =
      standing { floor with exchange := { floor.exchange with orders } } id stage? := by
    subst hshutdown
    rw [standing, exitsOf_cons horders (by simp), requestsOf, horders, List.countP_cons]
    rfl
  cases hobeys with
  | registered hhandle _ => exact proceeds_welcome hsound horders hhandle
  | failed => cases hopen
  | refused => exact proceeds_refuse horders
  | closing =>
    rw [hsame rfl]
    refine proceeds_beginClosing (hsound.of_same rfl rfl ?_)
    rw [horders]
    exact List.sublist_cons_self _ _
  | ignored =>
    rw [hsame rfl]
    exact proceeds_stay rfl rfl rfl fun h => h

/-- What becomes of one client when something happens on the floor, as long as there is a hub. -/
theorem proceeds_of_choose (hsound : Sound settings trace floor) (hchoice : choice.isOfService = false)
    (hchoose : floor.choose choice = some (happenings, floor'))
    (hopen : floor'.exchange.isOpen = true) :
    Standing.Proceeds (floor.standing id stage?) (happenings.filterMap (·.milestone? id))
      (floor'.standing id stage?) := by
  cases choice <;> simp only [choose, Option.bind_eq_bind, Option.bind_eq_some_iff, guard_eq_some,
    exists_const, Option.pure_def, Option.some.injEq, Prod.mk.injEq, Prod.exists,
    uncons?_eq_some] at hchoose
  case connect => cases hchoice
  case giveUp => cases hchoice
  case post order =>
    obtain ⟨-, exchange, hpost, rfl, rfl⟩ := hchoose
    obtain rfl := Exchange.eq_of_post (Posting.accepted?_eq_some.1 hpost)
    cases order with
    -- Both are posts of the service, made through `Premises.Step` instead.
    | register | exited => cases hchoice
    | shutdown =>
      refine proceeds_stay rfl ?_ ?_ fun h => h
      · exact requestsOf_post floor .shutdown id
      · exact exitsOf_post floor .shutdown id
  case write =>
    obtain ⟨-, -, intake, -, rfl, rfl⟩ := hchoose
    exact proceeds_stay rfl rfl rfl fun h => h
  case letGo =>
    obtain ⟨-, -, intake, -, rfl, rfl⟩ := hchoose
    exact proceeds_stay rfl rfl rfl fun h => h
  case vanish =>
    obtain ⟨-, -, rfl, rfl⟩ := hchoose
    exact proceeds_stay rfl rfl rfl fun h => h
  case ring =>
    obtain ⟨-, rfl, rfl⟩ := hchoose
    exact proceeds_stay rfl rfl rfl fun h => h
  case take =>
    obtain ⟨-, -, outbox, line, -, rfl, rfl⟩ := hchoose
    exact proceeds_stay rfl rfl rfl fun h => h
  case stopReading =>
    obtain ⟨rfl, rfl⟩ := hchoose
    exact proceeds_stay rfl rfl rfl fun h => h
  case pass =>
    obtain ⟨rfl, rfl⟩ := hchoose
    exact proceeds_stay rfl rfl rfl fun h => h
  case dropHandles =>
    obtain ⟨rfl, rfl⟩ := hchoose
    exact proceeds_stay rfl rfl rfl fun h => h
  case order =>
    obtain ⟨-, -, order, orders, horders, hstays, rfl, rfl⟩ := hchoose
    exact proceeds_order hsound.exchange horders hopen
      (Exchange.obeys_takeOrder (Order.leaver?_eq_none.1 hstays))
  -- The exit moves from the head of the orders into the round it begins, so its count stays.
  case leave path =>
    obtain ⟨hfree, -, order, orders, horders, leaver, hleaver, round, -, rfl, rfl⟩ := hchoose
    obtain rfl := Order.leaver?_eq_some.1 hleaver
    refine proceeds_stay rfl ?_ ?_ fun h => h
    · rw [requestsOf, requestsOf, horders]
      rfl
    · rw [exitsOf, exitsOf, hfree, horders]
      simp [Activity.exitsOf, List.count_cons]
  case answer =>
    obtain ⟨hfree, -, -, round, -, rfl, rfl⟩ := hchoose
    refine proceeds_stay rfl rfl ?_ fun h => h
    rw [exitsOf, exitsOf, hfree]
    rfl
  case gather =>
    obtain ⟨round, leaver, hactivity, intake, round', -, rfl, rfl⟩ := hchoose
    refine proceeds_stay rfl rfl ?_ fun h => h
    rw [exitsOf, exitsOf, Activity.gathering?_eq_some.1 hactivity]
    rfl
  case conclude =>
    obtain ⟨round, leaver, hactivity, -, rfl, rfl⟩ := hchoose
    refine proceeds_stay rfl rfl ?_ fun h => h
    rw [exitsOf, exitsOf, Activity.gathering?_eq_some.1 hactivity, Activity.exitsOf_conclude]
    rfl
  case handle =>
    obtain ⟨event, events, hevents, -, rfl, rfl⟩ := hchoose
    exact proceeds_handle hsound (Activity.events_eq_cons.1 hevents)
  case close =>
    obtain ⟨-, -, -, -, rfl, rfl⟩ := hchoose
    exact proceeds_beginClosing hsound.exchange
  case stop =>
    obtain ⟨-, deadline, -, -, rfl, rfl⟩ := hchoose
    cases hopen

end Floor

end ChatRooms
