import ChatRooms.Proofs.Exchange.Bustle

namespace ChatRooms

open Std

namespace Exchange

variable {exchange exchange' : Exchange} {id other : ClientId} {event : Event}

/-- Whoever is known stays known, and whoever has been answered keeps the answer. -/
structure Upholds (id : ClientId) (exchange exchange' : Exchange) : Prop where
  known : exchange'.registrations[id]? = none → exchange.registrations[id]? = none
  answered {registration : Registration} : registration ≠ .pending →
    exchange.registrations[id]? = some registration → exchange'.registrations[id]? = some registration

namespace Upholds

theorem of_same (h : exchange'.registrations = exchange.registrations) :
    Upholds id exchange exchange' where
  known hnone := by rw [← h, hnone]
  answered _ hid := by rw [h, hid]

theorem trans {between : Exchange} (h : Upholds id exchange between)
    (h' : Upholds id between exchange') : Upholds id exchange exchange' where
  known hnone := h.known (h'.known hnone)
  answered hanswered hid := h'.answered hanswered (h.answered hanswered hid)

theorem insert {registration : Registration}
    (hopen : exchange.registrations[other]? = none ∨ exchange.registrations[other]? = some .pending)
    (h : exchange'.registrations = exchange.registrations.insert other registration) :
    Upholds id exchange exchange' := by
  by_cases hother : other = id
  · subst hother
    have hinserted : exchange'.registrations[other]? = some registration := by
      rw [h, ExtTreeMap.getElem?_insert_self]
    constructor
    · intro hnone
      cases hinserted.symm.trans hnone
    · intro found hfound hid
      rcases hopen with hnone | hpending
      · cases hnone.symm.trans hid
      · exact absurd (Option.some.inj (hid.symm.trans hpending)) hfound
  · have hsame : exchange'.registrations[id]? = exchange.registrations[id]? := by
      rw [h, Maps.getElem?_insert_of_ne hother]
    exact ⟨fun hnone => hsame ▸ hnone, fun _ hid => hsame.trans hid⟩

theorem halt {phase : Phase} (h : exchange'.registrations = (exchange.halt phase).registrations) :
    Upholds id exchange exchange' where
  known hnone := by
    rw [h, getElem?_registrations_halt, Option.map_eq_none_iff] at hnone
    exact hnone
  answered hanswered hid := by
    rw [h, getElem?_registrations_halt, hid, Option.map_some, if_neg hanswered]

end Upholds

theorem accepted_insert {registration : Registration} (hregistration : registration ≠ .accepted)
    (h : exchange'.registrations = exchange.registrations.insert other registration)
    (haccepted : exchange'.registrations[id]? = some .accepted) :
    exchange.registrations[id]? = some .accepted := by
  rw [h, ExtTreeMap.getElem?_insert] at haccepted
  split at haccepted
  next => exact absurd (Option.some.inj haccepted) hregistration
  next => exact haccepted

end Exchange

namespace Floor

/-- What comes of a step. Only when an event is handled does the hub change. -/
inductive Upshot (id : ClientId) (floor : Floor) : List Happening → Floor → Prop where
  | quiet {happenings : List Happening} {floor' : Floor}
      (hnothing : ∀ hub event, .handled hub event ∉ happenings)
      (hhub : floor'.exchange.hub = floor.exchange.hub)
      (hupholds : floor.exchange.Upholds id floor'.exchange)
      (haccepted : floor'.exchange.registrations[id]? = some .accepted →
        floor.exchange.registrations[id]? = some .accepted) : Upshot id floor happenings floor'
  | handled {event : Event} {hub : Hub} {effects : List Effect} {floor' : Floor}
      (hhandle : floor.exchange.hub.handle event = .ok (hub, effects))
      (hhub : floor'.exchange.hub = hub) (hupholds : floor.exchange.Upholds id floor'.exchange)
      (haccepted : floor'.exchange.registrations[id]? = some .accepted ↔
        floor.exchange.registrations[id]? = some .accepted ∨ ∃ peer, event = .register id peer) :
      Upshot id floor [.handled floor.exchange.hub event] floor'
  | failed {event : Event} {defect : Defect} {floor' : Floor}
      (hfailed : floor.exchange.hub.handle event = .error defect)
      (hhub : floor'.exchange.hub = floor.exchange.hub)
      (hupholds : floor.exchange.Upholds id floor'.exchange)
      (haccepted : floor'.exchange.registrations[id]? = some .accepted →
        floor.exchange.registrations[id]? = some .accepted) :
      Upshot id floor [.handled floor.exchange.hub event] floor'

variable {settings : Settings} {id : ClientId} {trace happenings : List Happening}
  {floor floor' : Floor} {exchange : Exchange} {event : Event}

namespace Upshot

theorem upholds (h : Upshot id floor happenings floor') :
    floor.exchange.Upholds id floor'.exchange := by
  cases h with
  | quiet _ _ hupholds => exact hupholds
  | handled _ _ hupholds => exact hupholds
  | failed _ _ hupholds => exact hupholds

theorem eq_of_handled {hub : Hub} (h : Upshot id floor happenings floor')
    (hmem : .handled hub event ∈ happenings) :
    hub = floor.exchange.hub ∧ happenings = [.handled hub event] := by
  cases h with
  | quiet hnothing => exact absurd hmem (hnothing hub event)
  | handled | failed =>
    obtain ⟨rfl, rfl⟩ := Happening.handled.inj (List.mem_singleton.1 hmem)
    exact ⟨rfl, rfl⟩

theorem of_split {before after : List Happening} {hub : Hub} (h : Upshot id floor happenings floor')
    (htrace : trace ++ happenings = before ++ .handled hub event :: after) :
    (∃ more, trace = before ++ .handled hub event :: more) ∨
      (before = trace ∧ hub = floor.exchange.hub ∧ happenings = [.handled hub event]) := by
  have now (hmem : .handled hub event ∈ happenings) := h.eq_of_handled hmem
  rcases List.append_eq_append_iff.1 htrace with ⟨more, rfl, hnow⟩ | ⟨_ | ⟨first, more⟩, rfl, hmore⟩
  · obtain ⟨hhub, heq⟩ := now (by simp [hnow])
    rw [heq, eq_comm, List.append_eq_singleton_iff] at hnow
    rcases hnow with ⟨rfl, -⟩ | ⟨-, hnil⟩
    · exact Or.inr ⟨List.append_nil trace, hhub, heq⟩
    · cases hnil
  · rw [List.nil_append] at hmore
    rw [List.append_nil]
    exact Or.inr ⟨rfl, now (hmore ▸ List.mem_cons_self)⟩
  · left
    obtain ⟨rfl, -⟩ := List.cons.inj hmore
    exact ⟨more, rfl⟩

theorem of_same (hnothing : ∀ hub event, .handled hub event ∉ happenings)
    (hhub : floor'.exchange.hub = floor.exchange.hub)
    (hregistrations : floor'.exchange.registrations = floor.exchange.registrations) :
    Upshot id floor happenings floor' :=
  .quiet hnothing hhub (.of_same hregistrations) fun h => hregistrations ▸ h

theorem refuse {other : ClientId} (orders : List Order)
    (hpending : floor.exchange.registrations[other]? = some .pending)
    (hafter : floor'.exchange = { floor.exchange with orders }.refuse other) :
    Upshot id floor [] floor' := by
  have hinsert : floor'.exchange.registrations = floor.exchange.registrations.insert other .refused := by
    rw [hafter]
    rfl
  exact .quiet (by simp) (by rw [hafter]; rfl) (.insert (Or.inr hpending) hinsert)
    (Exchange.accepted_insert (by simp) hinsert)

theorem halt {defect : Defect} (orders : List Order)
    (hfailed : floor.exchange.hub.handle event = .error defect)
    (hhub : floor'.exchange.hub = floor.exchange.hub)
    (hregistrations : floor'.exchange.registrations =
      ({ floor.exchange with orders }.halt (.failed defect)).registrations) :
    Upshot id floor [.handled floor.exchange.hub event] floor' := by
  refine .failed hfailed hhub (.halt hregistrations) ?_
  rw [hregistrations, Exchange.registrations_halt_eq_accepted]
  exact fun h => h

theorem handle (orders : List Order) (hevent : ∀ peer, event ≠ .register id peer)
    (hhub : floor'.exchange.hub = ({ floor.exchange with orders }.handle [event]).hub)
    (hregistrations : floor'.exchange.registrations =
      ({ floor.exchange with orders }.handle [event]).registrations) :
    Upshot id floor [.handled floor.exchange.hub event] floor' := by
  rcases Exchange.handle_eq { floor.exchange with orders } event with
    ⟨hub, effects, outboxes, hhandle, heq⟩ | ⟨defect, hfailed, heq⟩
  · rw [heq] at hhub hregistrations
    refine .handled hhandle hhub (.of_same hregistrations) ?_
    rw [hregistrations, or_iff_left]
    rintro ⟨peer, hregister⟩
    exact hevent peer hregister
  · rw [heq] at hhub hregistrations
    exact .halt orders hfailed hhub hregistrations

theorem order {order : Order} {orders : List Order} (hsound : floor.exchange.Sound settings)
    (horders : floor.exchange.orders = order :: orders)
    (hobeys : Exchange.Obeys { floor.exchange with orders } order happenings exchange) :
    Upshot id floor happenings { floor with exchange } := by
  have hpending {other : ClientId} {peer : Option SocketAddress}
      (hregister : order = .register other peer) :
      floor.exchange.registrations[other]? = some .pending :=
    hsound.pending (by rw [horders, hregister]; exact List.mem_cons_self)
  cases hobeys with
  | @registered other peer hub effects outboxes hhandle _ =>
    refine .handled hhandle rfl (.insert (Or.inr (hpending rfl)) rfl) ?_
    dsimp only
    rw [ExtTreeMap.getElem?_insert]
    split
    next h =>
      obtain rfl := Std.compare_eq_iff_eq.1 h
      exact ⟨fun _ => Or.inr ⟨peer, rfl⟩, fun _ => rfl⟩
    next h =>
      rw [or_iff_left]
      rintro ⟨_, hregister⟩
      exact h (Std.compare_eq_iff_eq.2 (Event.register.inj hregister).1)
  | failed hfailed => exact .halt orders hfailed rfl rfl
  | refused => exact .refuse orders (hpending rfl) rfl
  | closing => exact .handle orders (by simp) rfl rfl
  | ignored => exact .of_same (by simp) rfl rfl

end Upshot

/-- What one step does, said once for the records that are kept of a run. -/
theorem Stir.upshot (hstir : Stir floor happenings floor') (hsound : Sound settings trace floor)
    (id : ClientId) : Upshot id floor happenings floor' := by
  cases hstir with
  | write => exact .of_same (by simp) rfl rfl
  | report hpost =>
    obtain rfl := Exchange.eq_of_post hpost
    exact .of_same (by simp) rfl rfl
  | step hstep =>
    cases hstep with
    | connect hnew =>
      exact .quiet (by simp) rfl (.insert (Or.inl hnew) rfl)
        (Exchange.accepted_insert (by simp) rfl)
    | post _ hpost =>
      obtain rfl := Exchange.eq_of_post hpost
      exact .of_same (by simp) rfl rfl
    | giveUp hpending _ => exact .refuse floor.exchange.orders hpending rfl
    | write | letGo | vanish | ring | take | stopReading | pass | dropHandles | leave | answer | gather
      | conclude => exact .of_same (by simp) rfl rfl
    | order _ _ horders hstays =>
      exact .order hsound.exchange horders (Exchange.obeys_takeOrder hstays)
    | @handle event events hactivity _ =>
      refine .handle floor.exchange.orders (fun peer => ?_) rfl rfl
      have hevents := hsound.events event
      rw [hactivity] at hevents
      exact hevents List.mem_cons_self id peer
    | close => exact .handle floor.exchange.orders (by simp) rfl rfl
    | stop =>
      exact .quiet (by simp) rfl (.halt rfl) Exchange.registrations_halt_eq_accepted.1

end Floor

end ChatRooms
