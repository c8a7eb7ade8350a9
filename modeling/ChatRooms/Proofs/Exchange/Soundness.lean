import ChatRooms.Proofs.Exchange.Floor
import ChatRooms.Proofs.Exchange.Modes

namespace ChatRooms

open Std

def Order.newcomer? : Order → Option ClientId
  | register id _ => some id
  | exited _ | shutdown => none

/-- What the hub has left to handle. -/
def Activity.events : Activity → List Event
  | handling events => events
  | gathering _ _ => []

namespace Exchange

variable {exchange exchange' : Exchange} {id : ClientId} {event : Event} {order : Order}
  {orders : List Order} {peer : Option SocketAddress} {settings : Settings}

theorem exists_of_new (h : new settings = .ok exchange) :
    ∃ room, settings.defaultRoomName = .ok room ∧ exchange = {
      hub := .start settings room
      intake := .atRest settings.readiness settings.channelCapacity
        (Directory.new room settings.maxRooms)
      orderCapacity := settings.channelCapacity
      patience := settings.shutdownTimeoutMs } := by
  have hnew : new { settings with readiness := settings.readiness } = .ok exchange := h
  rw [new_eq] at hnew
  split at hnew
  next => cases hnew
  next => cases hnew
  next room _ hname _ => exact ⟨room, hname, (Except.ok.inj hnew).symm⟩

theorem handle_eq (exchange : Exchange) (event : Event) :
    (∃ hub effects outboxes, exchange.hub.handle event = .ok (hub, effects) ∧
      exchange.handle [event] = { exchange with
        hub, outboxes, intake := effects.foldl Intake.absorb exchange.intake }) ∨
    ∃ defect, exchange.hub.handle event = .error defect ∧
      exchange.handle [event] = exchange.halt (.failed defect) := by
  rcases handle_event exchange event with
    ⟨hub, effects, outboxes, hhandle, heq⟩ | ⟨defect, herror, heq⟩
  · exact Or.inl ⟨hub, effects, outboxes, hhandle, heq exchange.intake⟩
  · exact Or.inr ⟨defect, herror, heq exchange.intake⟩

/-- When the hub is gone, it cannot accept anybody any more, nor take it back. -/
theorem getElem?_registrations_halt (phase : Phase) :
    (exchange.halt phase).registrations[id]? =
      exchange.registrations[id]?.map fun registration =>
        if registration = .pending then .refused else registration := by
  rw [halt, ExtTreeMap.getElem?_map]

theorem registrations_halt_eq_accepted {phase : Phase} :
    (exchange.halt phase).registrations[id]? = some .accepted ↔
      exchange.registrations[id]? = some .accepted := by
  rw [getElem?_registrations_halt]
  cases exchange.registrations[id]? with
  | none => simp
  | some registration => cases registration <;> simp

theorem eq_of_post (h : exchange.post order = .accepted exchange') :
    exchange' = { exchange with orders := exchange.orders ++ [order] } := by
  unfold post at h
  split at h
  next => cases h
  next =>
    split at h
    next => cases h
    next => exact (Posting.accepted.inj h).symm

/-- What is behind the hub's being given only what it admits: a newcomer is announced at most once, and
not accepted before. -/
structure Sound (settings : Settings) (exchange : Exchange) : Prop where
  reachable : Hub.Reachable settings exchange.hub
  accepted {id : ClientId} :
    id ∈ exchange.hub.directory.occupants → exchange.registrations[id]? = some .accepted
  pending {id : ClientId} {peer : Option SocketAddress} :
    .register id peer ∈ exchange.orders → exchange.registrations[id]? = some .pending
  distinct : (exchange.orders.filterMap Order.newcomer?).Nodup

namespace Sound

theorem of_new (h : new settings = .ok exchange) : exchange.Sound settings := by
  obtain ⟨room, hname, rfl⟩ := exists_of_new h
  exact ⟨.start hname, fun hid => absurd hid ExtTreeMap.not_mem_empty,
    fun hmem => absurd hmem List.not_mem_nil, List.nodup_nil⟩

theorem of_same (h : exchange.Sound settings) (hhub : exchange'.hub = exchange.hub)
    (hregistrations : exchange'.registrations = exchange.registrations)
    (horders : exchange'.orders.Sublist exchange.orders) : exchange'.Sound settings := by
  refine ⟨hhub ▸ h.reachable, ?_, ?_, h.distinct.sublist (horders.filterMap _)⟩
  · rw [hhub, hregistrations]
    exact h.accepted
  · intro id peer hmem
    rw [hregistrations]
    exact h.pending (horders.subset hmem)

/-- What becomes of newcomers who are not waiting in line does not matter. -/
theorem insert_registration (h : exchange.Sound settings) {registration : Registration}
    (hid : id ∈ exchange.hub.directory.occupants → registration = .accepted)
    (hunasked : ∀ peer, .register id peer ∉ exchange.orders)
    (hhub : exchange'.hub = exchange.hub) (horders : exchange'.orders = exchange.orders)
    (hregistrations : exchange'.registrations = exchange.registrations.insert id registration) :
    exchange'.Sound settings := by
  refine ⟨hhub ▸ h.reachable, ?_, ?_, horders ▸ h.distinct⟩
  · intro other hother
    rw [hhub] at hother
    rw [hregistrations, ExtTreeMap.getElem?_insert]
    split
    next heq =>
      obtain rfl := Std.compare_eq_iff_eq.1 heq
      rw [hid hother]
    next => exact h.accepted hother
  · intro other peer hmem
    rw [horders] at hmem
    have hne : id ≠ other := by
      rintro rfl
      exact hunasked peer hmem
    rw [hregistrations, Maps.getElem?_insert_of_ne hne]
    exact h.pending hmem

theorem connect (h : exchange.Sound settings) (hnew : exchange.registrations[id]? = none)
    (outbox : Outbox) : (exchange.connect id outbox).Sound settings := by
  refine h.insert_registration ?_ ?_ rfl rfl rfl
  · intro hid
    rw [h.accepted hid] at hnew
    cases hnew
  · intro peer hmem
    rw [h.pending hmem] at hnew
    cases hnew

theorem not_mem_of_pending (h : exchange.Sound settings)
    (hpending : exchange.registrations[id]? = some .pending) :
    id ∉ exchange.hub.directory.occupants := by
  intro hid
  rw [h.accepted hid] at hpending
  cases hpending

theorem refuse (h : exchange.Sound settings)
    (hpending : exchange.registrations[id]? = some .pending)
    (hunasked : ∀ peer, .register id peer ∉ exchange.orders) :
    (exchange.refuse id).Sound settings :=
  h.insert_registration (fun hid => absurd hid (h.not_mem_of_pending hpending)) hunasked rfl rfl rfl

theorem halt (h : exchange.Sound settings) (phase : Phase) : (exchange.halt phase).Sound settings where
  reachable := h.reachable
  accepted hid := registrations_halt_eq_accepted.2 (h.accepted hid)
  pending hmem := absurd hmem List.not_mem_nil
  distinct := List.nodup_nil

theorem post (h : exchange.Sound settings) (hpost : exchange.post order = .accepted exchange')
    (hgives : ∀ id peer, order = .register id peer → exchange.registrations[id]? = some .pending ∧
      ∀ peer, .register id peer ∉ exchange.orders) : exchange'.Sound settings := by
  obtain rfl := eq_of_post hpost
  refine ⟨h.reachable, h.accepted, ?_, ?_⟩
  · intro id peer hmem
    rcases List.mem_append.1 hmem with hmem | hmem
    · exact h.pending hmem
    · exact (hgives id peer (List.mem_singleton.1 hmem).symm).1
  · show ((exchange.orders ++ [order]).filterMap Order.newcomer?).Nodup
    rw [List.filterMap_append]
    cases order with
    | register id peer =>
      have hunasked := (hgives id peer rfl).2
      refine List.nodup_append.2 ⟨h.distinct, List.nodup_singleton id, ?_⟩
      intro other hother found hfound heq
      obtain rfl := List.mem_singleton.1 hfound
      obtain ⟨earlier, hmem, hnewcomer⟩ := List.mem_filterMap.1 hother
      cases earlier with
      | register first firstPeer =>
        obtain rfl := (Option.some.inj hnewcomer).trans heq
        exact hunasked firstPeer hmem
      | exited | shutdown => cases hnewcomer
    | exited | shutdown =>
      rw [show [_].filterMap Order.newcomer? = [] from rfl, List.append_nil]
      exact h.distinct

theorem handle (h : exchange.Sound settings) (hevent : ∀ id peer, event ≠ .register id peer) :
    (exchange.handle [event]).Sound settings := by
  have hadmits := exchange.hub.admits_of_ne hevent
  rcases handle_eq exchange event with ⟨hub, effects, outboxes, hhandle, heq⟩ | ⟨defect, -, heq⟩
  · rw [heq]
    refine ⟨h.reachable.step hadmits hhandle, ?_, h.pending, h.distinct⟩
    intro id hid
    rcases (Hub.steps_of_handle hhandle).mem_occupants h.reachable.intact hid with hid | ⟨peer, rfl⟩
    · exact h.accepted hid
    · exact absurd rfl (hevent id peer)
  · rw [heq]
    exact h.halt _

theorem register (h : exchange.Sound settings)
    (hpending : exchange.registrations[id]? = some .pending)
    (hunasked : ∀ peer, .register id peer ∉ exchange.orders) :
    (exchange.takeOrder (.register id peer)).Sound settings := by
  by_cases hphase : exchange.phase = .running
  · rw [takeOrder_register hphase]
    dsimp only
    rcases handle_eq exchange (.register id peer) with
      ⟨hub, effects, outboxes, hhandle, heq⟩ | ⟨defect, -, heq⟩
    · have hopen : (exchange.handle [.register id peer]).isOpen = true := by
        rw [heq, isOpen]
        dsimp only
        rw [hphase]
      have hadmits : exchange.hub.Admits (.register id peer) := h.not_mem_of_pending hpending
      rw [if_pos hopen, heq]
      refine ⟨h.reachable.step hadmits hhandle, ?_, ?_, h.distinct⟩
      · intro other hother
        show (exchange.registrations.insert id .accepted)[other]? = _
        rw [ExtTreeMap.getElem?_insert]
        split
        next => rfl
        next hne =>
          rcases (Hub.steps_of_handle hhandle).mem_occupants h.reachable.intact hother with
            hother | ⟨peer, hevent⟩
          · exact h.accepted hother
          · exact absurd (Std.compare_eq_iff_eq.2 (Event.register.inj hevent).1) hne
      · intro other peer' hmem
        have hne : id ≠ other := by
          rintro rfl
          exact hunasked peer' hmem
        show (exchange.registrations.insert id .accepted)[other]? = _
        rw [Maps.getElem?_insert_of_ne hne]
        exact h.pending hmem
    · rw [heq, if_neg (by simp [isOpen, Exchange.halt])]
      exact h.halt _
  · rw [takeOrder_register_of_ne hphase]
    exact h.refuse hpending hunasked

theorem beginClosing (h : exchange.Sound settings) : exchange.beginClosing.Sound settings :=
  (h.handle (by simp)).of_same rfl rfl (List.Sublist.refl _)

theorem takeOrder (h : exchange.Sound settings) (horders : exchange.orders = order :: orders)
    (hstays : ∀ id, order ≠ .exited id) :
    ({ exchange with orders }.takeOrder order).Sound settings := by
  have hdistinct := h.distinct
  rw [horders] at hdistinct
  have hrest : Sound settings { exchange with orders } :=
    h.of_same rfl rfl (by rw [horders]; exact List.sublist_cons_self _ _)
  cases order with
  | register id peer =>
    have hpending := h.pending (by rw [horders]; exact List.mem_cons_self)
    refine hrest.register hpending ?_
    intro peer' hmem
    -- There is one announcement of a newcomer, and it has just been taken.
    exact (List.nodup_cons.1 hdistinct).1 (List.mem_filterMap.2 ⟨_, hmem, rfl⟩)
  | exited id => exact absurd rfl (hstays id)
  | shutdown =>
    by_cases hphase : exchange.phase = .running
    · rw [takeOrder_shutdown (by exact hphase)]
      exact hrest.beginClosing
    · rw [takeOrder_shutdown_of_ne (by exact hphase)]
      exact hrest

theorem admits_of_mem_announced (h : exchange.Sound settings) (hmem : order ∈ exchange.orders)
    {hub : Hub} (hheard : .handled hub event ∈ exchange.announced order) :
    hub = exchange.hub ∧ hub.Admits event := by
  unfold announced at hheard
  split at hheard
  next id peer _ =>
    obtain ⟨rfl, rfl⟩ := Happening.handled.inj (List.mem_singleton.1 hheard)
    exact ⟨rfl, h.not_mem_of_pending (h.pending hmem)⟩
  next =>
    obtain ⟨rfl, rfl⟩ := Happening.handled.inj (List.mem_singleton.1 hheard)
    exact ⟨rfl, trivial⟩
  next => cases hheard

end Sound

end Exchange

namespace Floor

/-- Whatever the hub was ever given, it admitted. -/
structure Sound (settings : Settings) (trace : List Happening) (floor : Floor) : Prop where
  exchange : floor.exchange.Sound settings
  events : ∀ event ∈ floor.activity.events, ∀ id peer, event ≠ .register id peer
  heard {hub : Hub} {event : Event} : .handled hub event ∈ trace →
    Hub.Reachable settings hub ∧ hub.Admits event

variable {settings : Settings} {trace happenings : List Happening} {floor floor' : Floor}

theorem Sound.step (h : Sound settings trace floor) (hstep : Step floor happenings floor') :
    Sound settings (trace ++ happenings) floor' := by
  obtain ⟨hexchange, hevents, hheard⟩ := h
  have hnone (event : Event) : event ∉ ([] : List Event) := List.not_mem_nil
  -- What was handled before the step stays accounted for; only three cases add to it.
  have heard {more : List Happening} (hmore : ∀ hub event, .handled hub event ∈ more →
      Hub.Reachable settings hub ∧ hub.Admits event) {hub : Hub} {event : Event}
      (hmem : .handled hub event ∈ trace ++ more) :
      Hub.Reachable settings hub ∧ hub.Admits event :=
    (List.mem_append.1 hmem).elim hheard (hmore hub event)
  have same {exchange : Exchange} (hhub : exchange.hub = floor.exchange.hub)
      (hregistrations : exchange.registrations = floor.exchange.registrations)
      (horders : exchange.orders = floor.exchange.orders) : exchange.Sound settings :=
    hexchange.of_same hhub hregistrations (horders ▸ List.Sublist.refl _)
  cases hstep with
  | connect hnew _ => exact ⟨hexchange.connect hnew _, hevents, heard (by simp)⟩
  | post hgives hpost =>
    refine ⟨hexchange.post hpost ?_, hevents, heard (by simp)⟩
    rintro id peer rfl
    exact hgives
  | giveUp hpending hunasked =>
    exact ⟨hexchange.refuse hpending hunasked, hevents, heard (by simp)⟩
  | write | letGo | ring | pass | dropHandles =>
    exact ⟨same rfl rfl rfl, hevents, heard (by simp)⟩
  | vanish => exact ⟨hexchange, hevents, heard (by simp)⟩
  | take | stopReading => exact ⟨same rfl rfl rfl, hevents, heard (by simp)⟩
  | order _ _ horders hstays =>
    refine ⟨hexchange.takeOrder horders hstays, hevents, heard fun hub event hmem => ?_⟩
    obtain ⟨rfl, hadmits⟩ :=
      hexchange.admits_of_mem_announced (horders ▸ List.mem_cons_self) hmem
    exact ⟨hexchange.reachable, hadmits⟩
  | leave _ _ horders _ =>
    refine ⟨hexchange.of_same rfl rfl ?_, fun event hmem => absurd hmem (hnone event), heard (by simp)⟩
    rw [horders]
    exact List.sublist_cons_self _ _
  | answer | gather => exact ⟨same rfl rfl rfl, fun event hmem => absurd hmem (hnone event), heard (by simp)⟩
  -- A concluded round hands over lines, endings and exits, never a registration.
  | @conclude round leaver _ _ =>
    refine ⟨same rfl rfl rfl, fun event hmem => ?_, heard (by simp)⟩
    rcases List.mem_append.1 hmem with hmem | hmem
    · obtain ⟨⟨id, report⟩, -, rfl⟩ := List.mem_map.1 hmem
      cases report <;> simp [Envelope.event]
    · obtain ⟨id, -, rfl⟩ := List.mem_map.1 hmem
      simp
  | @handle event events hactivity _ =>
    rw [hactivity] at hevents
    have hevent := hevents event List.mem_cons_self
    refine ⟨hexchange.handle hevent, fun other hmem => hevents other (List.mem_cons_of_mem _ hmem),
      heard fun hub found hmem => ?_⟩
    obtain ⟨rfl, rfl⟩ := Happening.handled.inj (List.mem_singleton.1 hmem)
    exact ⟨hexchange.reachable, Hub.admits_of_ne _ hevent⟩
  | close =>
    refine ⟨hexchange.beginClosing, hevents, heard fun hub found hmem => ?_⟩
    obtain ⟨rfl, rfl⟩ := Happening.handled.inj (List.mem_singleton.1 hmem)
    exact ⟨hexchange.reachable, trivial⟩
  | stop => exact ⟨hexchange.halt _, hevents, heard (by simp)⟩

theorem Sound.stir (h : Sound settings trace floor) (hstir : Stir floor happenings floor') :
    Sound settings (trace ++ happenings) floor' := by
  cases hstir with
  | step hstep => exact h.step hstep
  | write =>
    refine ⟨h.exchange.of_same rfl rfl (.refl _), h.events, fun hmem => ?_⟩
    exact (List.mem_append.1 hmem).elim h.heard (by simp)
  | report hpost =>
    refine ⟨h.exchange.post hpost (by simp), ?_, fun hmem => ?_⟩
    · exact h.events
    · exact (List.mem_append.1 hmem).elim h.heard (by simp)

theorem Bustle.sound (h : Bustle settings trace floor) : Sound settings trace floor := by
  refine h.preserves (fun exchange hnew => ?_) fun _ hsound hstir => hsound.stir hstir
  exact ⟨.of_new hnew, fun event hmem => absurd hmem List.not_mem_nil,
    fun hmem => absurd hmem List.not_mem_nil⟩

end Floor

end ChatRooms
