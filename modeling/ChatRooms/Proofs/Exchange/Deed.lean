import ChatRooms.Proofs.Exchange.Settling
import ChatRooms.Proofs.Intake.Visiting

namespace ChatRooms

open Std

/-- What can be done to an exchange from outside. -/
inductive Deed where
  | register (id : ClientId) (queue : Nat) (peer : Option SocketAddress)
  | forward (id : ClientId) (line : String)
  | close (id : ClientId)
  /-- The worker is gone without a word. -/
  | abandon (id : ClientId)
  | exit (id : ClientId)
  | shutdown
  | stopReading (id : ClientId)
  | read (id : ClientId)
  | pass (time : Nat)

/-- What can be told at once of what came of it. -/
inductive Finding where
  | nothing
  | posted (outcome : Posting Unit)
  | taken (found : Option Taken)

namespace Exchange

def posted (exchange : Exchange) : Posting Exchange → Exchange × Finding
  | .accepted after => (after, .posted (.accepted ()))
  | .full => (exchange, .posted .full)
  | .closed => (exchange, .posted .closed)

def begin (exchange : Exchange) : Deed → Exchange × Finding
  | .register id queue peer =>
    let exchange := exchange.connect id { capacity := queue }
    match exchange.post (.register id peer) with
    | .closed => (exchange.refuse id, .posted .closed)
    | posting => exchange.posted posting
  | .forward id line => exchange.posted (exchange.forward id line)
  | .close id => exchange.posted (exchange.close id)
  | .abandon id => (exchange.abandon id, .nothing)
  | .exit id => exchange.posted (exchange.post (.exited id))
  | .shutdown => exchange.posted (exchange.post .shutdown)
  | .stopReading id => (exchange.updateOutbox id Outbox.stopReading, .nothing)
  | .read id =>
    (exchange.updateOutbox id fun outbox => outbox.take.1,
      .taken (exchange.outboxes[id]?.map fun outbox => outbox.take.2))
  | .pass time => ({ exchange with clock := exchange.clock + time }, .nothing)

def undergo (exchange : Exchange) (deed : Deed) : Exchange :=
  (exchange.begin deed).1.settle

/-- An id is registered once, and its worker reports nothing before the registration is accepted. -/
def Permits (exchange : Exchange) : Deed → Prop
  | .register id _ _ => exchange.registrations[id]? = none
  | .forward id _ | .close id | .abandon id => exchange.registrations[id]? = some .accepted
  | .exit _ | .shutdown | .stopReading _ | .read _ | .pass _ => True

instance (exchange : Exchange) : (deed : Deed) → Decidable (exchange.Permits deed)
  | .register id _ _ => inferInstanceAs (Decidable (exchange.registrations[id]? = none))
  | .forward id _ | .close id | .abandon id =>
    inferInstanceAs (Decidable (exchange.registrations[id]? = some .accepted))
  | .exit _ | .shutdown | .stopReading _ | .read _ | .pass _ => isTrue trivial

/-- Closing is over when nobody is left, or when it is time. -/
def finish (exchange : Exchange) : Exchange :=
  match exchange.phase with
  | .closing deadline =>
    if exchange.hub.directory.isEmpty || deadline ≤ exchange.clock then exchange.halt .stopped
    else exchange
  | .running | .stopped | .failed _ => exchange

def respond (exchange : Exchange) : Deed → Exchange
  | .register id queue peer =>
    (exchange.connect id { capacity := queue }).takeOrder (.register id peer)
  | .forward id line => exchange.handle [.line id line]
  | .close id | .abandon id => exchange.handle [.closed id]
  | .exit id => exchange.handle [.exited id]
  | .shutdown => exchange.takeOrder .shutdown
  | .stopReading id => exchange.updateOutbox id Outbox.stopReading
  | .read id => exchange.updateOutbox id fun outbox => outbox.take.1
  | .pass time => { exchange with clock := exchange.clock + time }

variable {exchange exchange' : Exchange} {hub : Hub} {effects : List Effect} {event : Event}
  {order : Order} {deed : Deed} {id : ClientId} {mode : IntakeMode} {intake : Intake}
  {batch : List Envelope}

/-- What effects do to the outboxes does not depend on the intake, nor the other way round. -/
theorem exists_foldl_apply (effects : List Effect) (exchange : Exchange) :
    ∃ outboxes, ∀ intake, effects.foldl apply { exchange with intake } =
      { exchange with outboxes, intake := effects.foldl Intake.absorb intake } := by
  induction effects generalizing exchange with
  | nil => exact ⟨exchange.outboxes, fun intake => rfl⟩
  | cons effect effects ih =>
    have hone (intake : Intake) : apply { exchange with intake } effect =
        { exchange with
          outboxes := (exchange.apply effect).outboxes
          intake := intake.absorb effect } := by
      cases effect <;> rfl
    obtain ⟨outboxes, hrest⟩ := ih { exchange with outboxes := (exchange.apply effect).outboxes }
    refine ⟨outboxes, fun intake => ?_⟩
    rw [List.foldl_cons, hone, List.foldl_cons]
    exact hrest _

theorem handle_event (exchange : Exchange) (event : Event) :
    (∃ hub effects outboxes, exchange.hub.handle event = .ok (hub, effects) ∧
      ∀ intake, handle { exchange with intake } [event] =
        { exchange with hub, outboxes, intake := effects.foldl Intake.absorb intake }) ∨
    ∃ defect, exchange.hub.handle event = .error defect ∧
      ∀ intake, handle { exchange with intake } [event] =
        halt { exchange with intake } (.failed defect) := by
  cases hhandle : exchange.hub.handle event with
  | error defect =>
    refine Or.inr ⟨defect, rfl, fun intake => ?_⟩
    rw [handle, handleAll_singleton]
    dsimp only
    rw [hhandle]
  | ok after =>
    obtain ⟨hub, effects⟩ := after
    obtain ⟨outboxes, heffects⟩ := exists_foldl_apply effects { exchange with hub }
    refine Or.inl ⟨hub, effects, outboxes, rfl, fun intake => ?_⟩
    rw [handle_singleton (by exact hhandle)]
    exact heffects intake

/-- There is nothing in the queues. -/
structure Calm (exchange : Exchange) : Prop where
  orders : exchange.orders = []
  isAnnounced : exchange.intake.isAnnounced = false
  hasHandles : exchange.hasHandles = true

theorem takeBatch?_of_not_announced (h : exchange.intake.isAnnounced = false) :
    exchange.takeBatch? = none := by
  rw [takeBatch?, Option.map_eq_none_iff]
  cases hnext : exchange.intake.next? with
  | none => rfl
  | some after =>
    rw [(Intake.isAnnounced_next? (by exact hnext)).1] at h
    cases h

theorem Calm.advance_eq (h : exchange.Calm) : exchange.advance =
    match exchange.phase with
    | .closing deadline =>
      if exchange.hub.directory.isEmpty || deadline ≤ exchange.clock then
        some (exchange.halt .stopped)
      else none
    | .running | .stopped | .failed _ => none := by
  have hnext : exchange.takeNext? = none := by
    rw [takeNext?, h.orders]
    exact takeBatch?_of_not_announced h.isAnnounced
  rw [advance, hnext, h.hasHandles]
  cases exchange.phase <;> simp

theorem Calm.settle_eq (h : exchange.Calm) : exchange.settle = exchange.finish := by
  have hadvance := h.advance_eq
  rw [finish]
  cases hphase : exchange.phase with
  | running | stopped | failed =>
    rw [hphase] at hadvance
    exact settle_of_advance_eq_none hadvance
  | closing deadline =>
    rw [hphase] at hadvance
    dsimp only at hadvance ⊢
    split at hadvance
    next hover =>
      rw [if_pos hover, settle_of_advance hadvance, settle_of_advance_eq_none rfl]
    next hover =>
      rw [if_neg hover, settle_of_advance_eq_none hadvance]

theorem advance_eq_takeNext? (hadvance : exchange.advance = none) (hopen : exchange.isOpen = true)
    (hhub : exchange'.hub = exchange.hub) (hphase : exchange'.phase = exchange.phase)
    (hclock : exchange'.clock = exchange.clock) (hhandles : exchange'.hasHandles = true) :
    exchange'.advance = exchange'.takeNext? := by
  rw [advance] at hadvance ⊢
  rw [isOpen] at hopen
  rw [hphase, hhub, hclock, hhandles]
  cases hcase : exchange.phase with
  | running => simp
  | closing deadline =>
    rw [hcase] at hadvance
    dsimp only at hadvance ⊢
    split at hadvance
    next => cases hadvance
    next hover => rw [if_neg hover]
  | stopped | failed =>
    rw [hcase] at hopen
    cases hopen

/-- Whoever is in the directory has been accepted. -/
structure Idle (mode : IntakeMode) (exchange : Exchange) : Prop where
  intake : exchange.intake = .atRest mode exchange.orderCapacity exchange.hub.directory
  orders : exchange.orders = []
  orderCapacity : 0 < exchange.orderCapacity
  hasHandles : exchange.hasHandles = true
  intact : exchange.hub.directory.Intact
  accepted {id : ClientId} :
    id ∈ exchange.hub.directory.occupants → exchange.registrations[id]? = some .accepted

theorem Idle.calm (h : exchange.Idle mode) : exchange.Calm where
  orders := h.orders
  isAnnounced := by rw [h.intake, Intake.isAnnounced_atRest]
  hasHandles := h.hasHandles

/-- What a deed leaves behind is calm, and idle if the hub still takes anything. -/
structure Subsides (mode : IntakeMode) (exchange : Exchange) : Prop where
  calm : exchange.Calm
  idle : exchange.isOpen = true → exchange.Idle mode

theorem Idle.subsides (h : exchange.Idle mode) : exchange.Subsides mode where
  calm := h.calm
  idle := fun _ => h

/-- The hub takes one event, for which the intake is prepared, or fails. -/
theorem handle_atRest (hintact : exchange.hub.directory.Intact)
    (hadmits : exchange.hub.Admits event) (hintake : exchange.intake =
      (Intake.atRest mode exchange.orderCapacity exchange.hub.directory).offerFor event) :
    (∃ hub effects outboxes, Hub.Steps exchange.hub event hub effects ∧
      exchange.handle [event] = { exchange with
        hub, outboxes, intake := .atRest mode exchange.orderCapacity hub.directory }) ∨
    ∃ defect, exchange.hub.handle event = .error defect ∧
      exchange.handle [event] = exchange.halt (.failed defect) := by
  rcases handle_event exchange event with
    ⟨hub, effects, outboxes, hhandle, heq⟩ | ⟨defect, herror, heq⟩
  · have hstep := Hub.steps_of_handle hhandle
    refine Or.inl ⟨hub, effects, outboxes, hstep, ?_⟩
    rw [← hstep.atRest hintact hadmits mode exchange.orderCapacity, ← hintake]
    exact heq exchange.intake
  · exact Or.inr ⟨defect, herror, heq exchange.intake⟩

theorem Calm.halt_failed (h : exchange.Calm) (defect : Defect) :
    (exchange.halt (.failed defect)).Subsides mode where
  calm := ⟨rfl, h.isAnnounced, h.hasHandles⟩
  idle := fun hopen => by cases hopen

theorem Idle.handle (h : exchange.Idle mode) (hevent : ∀ id peer, event ≠ .register id peer) :
    (exchange.handle [event]).Subsides mode := by
  have hadmits := exchange.hub.admits_of_ne hevent
  have hintake : exchange.intake =
      (Intake.atRest mode exchange.orderCapacity exchange.hub.directory).offerFor event := by
    rw [Intake.offerFor_of_ne hevent]
    exact h.intake
  rcases handle_atRest h.intact hadmits hintake with
    ⟨hub, effects, outboxes, hstep, heq⟩ | ⟨defect, -, heq⟩
  · have hidle : (exchange.handle [event]).Idle mode := by
      rw [heq]
      refine ⟨rfl, h.orders, h.orderCapacity, h.hasHandles, hstep.intact h.intact hadmits, ?_⟩
      intro id hid
      rcases hstep.mem_occupants h.intact hid with hid | ⟨peer, rfl⟩
      · exact h.accepted hid
      · exact absurd rfl (hevent id peer)
    exact hidle.subsides
  · rw [heq]
    exact h.calm.halt_failed defect

theorem takeOrder_register (hphase : exchange.phase = .running) (id : ClientId)
    (peer : Option SocketAddress) : exchange.takeOrder (.register id peer) =
      let after := exchange.handle [.register id peer]
      if after.isOpen then
        { after with registrations := after.registrations.insert id .accepted }
      else after := by
  rw [takeOrder]
  exact hphase

theorem takeOrder_register_of_ne (hphase : exchange.phase ≠ .running) (id : ClientId)
    (peer : Option SocketAddress) : exchange.takeOrder (.register id peer) = exchange.refuse id := by
  unfold takeOrder
  split <;> simp_all

theorem takeOrder_shutdown (hphase : exchange.phase = .running) :
    exchange.takeOrder .shutdown = exchange.beginClosing := by
  rw [takeOrder]
  exact hphase

theorem takeOrder_shutdown_of_ne (hphase : exchange.phase ≠ .running) :
    exchange.takeOrder .shutdown = exchange := by
  unfold takeOrder
  split <;> simp_all

theorem Idle.ne_of_mem (h : exchange.Idle mode) (hnew : exchange.registrations[id]? = none)
    {other : ClientId} (hother : other ∈ exchange.hub.directory.occupants) : id ≠ other := by
  rintro rfl
  rw [h.accepted hother] at hnew
  cases hnew

theorem Idle.connect_calm (h : exchange.Idle mode) (id : ClientId) (outbox : Outbox) :
    (exchange.connect id outbox).Calm where
  orders := h.orders
  isAnnounced := by
    show (exchange.intake.offer id).isAnnounced = false
    rw [h.intake, Intake.isAnnounced_offer, Intake.isAnnounced_atRest]
  hasHandles := h.hasHandles

theorem Idle.refuse (h : exchange.Idle mode) (hnew : exchange.registrations[id]? = none)
    (outbox : Outbox) : ((exchange.connect id outbox).refuse id).Idle mode := by
  refine ⟨?_, h.orders, h.orderCapacity, h.hasHandles, h.intact, ?_⟩
  · show (exchange.intake.offer id).withdraw id = _
    rw [h.intake]
    exact Intake.withdraw_offer_atRest
  · intro other hother
    show ((exchange.registrations.insert id .pending).insert id .refused)[other]? = _
    rw [Maps.insert_insert, Maps.getElem?_insert_of_ne (h.ne_of_mem hnew hother)]
    exact h.accepted hother

theorem Idle.welcome (h : exchange.Idle mode) (hnew : exchange.registrations[id]? = none)
    (hphase : exchange.phase = .running) (outbox : Outbox) (peer : Option SocketAddress) :
    ((exchange.connect id outbox).takeOrder (.register id peer)).Subsides mode := by
  have hintact : (exchange.connect id outbox).hub.directory.Intact := h.intact
  have hadmits : (exchange.connect id outbox).hub.Admits (.register id peer) :=
    fun hid => h.ne_of_mem hnew hid rfl
  have hintake : (exchange.connect id outbox).intake = (Intake.atRest mode exchange.orderCapacity
      exchange.hub.directory).offerFor (.register id peer) := congrArg (·.offer id) h.intake
  rw [takeOrder_register (by exact hphase)]
  rcases handle_atRest hintact hadmits hintake with
    ⟨hub, effects, outboxes, hstep, heq⟩ | ⟨defect, -, heq⟩
  · -- The event is handled, and handling does not change the phase.
    have hopen : ((exchange.connect id outbox).handle [.register id peer]).isOpen = true := by
      rw [heq, isOpen]
      dsimp only
      rw [show (exchange.connect id outbox).phase = .running from hphase]
    dsimp only
    rw [if_pos hopen, heq]
    refine Idle.subsides ⟨rfl, h.orders, h.orderCapacity, h.hasHandles,
      hstep.intact hintact hadmits, ?_⟩
    intro other hother
    show ((exchange.registrations.insert id .pending).insert id .accepted)[other]? = _
    rw [Maps.insert_insert, ExtTreeMap.getElem?_insert]
    split
    next => rfl
    next hne =>
      rcases hstep.mem_occupants hintact hother with hother | ⟨peer, hevent⟩
      · exact h.accepted hother
      · exact absurd (Std.compare_eq_iff_eq.2 (Event.register.inj hevent).1) hne
  · dsimp only
    rw [heq]
    exact (h.connect_calm id outbox).halt_failed defect

/-- A newcomer is let in, or refused because it is too late. -/
theorem Idle.register (h : exchange.Idle mode) (hnew : exchange.registrations[id]? = none)
    (outbox : Outbox) (peer : Option SocketAddress) :
    ((exchange.connect id outbox).takeOrder (.register id peer)).Subsides mode := by
  by_cases hphase : exchange.phase = .running
  · exact h.welcome hnew hphase outbox peer
  · rw [takeOrder_register_of_ne (by exact hphase)]
    exact (h.refuse hnew outbox).subsides

theorem Idle.takeOrder_exited (h : exchange.Idle mode) (id : ClientId) :
    exchange.takeOrder (.exited id) = exchange.handle [.exited id] := by
  rw [takeOrder, takeExit, h.intake, Intake.drain_atRest, ← h.intake]
  rfl

theorem Idle.shutdown (h : exchange.Idle mode) :
    (exchange.takeOrder .shutdown).Subsides mode := by
  by_cases hphase : exchange.phase = .running
  · have hevent (id : ClientId) (peer : Option SocketAddress) :
        Event.shutdown ≠ .register id peer := nofun
    obtain ⟨hcalm, hidle⟩ := h.handle hevent
    have hopen : (exchange.handle [.shutdown]).isOpen = true := by
      rcases handle_event exchange .shutdown with ⟨hub, effects, outboxes, -, heq⟩ | ⟨_, herror, -⟩
      · rw [show exchange.handle [.shutdown] = _ from heq exchange.intake, isOpen]
        dsimp only
        rw [hphase]
      · cases herror
    obtain ⟨hintake, horders, hcapacity, hhandles, hintact, haccepted⟩ := hidle hopen
    rw [takeOrder_shutdown hphase]
    exact Idle.subsides ⟨hintake, horders, hcapacity, hhandles, hintact, haccepted⟩
  · rw [takeOrder_shutdown_of_ne hphase]
    exact h.subsides

theorem Idle.respond (h : exchange.Idle mode) (hpermits : exchange.Permits deed) :
    (exchange.respond deed).Subsides mode := by
  cases deed with
  | register id queue peer => exact h.register hpermits _ peer
  | forward | close | abandon | exit => exact h.handle nofun
  | shutdown => exact h.shutdown
  | stopReading | read | pass =>
    exact Idle.subsides ⟨h.intake, h.orders, h.orderCapacity, h.hasHandles, h.intact, h.accepted⟩

theorem Idle.handle_line_of_not_mem (h : exchange.Idle mode)
    (hid : id ∉ exchange.hub.directory.occupants) (line : String) :
    exchange.handle [.line id line] = exchange := by
  have hhandle : exchange.hub.handle (.line id line) = .ok (exchange.hub, []) := by
    rw [Hub.handle, Hub.hear, ExtTreeMap.getElem?_eq_none hid]
    exact Hub.audited_eq h.intact
  rw [handle_singleton hhandle]
  rfl

theorem Idle.handle_closed_of_not_mem (h : exchange.Idle mode)
    (hid : id ∉ exchange.hub.directory.occupants) : exchange.handle [.closed id] = exchange := by
  have hhandle : exchange.hub.handle (.closed id) = .ok (exchange.hub, [.detach id]) := by
    rw [Hub.handle, Hub.reclaim, Directory.remove, ExtTreeMap.getElem?_eq_none hid]
    exact Hub.audited_eq h.intact
  rw [handle_singleton hhandle]
  show { exchange with intake := exchange.intake.detach id } = exchange
  rw [h.intake, Intake.detach_atRest_of_not_mem hid, ← h.intake]

/-- Whether a client is still visited does not matter when it is reclaimed. -/
theorem Idle.handle_closed_detached (h : exchange.Idle mode) (id : ClientId) :
    Exchange.handle { exchange with intake := exchange.intake.detach id } [.closed id] =
      exchange.handle [.closed id] := by
  obtain ⟨hub, effects, hreclaim⟩ := Hub.exists_reclaim h.intact id
  have hstep := Hub.steps_of_reclaim (Or.inr rfl) hreclaim
  have hhandle : exchange.hub.handle (.closed id) = .ok (hub, effects) := by
    rw [Hub.handle, hreclaim, Hub.audited_eq (hstep.intact h.intact trivial)]
  -- The first thing the hub does is to detach the client, once more or not.
  obtain ⟨others, rfl⟩ := hstep.exists_of_closed
  rw [handle_singleton (by exact hhandle), handle_singleton hhandle, List.foldl_cons, List.foldl_cons]
  congr 1
  show { exchange with hub, intake := (exchange.intake.detach id).detach id } =
    { exchange with hub, intake := exchange.intake.detach id }
  rw [Intake.detach_detach]

theorem post_of_idle (hopen : exchange.isOpen = true) (horders : exchange.orders = [])
    (hcapacity : 0 < exchange.orderCapacity) (order : Order) :
    exchange.post order = .accepted { exchange with orders := [order] } := by
  rw [post, hopen, horders, List.length_nil, if_neg (by simp), if_neg (Nat.not_le_of_lt hcapacity),
    List.nil_append]

theorem settle_order (hadvance : exchange.advance = none) (hopen : exchange.isOpen = true)
    (hhub : exchange'.hub = exchange.hub) (hphase : exchange'.phase = exchange.phase)
    (hclock : exchange'.clock = exchange.clock) (hhandles : exchange'.hasHandles = true)
    (horders : exchange'.orders = []) (order : Order) :
    settle { exchange' with orders := [order] } = (exchange'.takeOrder order).settle := by
  apply settle_of_advance
  rw [@advance_eq_takeNext? exchange { exchange' with orders := [order] } hadvance hopen hhub hphase
    hclock hhandles]
  show some (takeOrder { exchange' with orders := [] } order) = _
  rw [← horders]

theorem Idle.settle_batch (h : exchange.Idle mode) (hadvance : exchange.advance = none)
    (hopen : exchange.isOpen = true) {after rest : Intake}
    (hnext : after.next? = some (rest, batch)) :
    settle { exchange with intake := after } =
      (handleBatch { exchange with intake := rest } batch).settle := by
  apply settle_of_advance
  rw [@advance_eq_takeNext? exchange { exchange with intake := after } hadvance hopen rfl rfl rfl
    h.hasHandles, takeNext?]
  dsimp only
  rw [h.orders]
  dsimp only
  rw [takeBatch?, hnext]
  rfl

/-- A line is heard, whether it comes through the queue or through a feed. Whoever has been reclaimed
may still have a place in the queue, but is not heard. -/
theorem Idle.settle_forward (h : exchange.Idle mode) (hadvance : exchange.advance = none)
    (hopen : exchange.isOpen = true) (id : ClientId) (line : String) :
    (exchange.begin (.forward id line)).1.settle = (exchange.handle [.line id line]).settle := by
  rw [begin, Exchange.forward, if_pos hopen, h.intake]
  by_cases hheard : mode = .sweep → id ∈ exchange.hub.directory.occupants
  · obtain ⟨after, hforward, hnext⟩ := Intake.next?_of_forward h.orderCapacity hheard
    rw [hforward]
    show settle { exchange with intake := after } = _
    rw [h.settle_batch hadvance hopen hnext, ← h.intake]
    rfl
  -- There is no feed any more. The hub would not have listened either.
  · obtain ⟨rfl, hid⟩ := Classical.not_imp.1 hheard
    rw [Intake.forward_of_not_mem hid, h.handle_line_of_not_mem hid]
    rfl

theorem Idle.settle_close (h : exchange.Idle mode) (hadvance : exchange.advance = none)
    (hopen : exchange.isOpen = true) (id : ClientId) :
    ∃ after, exchange.intake.close id = .accepted after ∧
      settle { exchange with intake := after } = (exchange.handle [.closed id]).settle := by
  obtain ⟨after, batch, hclose, hnext, hbatch⟩ :=
    Intake.next?_of_close h.orderCapacity mode exchange.hub.directory id
  rw [← h.intake] at hclose hnext
  refine ⟨after, hclose, ?_⟩
  rw [h.settle_batch hadvance hopen hnext]
  rcases hbatch with rfl | ⟨rfl, hid⟩
  · exact congrArg settle (h.handle_closed_detached id)
  · rw [h.handle_closed_of_not_mem hid, h.intake, Intake.detach_atRest_of_not_mem hid, ← h.intake]
    rfl

theorem Idle.undergo_eq (h : exchange.Idle mode) (hadvance : exchange.advance = none)
    (hopen : exchange.isOpen = true) (hpermits : exchange.Permits deed) :
    exchange.undergo deed = (exchange.respond deed).finish := by
  rw [← (h.respond hpermits).calm.settle_eq, undergo]
  cases deed with
  | register id queue peer =>
    rw [begin, post_of_idle (by exact hopen) (by exact h.orders) (by exact h.orderCapacity)]
    exact @settle_order exchange (exchange.connect id { capacity := queue }) hadvance hopen rfl rfl
      rfl h.hasHandles h.orders _
  | forward id line => exact h.settle_forward hadvance hopen id line
  | close id =>
    obtain ⟨after, hclose, hsettle⟩ := h.settle_close hadvance hopen id
    rw [begin, Exchange.close, if_pos hopen, hclose]
    exact hsettle
  | abandon id =>
    obtain ⟨after, hclose, hsettle⟩ := h.settle_close hadvance hopen id
    rw [begin, Exchange.abandon, Intake.abandon, hclose]
    exact hsettle
  | exit id =>
    rw [begin, post_of_idle hopen h.orders h.orderCapacity, Exchange.respond,
      ← h.takeOrder_exited id]
    exact settle_order hadvance hopen rfl rfl rfl h.hasHandles h.orders _
  | shutdown =>
    rw [begin, post_of_idle hopen h.orders h.orderCapacity]
    exact settle_order hadvance hopen rfl rfl rfl h.hasHandles h.orders _
  | stopReading | read | pass => rfl

theorem Idle.undergo (h : exchange.Idle mode) (hadvance : exchange.advance = none)
    (hopen : exchange.isOpen = true) (hpermits : exchange.Permits deed)
    (hafter : (exchange.undergo deed).isOpen = true) : (exchange.undergo deed).Idle mode := by
  have hsubsides := h.respond hpermits
  rw [h.undergo_eq hadvance hopen hpermits] at hafter ⊢
  rw [finish] at hafter ⊢
  split at hafter
  next =>
    split at hafter
    next => cases hafter
    next hover =>
      rw [if_neg hover]
      exact hsubsides.idle hafter
  all_goals exact hsubsides.idle hafter

end Exchange

end ChatRooms
