import ChatRooms.Proofs.Exchange.Provenance
import ChatRooms.Proofs.Exchange.Serving
import ChatRooms.Proofs.Intake.Visits

namespace ChatRooms

open Std

/-- What workers report, and those who watch over them. -/
def Event.isReport : Event → Bool
  | exited _ | line _ _ | closed _ => true
  | register _ _ | shutdown => false

/-- An event, and the exchange as it was when the hub came to handle it. -/
structure Moment where
  exchange : Exchange
  event : Event

namespace Moment

def after (moment : Moment) : Exchange :=
  moment.exchange.handle [moment.event]

/-- What the hub has for the client when it handles the event. -/
def dueTo (moment : Moment) (id : ClientId) : List Notice :=
  match moment.exchange.hub.handle moment.event with
  | .ok (_, effects) => noticesFor id effects
  | .error _ => []

/-- The lines that this puts into the client's outbox. -/
def queuedTo (moment : Moment) (id : ClientId) : List String :=
  (moment.after.queuedFor id).drop (moment.exchange.queuedFor id).length

end Moment

namespace Exchange

/-- What the hub handles when it takes an order other than an exit. -/
def momentsOf (exchange : Exchange) (order : Order) : List Moment :=
  match order, exchange.phase with
  | .register id peer, .running => [{ exchange, event := .register id peer }]
  | .shutdown, .running => [{ exchange, event := .shutdown }]
  | _, _ => []

/-- What can happen next, and what the hub handles thereby. Nothing is asked of reports: it does not
matter where they come from. -/
inductive Incident (exchange : Exchange) : List Moment → Exchange → Prop where
  | connect {id : ClientId} {capacity : Nat} {outbox : Outbox}
      (hnew : exchange.registrations[id]? = none) (houtbox : Outbox.new capacity = .ok outbox) :
      Incident exchange [] (exchange.connect id outbox)
  /-- A client is to be registered once. -/
  | post {order : Order} {exchange' : Exchange}
      (hgives : ∀ id peer, order = .register id peer →
        exchange.registrations[id]? = some .pending ∧ ∀ peer, .register id peer ∉ exchange.orders)
      (hpost : exchange.post order = .accepted exchange') : Incident exchange [] exchange'
  | giveUp {id : ClientId} (hpending : exchange.registrations[id]? = some .pending)
      (hunasked : ∀ peer, .register id peer ∉ exchange.orders) :
      Incident exchange [] (exchange.refuse id)
  /-- Workers write, ring and let go, and the hub gathers what it finds. -/
  | work {intake : Intake} (hnarrows : intake.Narrows exchange.intake) :
      Incident exchange [] { exchange with intake }
  | take {id : ClientId} {outbox outbox' : Outbox} {line : String}
      (houtbox : exchange.outboxes[id]? = some outbox)
      (htake : outbox.take = (outbox', .line line)) :
      Incident exchange [] (exchange.updateOutbox id fun _ => outbox')
  | stopReading (id : ClientId) :
      Incident exchange [] (exchange.updateOutbox id Outbox.stopReading)
  | pass (time : Nat) : Incident exchange [] { exchange with clock := exchange.clock + time }
  | dropHandles : Incident exchange [] { exchange with hasHandles := false }
  | order {order : Order} {orders : List Order} (hopen : exchange.isOpen = true)
      (horders : exchange.orders = order :: orders) (hstays : ∀ id, order ≠ .exited id) :
      Incident exchange (momentsOf { exchange with orders } order)
        ({ exchange with orders }.takeOrder order)
  /-- An exit is taken from the orders, to be heard when the hub has seen to what is pending. -/
  | leave {id : ClientId} {orders : List Order} (horders : exchange.orders = .exited id :: orders) :
      Incident exchange [] { exchange with orders }
  | hear {event : Event} (hopen : exchange.isOpen = true) (hreport : event.isReport = true) :
      Incident exchange [{ exchange, event }] (exchange.handle [event])
  /-- Nobody is left who could give an order. -/
  | close (hphase : exchange.phase = .running) (horders : exchange.orders = [])
      (hhandles : exchange.hasHandles = false) :
      Incident exchange [{ exchange, event := .shutdown }] exchange.beginClosing
  | stop {deadline : Nat} (hphase : exchange.phase = .closing deadline)
      (hover : exchange.hub.directory.isEmpty = true ∨ deadline ≤ exchange.clock) :
      Incident exchange [] (exchange.halt .stopped)

/-- One incident after the other, with everything the hub handles meanwhile. -/
inductive Course (start : Exchange) : List Moment → Exchange → Prop where
  | refl : Course start [] start
  | step {moments more : List Moment} {exchange exchange' : Exchange}
      (before : Course start moments exchange) (hincident : Incident exchange more exchange') :
      Course start (moments ++ more) exchange'

/-- The course since the exchange was set up. -/
def Chronicle (settings : Settings) (moments : List Moment) (exchange : Exchange) : Prop :=
  ∃ start, Exchange.new settings = .ok start ∧ Course start moments exchange

end Exchange

theorem Event.ne_register {event : Event} (h : event.isReport = true) :
    ∀ id peer, event ≠ .register id peer := by
  rintro id peer rfl
  cases h

namespace Moment

variable {moment : Moment} {hub : Hub} {effects : List Effect} {id : ClientId}

theorem dueTo_eq (h : moment.exchange.hub.handle moment.event = .ok (hub, effects)) :
    moment.dueTo id = noticesFor id effects := by
  rw [dueTo, h]

theorem getElem?_after (h : moment.exchange.hub.handle moment.event = .ok (hub, effects)) :
    moment.after.hub = hub ∧ moment.after.intake = moment.exchange.intake.follow moment.event ∧
      ∀ id, moment.after.outboxes[id]? =
        moment.exchange.outboxes[id]?.map fun outbox => effects.foldl (Outbox.absorb id) outbox := by
  have houtboxes := Exchange.getElem?_outboxes_handle h
  rcases Exchange.handle_eq moment.exchange moment.event with
    ⟨hub', effects', outboxes, hhandle, heq⟩ | ⟨defect, herror, -⟩
  · obtain ⟨rfl, rfl⟩ := Prod.mk.inj (Except.ok.inj (h.symm.trans hhandle))
    refine ⟨by rw [after, heq], ?_, houtboxes⟩
    rw [after, heq]
    exact (Hub.steps_of_handle h).foldl_absorb moment.exchange.intake
  · cases h.symm.trans herror

/-- Handling an event adds to what waits for a client, and some of what is due. -/
theorem exists_queuedFor_after (moment : Moment) (id : ClientId) :
    ∃ more, moment.after.queuedFor id = moment.exchange.queuedFor id ++ more ∧
      more.Sublist ((moment.dueTo id).map Notice.line) := by
  cases hhandle : moment.exchange.hub.handle moment.event with
  | error defect =>
    have heq : moment.after = moment.exchange.halt (.failed defect) := by
      rw [after, Exchange.handle, Exchange.handleAll_singleton, hhandle]
    refine ⟨[], ?_, List.nil_sublist _⟩
    rw [heq, Exchange.queuedFor_halt, List.append_nil]
  | ok outcome =>
    obtain ⟨hub, effects⟩ := outcome
    obtain ⟨-, -, houtboxes⟩ := getElem?_after hhandle
    rw [dueTo_eq hhandle, Exchange.queuedFor, houtboxes, Exchange.queuedFor]
    cases moment.exchange.outboxes[id]? with
    | none => exact ⟨[], rfl, List.nil_sublist _⟩
    | some outbox => exact outbox.exists_lines_foldl_absorb id effects

theorem queuedFor_after (moment : Moment) (id : ClientId) :
    moment.after.queuedFor id = moment.exchange.queuedFor id ++ moment.queuedTo id := by
  obtain ⟨more, hmore, -⟩ := moment.exists_queuedFor_after id
  rw [queuedTo, hmore, List.drop_left]

theorem queuedTo_sublist (moment : Moment) (id : ClientId) :
    (moment.queuedTo id).Sublist ((moment.dueTo id).map Notice.line) := by
  obtain ⟨more, hmore, hmeant⟩ := moment.exists_queuedFor_after id
  rw [queuedTo, hmore, List.drop_left]
  exact hmeant

theorem queuedTo_eq_nil (h : moment.dueTo id = []) : moment.queuedTo id = [] := by
  have hmeant := moment.queuedTo_sublist id
  rw [h] at hmeant
  exact List.sublist_nil.1 hmeant

end Moment

namespace Outbox

/-- Nothing has been put into the outbox, and nobody has taken it up again. -/
structure Dwindles (after before : Outbox) : Prop where
  capacity : after.capacity = before.capacity
  lines : after.lines <:+ before.lines
  isHeld : after.isHeld = true → before.isHeld = true
  isRead : after.isRead = true → before.isRead = true

variable {outbox outbox' : Outbox} {line : String}

namespace Dwindles

theorem refl (outbox : Outbox) : outbox.Dwindles outbox :=
  ⟨rfl, List.suffix_refl _, id, id⟩

theorem hangUp (outbox : Outbox) : outbox.hangUp.Dwindles outbox :=
  ⟨rfl, List.suffix_refl _, fun hheld => absurd hheld Bool.false_ne_true, id⟩

theorem stopReading (outbox : Outbox) : outbox.stopReading.Dwindles outbox :=
  ⟨rfl, List.nil_suffix, id, fun hread => absurd hread Bool.false_ne_true⟩

theorem take (h : outbox.take = (outbox', .line line)) : outbox'.Dwindles outbox := by
  unfold Outbox.take at h
  split at h
  next => cases h
  next =>
    split at h
    next first rest hlines =>
      obtain ⟨rfl, -⟩ := Prod.mk.inj h
      refine ⟨rfl, ?_, id, id⟩
      rw [hlines]
      exact List.suffix_cons first rest
    next => split at h <;> cases h

end Dwindles

theorem pos_of_new {capacity : Nat} (h : new capacity = .ok outbox) : 0 < capacity := by
  rcases Nat.eq_zero_or_pos capacity with rfl | hpos
  · cases h
  · exact hpos

end Outbox

namespace Exchange

variable {settings : Settings} {start exchange exchange' finish : Exchange} {id : ClientId}
  {moments more earlier later : List Moment} {moment : Moment} {event : Event} {order : Order}

/-- What any incident amounts to for the clients. Either the hub handles one event, or nobody gets
anything; in that case, if there was an event, it was a registration at which the hub failed. -/
inductive Amounts (exchange : Exchange) : List Moment → Exchange → Prop where
  | nothing {moments : List Moment} {exchange' : Exchange}
      (hfailed : ∀ moment ∈ moments, (∃ id peer, moment.event = .register id peer) ∧
        ∀ id, moment.dueTo id = [])
      (hhub : exchange'.hub = exchange.hub)
      (houtbox : ∀ (id : ClientId) (outbox' : Outbox), exchange'.outboxes[id]? = some outbox' →
        (exchange.registrations[id]? = none ∧ ∃ capacity, 0 < capacity ∧ outbox' = { capacity }) ∨
          ∃ outbox, exchange.outboxes[id]? = some outbox ∧ outbox'.Dwindles outbox)
      (hintake : exchange'.intake.Narrows exchange.intake)
      (haccepted : ∀ id : ClientId, exchange'.registrations[id]? = some .accepted ↔
        exchange.registrations[id]? = some .accepted) :
      Amounts exchange moments exchange'
  | event {moment : Moment} {hub : Hub} {effects : List Effect} {exchange' : Exchange}
      (hopen : exchange.isOpen = true) (hmoment : ∃ orders, moment.exchange = { exchange with orders })
      (hadmits : exchange.hub.Admits moment.event)
      (hpending : ∀ id peer, moment.event = .register id peer →
        exchange.registrations[id]? = some .pending)
      (hhandle : exchange.hub.handle moment.event = .ok (hub, effects)) (hhub : exchange'.hub = hub)
      (houtbox : ∀ id : ClientId, exchange'.outboxes[id]? =
        exchange.outboxes[id]?.map fun outbox => effects.foldl (Outbox.absorb id) outbox)
      (hintake : exchange'.intake = exchange.intake.follow moment.event)
      (haccepted : ∀ id : ClientId, exchange'.registrations[id]? = some .accepted ↔
        exchange.registrations[id]? = some .accepted ∨ ∃ peer, moment.event = .register id peer)
      (hdue : ∀ id, moment.dueTo id = noticesFor id effects)
      (hqueued : ∀ id, exchange'.queuedFor id = exchange.queuedFor id ++ moment.queuedTo id) :
      Amounts exchange [moment] exchange'

namespace Amounts

theorem of_same (hhub : exchange'.hub = exchange.hub) (houtboxes : exchange'.outboxes = exchange.outboxes)
    (hintake : exchange'.intake.Narrows exchange.intake)
    (hregistrations : exchange'.registrations = exchange.registrations) :
    Amounts exchange [] exchange' := by
  refine .nothing (by simp) hhub (fun id outbox hid => ?_) hintake fun id => by rw [hregistrations]
  rw [houtboxes] at hid
  exact Or.inr ⟨outbox, hid, .refl _⟩

theorem updateOutbox {change : Outbox → Outbox}
    (hchange : ∀ outbox, exchange.outboxes[id]? = some outbox → (change outbox).Dwindles outbox) :
    Amounts exchange [] (exchange.updateOutbox id change) := by
  refine .nothing (by simp) rfl (fun other outbox' hother => Or.inr ?_) (.refl _) fun _ => Iff.rfl
  rw [getElem?_updateOutbox] at hother
  split at hother
  next heq =>
    obtain ⟨outbox, houtbox, rfl⟩ := Option.map_eq_some_iff.1 hother
    exact ⟨outbox, houtbox, hchange outbox (heq ▸ houtbox)⟩
  next => exact ⟨outbox', hother, .refl _⟩

theorem connect {capacity : Nat} (hnew : exchange.registrations[id]? = none) (hpos : 0 < capacity) :
    Amounts exchange [] (exchange.connect id { capacity }) := by
  refine .nothing (by simp) rfl (fun other outbox' hother => ?_) .offer fun other => ?_
  · rw [Exchange.connect, ExtTreeMap.getElem?_insert] at hother
    split at hother
    next heq =>
      obtain rfl := Std.compare_eq_iff_eq.1 heq
      exact Or.inl ⟨hnew, capacity, hpos, (Option.some.inj hother).symm⟩
    next => exact Or.inr ⟨outbox', hother, .refl _⟩
  · rw [Exchange.connect, ExtTreeMap.getElem?_insert]
    split
    next heq =>
      obtain rfl := Std.compare_eq_iff_eq.1 heq
      rw [hnew]
      simp
    next => rfl

theorem refuse (hpending : exchange.registrations[id]? = some .pending) :
    Amounts exchange [] (exchange.refuse id) := by
  refine .nothing (by simp) rfl (fun other outbox' hother => Or.inr ?_) .withdraw fun other => ?_
  · rw [Exchange.refuse] at hother
    dsimp only at hother
    rw [getElem?_updateOutbox] at hother
    split at hother
    next =>
      obtain ⟨outbox, houtbox, rfl⟩ := Option.map_eq_some_iff.1 hother
      exact ⟨outbox, houtbox, .hangUp _⟩
    next => exact ⟨outbox', hother, .refl _⟩
  · rw [Exchange.refuse]
    dsimp only
    rw [ExtTreeMap.getElem?_insert]
    split
    next heq =>
      obtain rfl := Std.compare_eq_iff_eq.1 heq
      show some _ = _ ↔ exchange.registrations[id]? = _
      rw [hpending]
      simp
    next => rfl

theorem of_fewer_orders {orders : List Order} (h : Amounts { exchange with orders } [] exchange') :
    Amounts exchange [] exchange' := by
  cases h with
  | nothing hfailed hhub houtbox hintake haccepted =>
    exact .nothing hfailed hhub houtbox hintake haccepted

theorem halt {orders : List Order} (phase : Phase)
    (hfailed : ∀ moment ∈ moments, (∃ id peer, moment.event = .register id peer) ∧
      ∀ id, moment.dueTo id = []) :
    Amounts exchange moments (Exchange.halt { exchange with orders } phase) := by
  refine .nothing hfailed rfl (fun id outbox' hid => Or.inr ?_) (.refl _) fun id =>
    registrations_halt_eq_accepted
  rw [Exchange.halt, ExtTreeMap.getElem?_map] at hid
  obtain ⟨outbox, houtbox, rfl⟩ := Option.map_eq_some_iff.1 hid
  exact ⟨outbox, houtbox, .hangUp _⟩

/-- Whatever becomes of phase and registrations then, the event has been handled. -/
theorem of_handle {hub : Hub} {effects : List Effect} {orders : List Order} {phase : Phase}
    {registrations : ExtTreeMap ClientId Registration} (hopen : exchange.isOpen = true)
    (hadmits : exchange.hub.Admits event)
    (hpending : ∀ id peer, event = .register id peer → exchange.registrations[id]? = some .pending)
    (hhandle : exchange.hub.handle event = .ok (hub, effects))
    (haccepted : ∀ id : ClientId, registrations[id]? = some Registration.accepted ↔
      exchange.registrations[id]? = some .accepted ∨ ∃ peer, event = .register id peer) :
    Amounts exchange [{ exchange := { exchange with orders }, event }]
      { Exchange.handle { exchange with orders } [event] with phase, registrations } := by
  obtain ⟨hhub, hintake, houtbox⟩ :=
    @Moment.getElem?_after { exchange := { exchange with orders }, event } hub effects hhandle
  refine .event hopen ⟨orders, rfl⟩ hadmits hpending hhandle hhub houtbox hintake haccepted
    (fun id => Moment.dueTo_eq hhandle) fun id => ?_
  exact Moment.queuedFor_after { exchange := { exchange with orders }, event } id

theorem handle (hintact : exchange.hub.directory.Intact) (hopen : exchange.isOpen = true)
    (hevent : ∀ id peer, event ≠ .register id peer) {orders : List Order} (phase : Phase) :
    Amounts exchange [{ exchange := { exchange with orders }, event }]
      { Exchange.handle { exchange with orders } [event] with phase } := by
  obtain ⟨hub, effects, hhandle⟩ := Hub.exists_handle_of_ne hintact hevent
  refine .of_handle hopen (exchange.hub.admits_of_ne hevent)
    (fun id peer heq => absurd heq (hevent id peer)) hhandle fun id => ?_
  have hkept : (Exchange.handle { exchange with orders } [event]).registrations =
      exchange.registrations := by
    rcases handle_eq { exchange with orders } event with ⟨_, _, _, -, heq⟩ | ⟨defect, herror, -⟩
    · rw [heq]
    · cases hhandle.symm.trans herror
  rw [hkept, or_iff_left]
  rintro ⟨peer, heq⟩
  exact hevent id peer heq

theorem register (hphase : exchange.phase = .running) {peer : Option SocketAddress}
    {orders : List Order} (hpending : exchange.registrations[id]? = some .pending)
    (hadmits : exchange.hub.Admits (.register id peer)) :
    Amounts exchange [{ exchange := { exchange with orders }, event := .register id peer }]
      (Exchange.takeOrder { exchange with orders } (.register id peer)) := by
  rw [takeOrder_register (by exact hphase)]
  dsimp only
  rcases handle_eq { exchange with orders } (.register id peer) with
    ⟨hub, effects, outboxes, hhandle, heq⟩ | ⟨defect, herror, heq⟩
  · have hopen : (Exchange.handle { exchange with orders } [.register id peer]).isOpen = true := by
      rw [heq, isOpen]
      dsimp only
      rw [hphase]
    rw [if_pos hopen]
    refine .of_handle (by rw [isOpen, hphase]) hadmits ?_ hhandle fun other => ?_
    · rintro other peer' hother
      obtain ⟨rfl, -⟩ := Event.register.inj hother
      exact hpending
    · rw [heq, ExtTreeMap.getElem?_insert]
      split
      next hsame =>
        obtain rfl := Std.compare_eq_iff_eq.1 hsame
        exact iff_of_true rfl (Or.inr ⟨peer, rfl⟩)
      next hne =>
        rw [or_iff_left]
        rintro ⟨peer', hother⟩
        exact hne (Std.compare_eq_iff_eq.2 (Event.register.inj hother).1)
  · rw [heq, if_neg (by simp [isOpen, Exchange.halt])]
    refine .halt _ fun moment hmem => ?_
    obtain rfl := List.mem_singleton.1 hmem
    refine ⟨⟨id, peer, rfl⟩, fun other => ?_⟩
    rw [Moment.dueTo, herror]

/-- Nothing gets into an outbox but what is put there as the event is handled. -/
theorem queuedFor_suffix (h : Amounts exchange moments exchange') (id : ClientId) :
    exchange'.queuedFor id <:+ exchange.queuedFor id ++ moments.flatMap (·.queuedTo id) := by
  cases h with
  | nothing hfailed _ houtbox =>
    have hnone : moments.flatMap (·.queuedTo id) = [] :=
      List.flatMap_eq_nil_iff.2 fun moment hmem => Moment.queuedTo_eq_nil ((hfailed moment hmem).2 id)
    rw [hnone, List.append_nil, queuedFor, queuedFor]
    cases hid : exchange'.outboxes[id]? with
    | none => exact List.nil_suffix
    | some outbox' =>
      rcases houtbox id outbox' hid with ⟨-, capacity, -, rfl⟩ | ⟨outbox, hfound, hdwindles⟩
      · exact List.nil_suffix
      · rw [hfound]
        exact hdwindles.lines
  | event _ _ _ _ _ _ _ _ _ _ hqueued =>
    exact ⟨[], by rw [List.nil_append, hqueued, List.flatMap_singleton]⟩

end Amounts

theorem momentsOf_register (h : exchange.phase = .running) (id : ClientId)
    (peer : Option SocketAddress) : exchange.momentsOf (.register id peer) =
      [{ exchange, event := .register id peer }] := by
  rw [momentsOf]
  exact h

theorem momentsOf_shutdown (h : exchange.phase = .running) :
    exchange.momentsOf .shutdown = [{ exchange, event := .shutdown }] := by
  rw [momentsOf]
  exact h

theorem momentsOf_of_ne (h : exchange.phase ≠ .running) (order : Order) :
    exchange.momentsOf order = [] := by
  unfold momentsOf
  split
  next hrunning => exact absurd hrunning h
  next hrunning => exact absurd hrunning h
  next => rfl

theorem Incident.amounts (h : Incident exchange moments exchange') (hsound : exchange.Sound settings) :
    Amounts exchange moments exchange' := by
  have hintact := hsound.reachable.intact
  cases h with
  | connect hnew houtbox =>
    obtain rfl := Outbox.eq_of_new houtbox
    exact .connect hnew (Outbox.pos_of_new houtbox)
  | post _ hpost =>
    obtain rfl := eq_of_post hpost
    exact .of_same rfl rfl (.refl _) rfl
  | giveUp hpending _ => exact .refuse hpending
  | work hnarrows => exact .of_same rfl rfl hnarrows rfl
  | take houtbox htake =>
    apply Amounts.updateOutbox
    intro outbox hfound
    obtain rfl := Option.some.inj (houtbox.symm.trans hfound)
    exact .take htake
  | stopReading => exact .updateOutbox fun outbox _ => .stopReading outbox
  | pass | dropHandles | leave => exact .of_same rfl rfl (.refl _) rfl
  | @order order orders hopen horders hstays =>
    cases order with
    | register id peer =>
      have hpending := hsound.pending (by rw [horders]; exact List.mem_cons_self)
      by_cases hphase : exchange.phase = .running
      · rw [momentsOf_register (by exact hphase)]
        exact .register hphase hpending (hsound.not_mem_of_pending hpending)
      · rw [momentsOf_of_ne (by exact hphase), takeOrder_register_of_ne (by exact hphase)]
        exact .of_fewer_orders (.refuse hpending)
    -- Exits are taken by `leave` alone.
    | exited id => exact absurd rfl (hstays id)
    | shutdown =>
      by_cases hphase : exchange.phase = .running
      · rw [momentsOf_shutdown (by exact hphase), takeOrder_shutdown (by exact hphase)]
        exact .handle hintact hopen (by simp) _
      · rw [momentsOf_of_ne (by exact hphase), takeOrder_shutdown_of_ne (by exact hphase)]
        exact .of_same rfl rfl (.refl _) rfl
  | @hear event hopen hreport =>
    have hphase : exchange.handle [event] =
        { exchange.handle [event] with phase := (exchange.handle [event]).phase } := rfl
    rw [hphase]
    exact .handle hintact hopen (Event.ne_register hreport) _
  | close hphase => exact .handle hintact (by rw [isOpen, hphase]) (by simp) _
  | stop => exact .halt _ (by simp)

theorem Incident.ask {peer : Option SocketAddress} (hpending : exchange.registrations[id]? = some .pending)
    (hunasked : ∀ peer, .register id peer ∉ exchange.orders)
    (hpost : exchange.post (.register id peer) = .accepted exchange') : Incident exchange [] exchange' := by
  refine .post ?_ hpost
  rintro other peer' heq
  obtain ⟨rfl, -⟩ := Order.register.inj heq
  exact ⟨hpending, hunasked⟩

theorem Incident.eq_nil_or_singleton (h : Incident exchange moments exchange') :
    moments = [] ∨ ∃ moment, moments = [moment] := by
  cases h with
  | connect | post | giveUp | work | take | stopReading | pass | dropHandles | leave | stop =>
    exact Or.inl rfl
  | order =>
    unfold momentsOf
    split
    next => exact Or.inr ⟨_, rfl⟩
    next => exact Or.inr ⟨_, rfl⟩
    next => exact Or.inl rfl
  | hear | close => exact Or.inr ⟨_, rfl⟩

theorem Incident.sound (h : Incident exchange moments exchange') (hsound : exchange.Sound settings) :
    exchange'.Sound settings := by
  cases h with
  | connect hnew _ => exact hsound.connect hnew _
  | post hgives hpost => exact hsound.post hpost hgives
  | giveUp hpending hunasked => exact hsound.refuse hpending hunasked
  | work | take | stopReading | pass | dropHandles =>
    exact hsound.of_same rfl rfl (List.Sublist.refl _)
  | order _ horders hstays => exact hsound.takeOrder horders hstays
  | leave horders =>
    refine hsound.of_same rfl rfl ?_
    rw [horders]
    exact List.sublist_cons_self _ _
  | hear _ hreport => exact hsound.handle (Event.ne_register hreport)
  | close => exact hsound.beginClosing
  | stop => exact hsound.halt _

theorem Incident.serves (h : Incident exchange moments exchange') (hsound : exchange.Sound settings)
    (hserves : exchange.Serves) : exchange'.Serves := by
  cases h with
  | connect _ houtbox =>
    obtain rfl := Outbox.eq_of_new houtbox
    exact hserves.connect rfl
  | post _ hpost =>
    obtain rfl := eq_of_post hpost
    exact hserves.of_same rfl rfl rfl rfl
  | giveUp hpending _ => exact hserves.refuse (hsound.not_mem_of_pending hpending)
  | work | pass | dropHandles | leave => exact hserves.of_same rfl rfl rfl rfl
  | take houtbox htake =>
    apply hserves.updateOutbox
    intro outbox hfound hheld
    obtain rfl := Option.some.inj (houtbox.symm.trans hfound)
    exact (Outbox.isHeld_of_take htake).trans hheld
  | stopReading => exact hserves.updateOutbox fun _ _ hheld => hheld
  | @order order orders hopen horders hstays =>
    have hrest : Serves { exchange with orders } := hserves.of_same rfl rfl rfl rfl
    have hrests : Sound settings { exchange with orders } :=
      hsound.of_same rfl rfl (by rw [horders]; exact List.sublist_cons_self _ _)
    apply hrest.takeOrder hrests hopen hstays
    rintro id peer rfl
    exact hsound.pending (by rw [horders]; exact List.mem_cons_self)
  | hear _ hreport =>
    exact hserves.handle hsound fun id peer heq => absurd heq (Event.ne_register hreport id peer)
  | close hphase _ _ => exact hserves.beginClosing hsound (by rw [isOpen, hphase])
  | stop => exact .halt exchange (Or.inl rfl)

theorem intact_handle_of_ne (hintact : exchange.hub.directory.Intact)
    (hevent : ∀ id peer, event ≠ .register id peer) :
    (exchange.handle [event]).hub.directory.Intact := by
  obtain ⟨hub, effects, hhandle⟩ := Hub.exists_handle_of_ne hintact hevent
  obtain ⟨hhub, -⟩ := @Moment.getElem?_after { exchange, event } hub effects hhandle
  show (Moment.after { exchange, event }).hub.directory.Intact
  rw [hhub]
  exact (Hub.steps_of_handle hhandle).intact hintact (exchange.hub.admits_of_ne hevent)

theorem handle_append_of_ne {events more : List Event} (hintact : exchange.hub.directory.Intact)
    (hevents : ∀ event ∈ events ++ more, ∀ id peer, event ≠ .register id peer) :
    exchange.handle (events ++ more) = (exchange.handle events).handle more := by
  induction events generalizing exchange with
  | nil => rfl
  | cons event events ih =>
    rw [List.cons_append] at hevents ⊢
    have hevent := hevents event List.mem_cons_self
    have hfirst : ∀ other ∈ event :: events, ∀ id peer, other ≠ .register id peer :=
      fun other hmem => hevents other (List.mem_append_left more hmem)
    rw [handle_cons_of_ne hintact hevents, handle_cons_of_ne hintact hfirst]
    exact ih (intact_handle_of_ne hintact hevent) fun other hmem =>
      hevents other (List.mem_cons_of_mem event hmem)

namespace Course

theorem single (h : Incident exchange moments exchange') : Course exchange moments exchange' :=
  .step .refl h

theorem trans (h : Course start moments exchange) (hmore : Course exchange more exchange') :
    Course start (moments ++ more) exchange' := by
  induction hmore with
  | refl =>
    rw [List.append_nil]
    exact h
  | step _ hincident ih =>
    rw [← List.append_assoc]
    exact ih.step hincident

theorem sound (h : Course start moments exchange) (hsound : start.Sound settings) :
    exchange.Sound settings := by
  induction h with
  | refl => exact hsound
  | step _ hincident ih => exact hincident.sound ih

theorem serves (h : Course start moments exchange) (hsound : start.Sound settings)
    (hserves : start.Serves) : exchange.Serves := by
  induction h with
  | refl => exact hserves
  | step before hincident ih => exact hincident.serves (before.sound hsound) ih

theorem preserves {P : Exchange → Prop} (h : Course start moments exchange)
    (hsound : start.Sound settings)
    (hstep : ∀ {before after : Exchange} {moments : List Moment}, before.Sound settings →
      Amounts before moments after → P before → P after) (hstart : P start) : P exchange := by
  induction h with
  | refl => exact hstart
  | step before hincident ih =>
    have hbefore := before.sound hsound
    exact hstep hbefore (hincident.amounts hbefore) ih

/-- Whatever waits for a client was there at the start or has come since, and waits in that order. -/
theorem queuedFor_suffix (h : Course start moments exchange) (hsound : start.Sound settings)
    (id : ClientId) :
    exchange.queuedFor id <:+ start.queuedFor id ++ moments.flatMap (·.queuedTo id) := by
  induction h with
  | refl => exact ⟨[], by rw [List.nil_append, List.flatMap_nil, List.append_nil]⟩
  | step before hincident ih =>
    obtain ⟨missed, hmissed⟩ := ih
    rw [List.flatMap_append, ← List.append_assoc, ← hmissed, List.append_assoc]
    exact ((hincident.amounts (before.sound hsound)).queuedFor_suffix id).trans
      (List.suffix_append _ _)

theorem exists_incident (h : Course start moments finish) (hsplit : moments = earlier ++ moment :: later) :
    ∃ before after, Course start earlier before ∧ Incident before [moment] after ∧
      Course after later finish := by
  induction h generalizing later with
  | refl => simp at hsplit
  | @step moments more exchange exchange' before hincident ih =>
    -- The last incident is either without a moment, or its moment is the last of all.
    rcases hincident.eq_nil_or_singleton with rfl | ⟨last, rfl⟩
    · rw [List.append_nil] at hsplit
      obtain ⟨between, after, hearlier, hat, hlater⟩ := ih hsplit
      have hfinish := hlater.step hincident
      rw [List.append_nil] at hfinish
      exact ⟨between, after, hearlier, hat, hfinish⟩
    · rcases List.eq_nil_or_concat later with rfl | ⟨rest, final, rfl⟩
      · obtain ⟨rfl, hlast⟩ := List.append_inj' hsplit rfl
        obtain rfl := List.singleton_inj.1 hlast
        exact ⟨exchange, exchange', before, hincident, .refl⟩
      · rw [List.concat_eq_append, ← List.cons_append, ← List.append_assoc] at hsplit
        obtain ⟨hmoments, hfinal⟩ := List.append_inj' hsplit rfl
        obtain rfl := List.singleton_inj.1 hfinal
        obtain ⟨between, after, hearlier, hat, hlater⟩ := ih hmoments
        rw [List.concat_eq_append]
        exact ⟨between, after, hearlier, hat, hlater.step hincident⟩

/-- Events that are reported one after the other come to a batch of them. -/
theorem of_reports {events : List Event} (hintact : exchange.hub.directory.Intact)
    (hopen : exchange.isOpen = true) (hreports : ∀ event ∈ events, event.isReport = true) :
    ∃ moments, Course exchange moments (exchange.handle events) := by
  induction events generalizing exchange with
  | nil => exact ⟨[], .refl⟩
  | cons event events ih =>
    have hreport := hreports event List.mem_cons_self
    obtain ⟨moments, hmoments⟩ := ih (intact_handle_of_ne hintact (Event.ne_register hreport))
      ((isOpen_handle hintact (Event.ne_register hreport)).trans hopen)
      fun other hmem => hreports other (List.mem_cons_of_mem _ hmem)
    rw [handle_cons_of_ne hintact fun other hmem => Event.ne_register (hreports other hmem)]
    exact ⟨_, (single (.hear hopen hreport)).trans hmoments⟩

theorem isReport_of_mem_batch {batch : List Envelope} (hmem : event ∈ batch.map Envelope.event) :
    event.isReport = true := by
  obtain ⟨⟨id, report⟩, -, rfl⟩ := List.mem_map.1 hmem
  cases report <;> rfl

theorem takeExit (hintact : exchange.hub.directory.Intact) (hopen : exchange.isOpen = true)
    (id : ClientId) : ∃ moments, Course exchange moments (exchange.takeExit id) := by
  have hreports : ∀ event ∈ exchange.intake.drain.2.map Envelope.event ++ [.exited id],
      event.isReport = true := by
    intro event hmem
    rcases List.mem_append.1 hmem with hmem | hmem
    · exact isReport_of_mem_batch hmem
    · obtain rfl := List.mem_singleton.1 hmem
      rfl
  obtain ⟨moments, hmoments⟩ :=
    @of_reports { exchange with intake := exchange.intake.drain.1 } _ hintact hopen hreports
  exact ⟨_, (single (.work (Intake.Narrows.drain _))).trans hmoments⟩

theorem takeNext? (hintact : exchange.hub.directory.Intact) (hopen : exchange.isOpen = true)
    (hnext : exchange.takeNext? = some exchange') : ∃ moments, Course exchange moments exchange' := by
  unfold Exchange.takeNext? at hnext
  split at hnext
  next order orders horders =>
    obtain rfl := Option.some.inj hnext
    by_cases hstays : ∀ id, order ≠ .exited id
    · exact ⟨_, single (.order hopen horders hstays)⟩
    · obtain ⟨id, hexit⟩ := not_forall.1 hstays
      obtain rfl : order = .exited id := not_not.1 hexit
      obtain ⟨moments, hmoments⟩ := @takeExit { exchange with orders } hintact hopen id
      exact ⟨_, (single (.leave horders)).trans hmoments⟩
  next =>
    obtain ⟨⟨intake, batch⟩, hbatch, rfl⟩ := Option.map_eq_some_iff.1 hnext
    obtain ⟨moments, hmoments⟩ :=
      @of_reports { exchange with intake } (batch.map Envelope.event) hintact hopen
        fun event hmem => isReport_of_mem_batch hmem
    exact ⟨_, (single (.work (Intake.Narrows.next? hbatch))).trans hmoments⟩

theorem advance (hintact : exchange.hub.directory.Intact)
    (hadvance : exchange.advance = some exchange') : ∃ moments, Course exchange moments exchange' := by
  unfold Exchange.advance at hadvance
  split at hadvance
  next hphase =>
    split at hadvance
    next hover =>
      obtain rfl := Option.some.inj hadvance
      simp only [Bool.and_eq_true, List.isEmpty_iff, Bool.not_eq_true'] at hover
      exact ⟨_, single (.close hphase hover.1 hover.2)⟩
    next => exact takeNext? hintact (by rw [isOpen, hphase]) hadvance
  next deadline hphase =>
    split at hadvance
    next hover =>
      obtain rfl := Option.some.inj hadvance
      simp only [Bool.or_eq_true, decide_eq_true_eq] at hover
      exact ⟨_, single (.stop hphase hover)⟩
    next => exact takeNext? hintact (by rw [isOpen, hphase]) hadvance
  next => cases hadvance
  next => cases hadvance

end Course

namespace Chronicle

theorem extend (h : Chronicle settings moments exchange) (hmore : Course exchange more exchange') :
    Chronicle settings (moments ++ more) exchange' := by
  obtain ⟨start, hnew, hcourse⟩ := h
  exact ⟨start, hnew, hcourse.trans hmore⟩

theorem step (h : Chronicle settings moments exchange) (hincident : Incident exchange more exchange') :
    Chronicle settings (moments ++ more) exchange' :=
  h.extend (.single hincident)

theorem sound (h : Chronicle settings moments exchange) : exchange.Sound settings := by
  obtain ⟨start, hnew, hcourse⟩ := h
  exact hcourse.sound (.of_new hnew)

theorem serves (h : Chronicle settings moments exchange) : exchange.Serves := by
  obtain ⟨start, hnew, hcourse⟩ := h
  refine hcourse.serves (.of_new hnew) ?_
  obtain ⟨room, -, rfl⟩ := exists_of_new hnew
  rintro - id (⟨_, _, hclient, -⟩ | hpending)
  · exact absurd (Maps.mem_of_getElem? hclient) ExtTreeMap.not_mem_empty
  · simp at hpending

/-- What the hub handled at any time, it handled as part of a course from then on. -/
theorem exists_incident (h : Chronicle settings moments exchange)
    (hsplit : moments = earlier ++ moment :: later) :
    ∃ before after, Chronicle settings earlier before ∧ Amounts before [moment] after ∧
      Course after later exchange ∧ Chronicle settings (earlier ++ [moment]) after := by
  obtain ⟨start, hnew, hcourse⟩ := h
  obtain ⟨before, after, hearlier, hat, hlater⟩ := hcourse.exists_incident hsplit
  exact ⟨before, after, ⟨start, hnew, hearlier⟩, hat.amounts (hearlier.sound (.of_new hnew)), hlater,
    start, hnew, hearlier.step hat⟩

end Chronicle

end Exchange

namespace Floor

variable {settings : Settings} {trace happenings : List Happening} {floor floor' : Floor}

/-- Whatever anybody can do between any two steps of the hub is part of a course too. -/
theorem Step.course (hstep : Step floor happenings floor')
    (hreports : ∀ event ∈ floor.activity.events, event.isReport = true) :
    (∃ moments, Exchange.Course floor.exchange moments floor'.exchange) ∧
      ∀ event ∈ floor'.activity.events, event.isReport = true := by
  have hnone (event : Event) : event ∈ ([] : List Event) → event.isReport = true :=
    fun hmem => absurd hmem List.not_mem_nil
  cases hstep with
  | connect hnew houtbox => exact ⟨⟨_, .single (.connect hnew houtbox)⟩, hreports⟩
  | post hgives hpost =>
    refine ⟨⟨_, .single (.post ?_ hpost)⟩, hreports⟩
    rintro id peer rfl
    exact hgives
  | giveUp hpending hunasked => exact ⟨⟨_, .single (.giveUp hpending hunasked)⟩, hreports⟩
  | write _ _ _ hwrite => exact ⟨⟨_, .single (.work (.write hwrite))⟩, hreports⟩
  | letGo _ _ hletGo => exact ⟨⟨_, .single (.work (.letGo hletGo))⟩, hreports⟩
  | vanish => exact ⟨⟨_, .refl⟩, hreports⟩
  | ring => exact ⟨⟨_, .single (.work .ring)⟩, hreports⟩
  | take houtbox htake => exact ⟨⟨_, .single (.take houtbox htake)⟩, hreports⟩
  | stopReading id => exact ⟨⟨_, .single (.stopReading id)⟩, hreports⟩
  | pass time => exact ⟨⟨_, .single (.pass time)⟩, hreports⟩
  | dropHandles => exact ⟨⟨_, .single .dropHandles⟩, hreports⟩
  | order _ hready horders hstays =>
    exact ⟨⟨_, .single (.order (Exchange.isOpen_of_isReady hready) horders hstays)⟩, hreports⟩
  | leave _ _ horders _ => exact ⟨⟨_, .single (.leave horders)⟩, hnone⟩
  | answer => exact ⟨⟨_, .single (.work .hush)⟩, hnone⟩
  | gather _ hgather => exact ⟨⟨_, .single (.work (.gather hgather))⟩, hnone⟩
  | @conclude round leaver =>
    refine ⟨⟨_, .single (.work (.conclude _ _))⟩, fun event hmem => ?_⟩
    rcases List.mem_append.1 hmem with hmem | hmem
    · exact Exchange.Course.isReport_of_mem_batch hmem
    · obtain ⟨id, -, rfl⟩ := List.mem_map.1 hmem
      rfl
  | @handle event events hactivity hopen =>
    rw [hactivity] at hreports
    refine ⟨⟨_, .single (.hear hopen (hreports event List.mem_cons_self))⟩, fun other hmem => ?_⟩
    exact hreports other (List.mem_cons_of_mem _ hmem)
  | close _ hphase horders hhandles => exact ⟨⟨_, .single (.close hphase horders hhandles)⟩, hreports⟩
  | stop _ hphase hover => exact ⟨⟨_, .single (.stop hphase hover)⟩, hreports⟩

theorem Stir.course (hstir : Stir floor happenings floor')
    (hreports : ∀ event ∈ floor.activity.events, event.isReport = true) :
    (∃ moments, Exchange.Course floor.exchange moments floor'.exchange) ∧
      ∀ event ∈ floor'.activity.events, event.isReport = true := by
  cases hstir with
  | step hstep => exact hstep.course hreports
  | write _ _ hwrite => exact ⟨⟨_, .single (.work (.write hwrite))⟩, hreports⟩
  | report hpost => exact ⟨⟨_, .single (.post (by simp) hpost)⟩, hreports⟩

theorem Bustle.chronicle (h : Bustle settings trace floor) :
    (∃ moments, Exchange.Chronicle settings moments floor.exchange) ∧
      ∀ event ∈ floor.activity.events, event.isReport = true := by
  refine h.preserves (P := fun _ floor => (∃ moments, Exchange.Chronicle settings moments floor.exchange) ∧
    ∀ event ∈ floor.activity.events, event.isReport = true) (fun exchange hnew => ?_)
    fun _ hbefore hstir => ?_
  · exact ⟨⟨[], exchange, hnew, .refl⟩, fun event hmem => absurd hmem List.not_mem_nil⟩
  · obtain ⟨⟨moments, hmoments⟩, hreports⟩ := hbefore
    obtain ⟨⟨more, hmore⟩, hreports'⟩ := hstir.course hreports
    exact ⟨⟨_, hmoments.extend hmore⟩, hreports'⟩

end Floor

end ChatRooms
