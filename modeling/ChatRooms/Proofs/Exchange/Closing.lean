import ChatRooms.Proofs.Exchange.Lifecycle

namespace ChatRooms

open Std

namespace Outbox

variable {hub : Hub} {id : ClientId}

/-- What the hub's leave-taking does to an outbox: the client is told, if it is heard, and let go. -/
theorem foldl_absorb_closeAll {client : Occupant} (hid : hub.directory.occupants[id]? = some client)
    (outbox : Outbox) : hub.closeAll.2.foldl (absorb id) outbox =
      (if client.isActive then outbox.offer Notice.shuttingDown.line else outbox).hangUp := by
  rw [← foldl_absorb_filter, Hub.filter_closeAll, hid, Option.map_some, Option.getD_some, Hub.farewell]
  split <;> simp [absorb]

theorem foldl_absorb_closeAll_of_none (hid : hub.directory.occupants[id]? = none) (outbox : Outbox) :
    hub.closeAll.2.foldl (absorb id) outbox = outbox := by
  rw [← foldl_absorb_filter, Hub.filter_closeAll, hid]
  rfl

end Outbox

namespace Exchange

variable {settings : Settings} {start exchange exchange' closing later : Exchange} {id : ClientId}
  {past moments more : List Moment} {moment : Moment} {client : Occupant} {deadline : Nat}

theorem beginClosing_eq (exchange : Exchange) : ∃ outboxes,
    exchange.beginClosing = { exchange with
      hub := exchange.hub.closeAll.1
      intake := exchange.hub.closeAll.2.foldl Intake.absorb exchange.intake
      outboxes
      phase := .closing (Clock.deadline exchange.clock exchange.patience) } ∧
    ∀ id : ClientId, outboxes[id]? = exchange.outboxes[id]?.map fun outbox =>
      exchange.hub.closeAll.2.foldl (Outbox.absorb id) outbox := by
  have hclose : exchange.hub.handle .shutdown = .ok exchange.hub.closeAll := rfl
  rcases handle_eq exchange .shutdown with ⟨hub, effects, outboxes, hhandle, heq⟩ | ⟨defect, herror, -⟩
  · have hparting : exchange.hub.closeAll = (hub, effects) :=
      Except.ok.inj (hclose.symm.trans hhandle)
    have houtboxes := getElem?_outboxes_handle hhandle
    rw [heq] at houtboxes
    refine ⟨outboxes, ?_, ?_⟩
    · rw [beginClosing, heq, hparting]
    · rw [hparting]
      exact houtboxes
  · cases hclose.symm.trans herror

theorem getElem?_closeAll (hub : Hub) (id : ClientId) : hub.closeAll.1.directory.occupants[id]? =
    hub.directory.occupants[id]?.map Occupant.hangUp := by
  simp only [Hub.closeAll, Directory.hangUpAll, ExtTreeMap.getElem?_map]

theorem beginClosing_of_some (hid : exchange.hub.directory.occupants[id]? = some client) :
    exchange.beginClosing.hub.directory.occupants[id]? = some client.hangUp ∧
      exchange.beginClosing.outboxes[id]? = exchange.outboxes[id]?.map fun outbox =>
        (if client.isActive then outbox.offer Notice.shuttingDown.line else outbox).hangUp := by
  obtain ⟨outboxes, heq, houtboxes⟩ := exchange.beginClosing_eq
  rw [heq]
  refine ⟨by rw [getElem?_closeAll, hid, Option.map_some], ?_⟩
  rw [houtboxes]
  simp only [Outbox.foldl_absorb_closeAll hid]

theorem beginClosing_of_none (hid : exchange.hub.directory.occupants[id]? = none) :
    exchange.beginClosing.hub.directory.occupants[id]? = none ∧
      exchange.beginClosing.outboxes[id]? = exchange.outboxes[id]? := by
  obtain ⟨outboxes, heq, houtboxes⟩ := exchange.beginClosing_eq
  rw [heq]
  refine ⟨by rw [getElem?_closeAll, hid, Option.map_none], ?_⟩
  rw [houtboxes]
  simp only [Outbox.foldl_absorb_closeAll_of_none hid, Option.map_id']

theorem phase_beginClosing (exchange : Exchange) : exchange.beginClosing.phase =
    .closing (Clock.deadline exchange.clock exchange.patience) := by
  obtain ⟨outboxes, heq, -⟩ := exchange.beginClosing_eq
  rw [heq]

def Quiet (exchange : Exchange) : Prop :=
  ∀ (id : ClientId) (client : Occupant), exchange.hub.directory.occupants[id]? = some client →
    client.presence = .disconnected

theorem quiet_beginClosing (exchange : Exchange) : exchange.beginClosing.Quiet := by
  intro id client hid
  cases hbefore : exchange.hub.directory.occupants[id]? with
  | none => cases (beginClosing_of_none hbefore).1.symm.trans hid
  | some found =>
    rw [← Option.some.inj ((beginClosing_of_some hbefore).1.symm.trans hid)]
    rfl

theorem not_holds_beginClosing (hid : id ∈ exchange.beginClosing.hub.directory.occupants) :
    ¬exchange.beginClosing.Holds id := by
  rintro ⟨outbox, houtbox, hheld⟩
  cases hbefore : exchange.hub.directory.occupants[id]? with
  | none => exact Maps.not_mem_of_getElem? (beginClosing_of_none hbefore).1 hid
  | some client =>
    rw [(beginClosing_of_some hbefore).2] at houtbox
    obtain ⟨_, -, rfl⟩ := Option.map_eq_some_iff.1 houtbox
    cases hheld

/-- When a shutdown is taken, and when nobody is left who could give an order, the hub begins to close. -/
theorem advance_eq_beginClosing (hphase : exchange.phase = .running)
    (hover : (∃ orders, exchange.orders = .shutdown :: orders) ∨
      exchange.orders = [] ∧ exchange.hasHandles = false) :
    ∃ orders, orders.Sublist exchange.orders ∧
      exchange.advance = some (beginClosing { exchange with orders }) := by
  have hturn : exchange.advance = if exchange.orders.isEmpty && !exchange.hasHandles then
      some exchange.beginClosing else exchange.takeNext? := by
    rw [advance, hphase]
  rcases hover with ⟨orders, horders⟩ | ⟨horders, hhandles⟩
  · refine ⟨orders, by rw [horders]; exact List.sublist_cons_self _ _, ?_⟩
    rw [hturn, takeNext?, horders, List.isEmpty_cons, Bool.false_and, if_neg Bool.false_ne_true]
    exact congrArg some (takeOrder_shutdown (by exact hphase))
  · refine ⟨exchange.orders, List.Sublist.refl _, ?_⟩
    rw [hturn, if_pos]
    rw [horders, hhandles]
    rfl

theorem Amounts.dueTo_eq_nil_of_quiet (h : Amounts exchange moments exchange')
    (hsound : exchange.Sound settings) (hquiet : exchange.Quiet)
    (hreports : ∀ moment ∈ moments, moment.event.isReport = true) :
    ∀ moment ∈ moments, ∀ id, moment.dueTo id = [] := by
  intro moment hmem id
  have hreport := hreports moment hmem
  cases h with
  | nothing hfailed => exact (hfailed moment hmem).2 id
  | event _ _ hadmits _ hhandle _ _ _ _ hdue =>
    obtain rfl := List.mem_singleton.1 hmem
    rw [hdue]
    apply Hub.noticesFor_eq_nil
    intro notice hnotice
    rcases (Hub.steps_of_handle hhandle).exists_seat hsound.reachable.intact hadmits hnotice with
      ⟨room, client, hid, hactive, -⟩ | ⟨peer, heq⟩
    · rw [Occupant.isActive, hquiet id client hid] at hactive
      cases hactive
    · exact Event.ne_register hreport id peer heq

/-- Nobody comes in by a report, and where nobody is heard nobody is changed by one. -/
theorem Amounts.kept (h : Amounts exchange moments exchange') (hsound : exchange.Sound settings)
    (hquiet : exchange.Quiet) (hreports : ∀ moment ∈ moments, moment.event.isReport = true)
    (hid : exchange'.hub.directory.occupants[id]? = some client) :
    exchange.hub.directory.occupants[id]? = some client := by
  have hmem : id ∈ exchange.hub.directory.occupants := by
    cases h with
    | nothing _ hhub => exact hhub ▸ Maps.mem_of_getElem? hid
    | event _ _ _ _ hhandle hhub =>
      rw [hhub] at hid
      refine ((Hub.steps_of_handle hhandle).mem_occupants hsound.reachable.intact
        (Maps.mem_of_getElem? hid)).resolve_right ?_
      rintro ⟨peer, heq⟩
      exact Event.ne_register (hreports _ List.mem_cons_self) id peer heq
  obtain ⟨found, hfound⟩ := Maps.mem_iff_exists.1 hmem
  have hpresence := hquiet id found hfound
  rcases h.entry hsound hfound with ⟨client', hclient', hbecomes⟩ | ⟨hnone, -⟩
  · obtain rfl := Option.some.inj (hclient'.symm.trans hid)
    rcases hbecomes with rfl | hactive | rfl
    · exact hfound
    · rw [Occupant.isActive, hpresence] at hactive
      cases hactive
    · rw [hfound, Occupant.hangUp, ← hpresence]
  · cases hnone.symm.trans hid

theorem Amounts.accepted_iff (h : Amounts exchange moments exchange')
    (hreports : ∀ moment ∈ moments, moment.event.isReport = true) (id : ClientId) :
    exchange'.registrations[id]? = some .accepted ↔ exchange.registrations[id]? = some .accepted := by
  cases h with
  | nothing _ _ _ _ haccepted => exact haccepted id
  | event _ _ _ _ _ _ _ _ haccepted =>
    rw [haccepted, or_iff_left]
    rintro ⟨peer, heq⟩
    exact Event.ne_register (hreports _ List.mem_cons_self) id peer heq

/-- The hub is waiting for its clients, or has stopped because they were gone or the time was up. -/
def Waits (exchange : Exchange) (deadline : Nat) : Prop :=
  exchange.phase = .closing deadline ∨
    exchange.phase = .stopped ∧
      (exchange.hub.directory.isEmpty = true ∨ deadline ≤ exchange.clock)

theorem Waits.ne_running (h : exchange.Waits deadline) : exchange.phase ≠ .running := by
  rcases h with hphase | ⟨hphase, -⟩ <;> simp [hphase]

theorem Waits.of_same (h : exchange.Waits deadline) (hphase : exchange'.phase = exchange.phase)
    (hhub : exchange'.hub = exchange.hub) (hclock : exchange.clock ≤ exchange'.clock) :
    exchange'.Waits deadline := by
  rw [Waits, hphase, hhub]
  exact h.imp_right fun ⟨hstopped, hover⟩ => ⟨hstopped, hover.imp_right fun hle => hle.trans hclock⟩

theorem Incident.isReport_of_waits (h : Incident exchange moments exchange')
    (hwaits : exchange.Waits deadline) : ∀ moment ∈ moments, moment.event.isReport = true := by
  intro moment hmem
  cases h with
  | connect | post | giveUp | work | take | stopReading | pass | dropHandles | leave | stop => cases hmem
  | order =>
    rw [momentsOf_of_ne (by exact hwaits.ne_running)] at hmem
    cases hmem
  | hear _ hreport =>
    obtain rfl := List.mem_singleton.1 hmem
    exact hreport
  | close hphase => exact absurd hphase hwaits.ne_running

theorem Incident.waits (h : Incident exchange moments exchange') (hsound : exchange.Sound settings)
    (hwaits : exchange.Waits deadline) : exchange'.Waits deadline := by
  have hne := hwaits.ne_running
  cases h with
  | connect | giveUp | work | take | stopReading | dropHandles | leave =>
    exact hwaits.of_same rfl rfl (Nat.le_refl _)
  | post _ hpost =>
    obtain rfl := eq_of_post hpost
    exact hwaits.of_same rfl rfl (Nat.le_refl _)
  | pass => exact hwaits.of_same rfl rfl (Nat.le_add_right _ _)
  | @order order orders _ _ hstays =>
    cases order with
    | register id peer =>
      rw [takeOrder_register_of_ne (by exact hne)]
      exact hwaits.of_same rfl rfl (Nat.le_refl _)
    | exited id => exact absurd rfl (hstays id)
    | shutdown =>
      rw [takeOrder_shutdown_of_ne (by exact hne)]
      exact hwaits.of_same rfl rfl (Nat.le_refl _)
  | @hear event hopen hreport =>
    rcases hwaits with hphase | ⟨hphase, -⟩
    -- No report makes the hub fail, so the phase is what it was.
    · left
      rcases handle_eq exchange event with ⟨_, _, _, -, heq⟩ | ⟨defect, herror, -⟩
      · rw [heq]
        exact hphase
      · obtain ⟨_, _, hhandle⟩ :=
          Hub.exists_handle_of_ne hsound.reachable.intact (Event.ne_register hreport)
        cases hhandle.symm.trans herror
    · rw [isOpen, hphase] at hopen
      cases hopen
  | close hphase => exact absurd hphase hne
  | stop hphase hover =>
    rcases hwaits with hwaits | ⟨hstopped, -⟩
    · obtain rfl := Phase.closing.inj (hwaits.symm.trans hphase)
      exact Or.inr ⟨rfl, hover⟩
    · cases hphase.symm.trans hstopped

/-- What has become of an exchange since it began to close, while the hub handled the moments. -/
structure Silenced (closing : Exchange) (deadline : Nat) (moments : List Moment) (later : Exchange) :
    Prop where
  /-- Nobody gets a line. -/
  untold : ∀ moment ∈ moments, ∀ id, moment.dueTo id = [] ∧ moment.queuedTo id = []
  /-- Nobody is taken in, and nobody who is still there is changed. -/
  kept : ∀ (id : ClientId) (client : Occupant), later.hub.directory.occupants[id]? = some client →
    closing.hub.directory.occupants[id]? = some client
  accepted : ∀ id : ClientId, later.registrations[id]? = some .accepted ↔
    closing.registrations[id]? = some .accepted
  unheld : ∀ id ∈ closing.hub.directory.occupants, ¬later.Holds id
  waits : later.Waits deadline

theorem Silenced.step (h : Silenced closing deadline moments exchange)
    (hclosing : closing.Sound settings) (hquiet : closing.Quiet) (hsound : exchange.Sound settings)
    (hincident : Incident exchange more exchange') :
    Silenced closing deadline (moments ++ more) exchange' := by
  have hamounts := hincident.amounts hsound
  have hreports := hincident.isReport_of_waits h.waits
  have hstill : exchange.Quiet := fun id client hid => hquiet id client (h.kept id client hid)
  constructor
  case untold =>
    intro moment hmem id
    rcases List.mem_append.1 hmem with hmem | hmem
    · exact h.untold moment hmem id
    · have hdue := hamounts.dueTo_eq_nil_of_quiet hsound hstill hreports moment hmem id
      exact ⟨hdue, Moment.queuedTo_eq_nil hdue⟩
  case kept => exact fun id client hid => h.kept id client (hamounts.kept hsound hstill hreports hid)
  case accepted => exact fun id => (hamounts.accepted_iff hreports id).trans (h.accepted id)
  case unheld =>
    intro id hid hholds
    exact h.unheld id hid (hamounts.holds ((h.accepted id).2 (hclosing.accepted hid)) hholds)
  case waits => exact hincident.waits hsound h.waits

theorem Course.silenced (h : Course closing moments later) (hclosing : closing.Sound settings)
    (hquiet : closing.Quiet) (hphase : closing.phase = .closing deadline)
    (hunheld : ∀ id ∈ closing.hub.directory.occupants, ¬closing.Holds id) :
    Silenced closing deadline moments later := by
  induction h with
  | refl =>
    exact ⟨fun moment hmem => absurd hmem List.not_mem_nil, fun id client hid => hid,
      fun id => Iff.rfl, hunheld, Or.inl hphase⟩
  | step before hincident ih => exact ih.step hclosing hquiet (before.sound hclosing) hincident

theorem patience_handle (exchange : Exchange) (event : Event) :
    (exchange.handle [event]).patience = exchange.patience := by
  rcases handle_eq exchange event with ⟨_, _, _, -, heq⟩ | ⟨_, -, heq⟩
  · rw [heq]
  · rw [heq]
    rfl

theorem Incident.patience_eq (h : Incident exchange moments exchange') :
    exchange'.patience = exchange.patience := by
  cases h with
  | connect | giveUp | work | take | stopReading | pass | dropHandles | leave | stop => rfl
  | post _ hpost => rw [eq_of_post hpost]
  | @order order orders _ _ hstays =>
    have hhandle := patience_handle { exchange with orders }
    cases order with
    | register id peer =>
      by_cases hphase : exchange.phase = .running
      · rw [takeOrder_register (by exact hphase)]
        dsimp only
        split <;> exact hhandle _
      · rw [takeOrder_register_of_ne (by exact hphase)]
        rfl
    | exited id => exact absurd rfl (hstays id)
    | shutdown =>
      by_cases hphase : exchange.phase = .running
      · rw [takeOrder_shutdown (by exact hphase)]
        exact hhandle _
      · rw [takeOrder_shutdown_of_ne (by exact hphase)]
  | hear | close => exact patience_handle exchange _

theorem Chronicle.patience_eq (h : Chronicle settings past exchange) :
    exchange.patience = settings.shutdownTimeoutMs := by
  obtain ⟨start, hnew, hcourse⟩ := h
  induction hcourse with
  | refl =>
    obtain ⟨room, -, rfl⟩ := exists_of_new hnew
    rfl
  | step _ hincident ih => exact hincident.patience_eq.trans ih

theorem refused_of_halt (hpending : exchange.registrations[id]? = some .pending) (phase : Phase) :
    (exchange.halt phase).registrations[id]? = some .refused := by
  rw [getElem?_registrations_halt, hpending]
  rfl

/-- Whoever asks to be registered while the hub waits is refused when it is its turn. -/
theorem exists_advance_refused (hsound : later.Sound settings) (hphase : later.phase = .closing deadline)
    {peer : Option SocketAddress} {orders : List Order}
    (horders : later.orders = .register id peer :: orders) :
    ∃ next, later.advance = some next ∧ next.registrations[id]? = some .refused := by
  have hpending := hsound.pending (by rw [horders]; exact List.mem_cons_self)
  rw [advance, hphase]
  dsimp only
  split
  next =>
    exact ⟨_, rfl, refused_of_halt hpending .stopped⟩
  next =>
    rw [takeNext?, horders]
    refine ⟨_, rfl, ?_⟩
    rw [takeOrder_register_of_ne (by simp [hphase]), Exchange.refuse, ExtTreeMap.getElem?_insert_self]

/-- Closing: when a shutdown is taken or nobody is left who could give an order, everybody who is heard is
told so, as far as its outbox takes it, and everybody is let go. From then on nobody gets a line, comes
or changes, and clients only go as they are reclaimed, whatever else happens. The hub stops when nobody
is left or the time is up, and not before. -/
theorem Chronicle.closes_silently (h : Chronicle settings past exchange) (hphase : exchange.phase = .running)
    (hover : (∃ orders, exchange.orders = .shutdown :: orders) ∨
      exchange.orders = [] ∧ exchange.hasHandles = false) :
    ∃ closing deadline, exchange.advance = some closing ∧ closing.phase = .closing deadline ∧
      deadline = Clock.deadline exchange.clock settings.shutdownTimeoutMs ∧
      (∀ id client, exchange.hub.directory.occupants[id]? = some client →
        closing.hub.directory.occupants[id]? = some client.hangUp ∧ ¬closing.Holds id ∧
        (client.isActive = true → ∃ outbox, exchange.outboxes[id]? = some outbox ∧
          closing.outboxes[id]? = some (outbox.accept .shuttingDown).hangUp) ∧
        (client.isActive = false → closing.queuedFor id = exchange.queuedFor id)) ∧
      (∀ id ∉ exchange.hub.directory.occupants, id ∉ closing.hub.directory.occupants ∧
        closing.outboxes[id]? = exchange.outboxes[id]?) ∧
      ∀ moments later, Course closing moments later →
        Silenced closing deadline moments later ∧
        (∀ id, later.queuedFor id <:+ closing.queuedFor id) ∧
        (∀ id ∈ closing.hub.directory.occupants, id ∉ later.hub.directory.occupants →
          ∃ moment ∈ moments, moment.event = .exited id ∨ moment.event = .closed id) ∧
        later.hub.directory.audit = none ∧
        (later.phase = .closing deadline →
          (∀ id peer orders, later.orders = .register id peer :: orders →
            ∃ next, later.advance = some next ∧ next.registrations[id]? = some .refused) ∧
          (later.hub.directory.isEmpty = true ∨ deadline ≤ later.clock →
            ∃ stopped, later.advance = some stopped ∧ stopped.phase = .stopped ∧
              stopped.hub = later.hub ∧ ∀ id : ClientId, later.registrations[id]? = some .pending →
                stopped.registrations[id]? = some .refused)) ∧
        (later.phase = .stopped → ∀ order, later.post order = .closed) := by
  have hsound := h.sound
  have hopen : exchange.isOpen = true := by rw [isOpen, hphase]
  -- Both ways to be over lead to `beginClosing`, with the order that was taken left out.
  obtain ⟨orders, hsublist, hadvance⟩ := advance_eq_beginClosing hphase hover
  have hclosing : (beginClosing { exchange with orders }).Sound settings :=
    Sound.beginClosing (hsound.of_same rfl rfl (by exact hsublist))
  have hwaits := phase_beginClosing { exchange with orders }
  refine ⟨_, _, hadvance, hwaits, congrArg (Clock.deadline exchange.clock) h.patience_eq, ?_, ?_, ?_⟩
  · intro id client hid
    obtain ⟨hclient, houtbox⟩ := @beginClosing_of_some { exchange with orders } id client hid
    refine ⟨hclient, not_holds_beginClosing (Maps.mem_of_getElem? hclient), fun hactive => ?_, ?_⟩
    · obtain ⟨outbox, hfound, hheld⟩ := h.serves hopen id (Or.inl ⟨client.room, client, hid, hactive, rfl⟩)
      refine ⟨outbox, hfound, ?_⟩
      rw [houtbox, hfound, Option.map_some, if_pos hactive, Outbox.offer_eq_accept hheld]
    · intro hsilent
      rw [queuedFor, houtbox, hsilent, queuedFor]
      cases exchange.outboxes[id]? <;> rfl
  · intro id hid
    obtain ⟨hnone, houtbox⟩ :=
      @beginClosing_of_none { exchange with orders } id (ExtTreeMap.getElem?_eq_none hid)
    exact ⟨Maps.not_mem_of_getElem? hnone, houtbox⟩
  · intro moments later hlater
    -- From here on the course is a closing one: nobody holds an outbox, so nothing can be told.
    have hsilenced := hlater.silenced hclosing (quiet_beginClosing _) hwaits
      fun id hid => not_holds_beginClosing hid
    have hnow := hlater.sound hclosing
    refine ⟨hsilenced, fun id => ?_, fun id hid hgone => hlater.exists_trigger hclosing hid hgone,
      hnow.reachable.intact.audit_eq_none, fun hwaiting => ⟨?_, ?_⟩, ?_⟩
    · have hsuffix := hlater.queuedFor_suffix hclosing id
      rwa [List.flatMap_eq_nil_iff.2 fun moment hmem => (hsilenced.untold moment hmem id).2,
        List.append_nil] at hsuffix
    · exact fun id peer orders horders => exists_advance_refused hnow hwaiting horders
    · intro hend
      refine ⟨later.halt .stopped, ?_, rfl, rfl, fun id hpending => refused_of_halt hpending .stopped⟩
      rw [advance, hwaiting]
      dsimp only
      rw [if_pos]
      simpa using hend
    · intro hstopped order
      rw [post, isOpen, hstopped]
      rfl

set_option maxRecDepth 20000 in
/-- A client that asks to be registered too late, and another whose end comes after the hub's. -/
theorem closes_silently_on_latecomer : ∃ past exchange closing moments later,
    Chronicle {} past exchange ∧ exchange.orders = [.shutdown, .register 2 none] ∧
    exchange.advance = some closing ∧ Course closing moments later ∧
    Silenced closing 5000 moments later ∧ later.registrations[2]? = some Registration.refused ∧
    later.queuedFor 1 = ["* welcome guest1! you are in room 'general' (CMD:help:: lists commands)",
      "* server is shutting down"] ∧
    ∃ stopped, later.advance = some stopped ∧ stopped.phase = .stopped ∧
      stopped.hub.directory.isEmpty = true := by
  have h₀ : Chronicle {} [] _ := ⟨_, rfl, .refl⟩
  have h₁ := h₀.step (@Incident.connect _ 1 8 _ rfl rfl)
  have h₂ := h₁.step (@Incident.connect _ 2 8 _ rfl rfl)
  have h₃ := h₂.step (@Incident.ask _ _ 1 none rfl (fun _ => List.not_mem_nil) rfl)
  have h₄ := h₃.step (@Incident.order _ _ _ rfl rfl (by simp))
  have h₅ := h₄.step (@Incident.post _ .shutdown _ nofun rfl)
  have h₆ := h₅.step (@Incident.ask _ _ 2 none rfl
    (fun peer => show Order.register 2 peer ∉ [.shutdown] by simp) rfl)
  obtain ⟨closing, deadline, hadvance, -, rfl, -, -, hthen⟩ := h₆.closes_silently rfl (Or.inl ⟨_, rfl⟩)
  have hbegun : Course closing [] closing := .refl
  obtain rfl := Option.some.inj hadvance
  have hrefused := hbegun.step (@Incident.order _ _ _ rfl rfl (by simp))
  have hleft := hrefused.step (@Incident.hear _ (.closed 1) rfl rfl)
  obtain ⟨hsilenced, -, -, -, hwaiting, -⟩ := hthen _ _ hleft
  obtain ⟨stopped, hstop, hphase, hhub, -⟩ := (hwaiting rfl).2 (Or.inl rfl)
  refine ⟨_, _, _, _, _, h₆, rfl, rfl, hleft, hsilenced, rfl, rfl, stopped, hstop, hphase, ?_⟩
  rw [hhub]
  rfl

set_option maxRecDepth 20000 in
/-- A wait of a millisecond more than thirty years is over a millisecond early, and a client is still
there. -/
theorem stops_before_timeout : ∃ past exchange closing later stopped,
      Chronicle { readiness := .sweep, shutdownTimeoutMs := 946080000001 } past exchange ∧
      exchange.phase = .running ∧ exchange.orders = [.shutdown] ∧ exchange.advance = some closing ∧
      Course closing [] later ∧ later.advance = some stopped ∧ stopped.phase = .stopped ∧
      stopped.hub.directory.isEmpty = false ∧
      stopped.clock < exchange.clock + 946080000001 := by
  have h₀ : Chronicle { readiness := .sweep, shutdownTimeoutMs := 946080000001 } [] _ :=
    ⟨_, rfl, .refl⟩
  have h₁ := h₀.step (@Incident.connect _ 1 8 _ rfl rfl)
  have h₂ := h₁.step (@Incident.ask _ _ 1 none rfl (fun _ => List.not_mem_nil) rfl)
  have h₃ := h₂.step (@Incident.order _ _ _ rfl rfl (by simp))
  have h₄ := h₃.step (@Incident.post _ .shutdown _ nofun rfl)
  exact ⟨_, _, _, _, _, h₄, rfl, rfl, rfl, .single (.pass 946080000000), rfl, rfl, rfl, by decide⟩

end Exchange

end ChatRooms
