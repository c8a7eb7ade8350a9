import ChatRooms.Proofs.Exchange.Soundness
import ChatRooms.Proofs.Exchange.Turns
import ChatRooms.Proofs.Hub.Due
import ChatRooms.Proofs.Hub.Seats

namespace ChatRooms

open Std

namespace Outbox

variable {outbox : Outbox} {id : ClientId} {effects : List Effect} {notice : Notice}

/-- Queues a notice, unless the outbox is full or nobody reads it. -/
def accept (outbox : Outbox) (notice : Notice) : Outbox :=
  if outbox.isRead = true ∧ outbox.lines.length < outbox.capacity then
    { outbox with lines := outbox.lines ++ [notice.line] }
  else outbox

theorem isHeld_accept : (outbox.accept notice).isHeld = outbox.isHeld := by
  unfold accept
  split <;> rfl

theorem eq_of_new {capacity : Nat} (h : new capacity = .ok outbox) : outbox = { capacity } := by
  unfold new at h
  cases hcheck : checkQueueCapacity capacity with
  | error fault =>
    rw [hcheck] at h
    cases h
  | ok =>
    rw [hcheck] at h
    exact (Except.ok.inj h).symm

theorem isHeld_of_take {outbox' : Outbox} {taken : Taken} (h : outbox.take = (outbox', taken)) :
    outbox'.isHeld = outbox.isHeld := by
  unfold take at h
  split at h
  next => exact (Prod.mk.inj h).1 ▸ rfl
  next => split at h <;> exact (Prod.mk.inj h).1 ▸ rfl

theorem offer_eq_accept (h : outbox.isHeld = true) : outbox.offer notice.line = outbox.accept notice := by
  unfold offer send accept
  cases hread : outbox.isRead with
  | false => simp
  | true =>
    by_cases hroom : outbox.lines.length < outbox.capacity
    · simp [h, hroom, Nat.not_le.2 hroom]
    · simp [h, hroom, Nat.not_lt.1 hroom]

theorem foldl_absorb_eq_accept (hheld : outbox.isHeld = true) (heffects : Effect.hangUp id ∉ effects) :
    effects.foldl (absorb id) outbox = (noticesFor id effects).foldl accept outbox := by
  induction effects generalizing outbox with
  | nil => rfl
  | cons effect effects ih =>
    have hrest : Effect.hangUp id ∉ effects := fun hmem => heffects (List.mem_cons_of_mem _ hmem)
    rw [List.foldl_cons]
    cases effect with
    | deliver other notice =>
      by_cases hid : other = id
      · subst hid
        rw [Hub.noticesFor_deliver_self, List.foldl_cons, absorb, if_pos rfl, offer_eq_accept hheld]
        exact ih (isHeld_accept.trans hheld) hrest
      · rw [Hub.noticesFor_deliver_of_ne hid, absorb, if_neg hid]
        exact ih hheld hrest
    | hangUp other =>
      have hid : other ≠ id := fun hid => heffects (hid ▸ List.mem_cons_self)
      rw [absorb, if_neg hid]
      exact ih hheld hrest
    | attach | detach => exact ih hheld hrest

theorem isHeld_foldl_accept (notices : List Notice) :
    (notices.foldl accept outbox).isHeld = outbox.isHeld := by
  induction notices generalizing outbox with
  | nil => rfl
  | cons notice notices ih => rw [List.foldl_cons, ih, isHeld_accept]

theorem isHeld_foldl_absorb (hheld : outbox.isHeld = true) (heffects : Effect.hangUp id ∉ effects) :
    (effects.foldl (absorb id) outbox).isHeld = true := by
  rw [foldl_absorb_eq_accept hheld heffects, isHeld_foldl_accept, hheld]

theorem offer_eq (outbox : Outbox) (line : String) : outbox.offer line = outbox ∨
    outbox.offer line = { outbox with lines := outbox.lines ++ [line] } := by
  unfold offer send
  split
  next after hsend =>
    split at hsend
    next => cases hsend
    next =>
      split at hsend
      next => cases hsend
      next => exact Or.inr (Except.ok.inj hsend).symm
  next => exact Or.inl rfl

theorem exists_lines_foldl_absorb (outbox : Outbox) (id : ClientId) (effects : List Effect) :
    ∃ more, (effects.foldl (absorb id) outbox).lines = outbox.lines ++ more ∧
      more.Sublist ((noticesFor id effects).map Notice.line) := by
  induction effects generalizing outbox with
  | nil => exact ⟨[], (List.append_nil _).symm, List.nil_sublist _⟩
  | cons effect effects ih =>
    rw [List.foldl_cons]
    obtain ⟨more, hmore, hmeant⟩ := ih (outbox.absorb id effect)
    rw [hmore]
    cases effect with
    | deliver other notice =>
      by_cases hid : other = id
      · subst hid
        rw [absorb, if_pos rfl, Hub.noticesFor_deliver_self, List.map_cons]
        rcases outbox.offer_eq notice.line with heq | heq
        · exact ⟨more, by rw [heq], hmeant.cons _⟩
        · exact ⟨notice.line :: more, by rw [heq, List.append_assoc, List.singleton_append],
            hmeant.cons_cons _⟩
      · rw [Hub.noticesFor_deliver_of_ne hid, absorb, if_neg hid]
        exact ⟨more, rfl, hmeant⟩
    | hangUp other =>
      rw [absorb]
      refine ⟨more, ?_, hmeant⟩
      split <;> rfl
    | attach | detach => exact ⟨more, rfl, hmeant⟩

theorem lines_foldl_absorb_of_silent (outbox : Outbox) (h : noticesFor id effects = []) :
    (effects.foldl (absorb id) outbox).lines = outbox.lines := by
  obtain ⟨more, hmore, hmeant⟩ := exists_lines_foldl_absorb outbox id effects
  rw [h, List.map_nil, List.sublist_nil] at hmeant
  rw [hmore, hmeant, List.append_nil]

theorem lines_foldl_absorb (hheld : outbox.isHeld = true) (hlast : Hub.HangsUpLast effects) :
    (effects.foldl (absorb id) outbox).lines = ((noticesFor id effects).foldl accept outbox).lines := by
  obtain ⟨first, last, rfl, hfirst, hhangs⟩ := hlast
  have hsilent : noticesFor id last = [] := by
    apply Hub.noticesFor_eq_nil
    intro notice hmem
    obtain ⟨other, hother⟩ := hhangs _ hmem
    cases hother
  rw [List.foldl_append, lines_foldl_absorb_of_silent _ hsilent,
    foldl_absorb_eq_accept hheld (hfirst id), Hub.noticesFor_append, hsilent, List.append_nil]

end Outbox

namespace Exchange

variable {exchange exchange' : Exchange} {id : ClientId} {event : Event} {order : Order}
  {settings : Settings} {change : Outbox → Outbox} {registration : Registration}

/-- The client has a seat, or may yet get one. -/
def Attends (exchange : Exchange) (id : ClientId) : Prop :=
  (∃ room, exchange.hub.directory.Seats id room) ∨ exchange.registrations[id]? = some .pending

/-- There is an outbox for the client, and nobody has hung it up. -/
def Holds (exchange : Exchange) (id : ClientId) : Prop :=
  ∃ outbox, exchange.outboxes[id]? = some outbox ∧ outbox.isHeld = true

/-- As long as the hub takes anything, whoever attends has an outbox. -/
def Serves (exchange : Exchange) : Prop :=
  exchange.isOpen = true → ∀ id, exchange.Attends id → exchange.Holds id

theorem Holds.updateOutbox (h : exchange.Holds id) {other : ClientId}
    (hchange : other = id → ∀ outbox, exchange.outboxes[id]? = some outbox → outbox.isHeld = true →
      (change outbox).isHeld = true) : (exchange.updateOutbox other change).Holds id := by
  obtain ⟨outbox, houtbox, hheld⟩ := h
  rw [Holds, getElem?_updateOutbox, houtbox]
  split
  next hid => exact ⟨change outbox, rfl, hchange hid outbox houtbox hheld⟩
  next => exact ⟨outbox, rfl, hheld⟩

namespace Serves

theorem imp (h : exchange.Serves) (hopen : exchange'.isOpen = true → exchange.isOpen = true)
    (himp : ∀ id, exchange'.Attends id →
      exchange.Attends id ∧ (exchange.Holds id → exchange'.Holds id)) : exchange'.Serves := by
  intro hopen' id hattends
  obtain ⟨hattended, hholds⟩ := himp id hattends
  exact hholds (h (hopen hopen') id hattended)

theorem of_same (h : exchange.Serves) (hphase : exchange'.phase = exchange.phase)
    (hhub : exchange'.hub = exchange.hub)
    (hregistrations : exchange'.registrations = exchange.registrations)
    (houtboxes : exchange'.outboxes = exchange.outboxes) : exchange'.Serves := by
  refine h.imp (fun hopen => ?_) fun id hattends => ⟨?_, fun hholds => ?_⟩
  · rw [isOpen, hphase] at hopen
    exact hopen
  · rw [Attends, hhub, hregistrations] at hattends
    exact hattends
  · rw [Holds, houtboxes]
    exact hholds

theorem of_closed (hclosed : exchange.isOpen = false) : exchange.Serves := by
  intro hopen
  rw [hclosed] at hopen
  cases hopen

theorem updateOutbox (h : exchange.Serves)
    (hchange : ∀ outbox, exchange.outboxes[id]? = some outbox → outbox.isHeld = true →
      (change outbox).isHeld = true) : (exchange.updateOutbox id change).Serves := by
  refine h.imp (fun hopen => hopen) fun other hattends => ⟨hattends, fun hholds => ?_⟩
  apply hholds.updateOutbox
  rintro rfl
  exact hchange

theorem connect (h : exchange.Serves) {outbox : Outbox} (hheld : outbox.isHeld = true) :
    (exchange.connect id outbox).Serves := by
  intro hopen other hattends
  by_cases hid : id = other
  · subst hid
    exact ⟨outbox, ExtTreeMap.getElem?_insert_self, hheld⟩
  · have hattended : exchange.Attends other := by
      refine hattends.imp_right fun hpending => ?_
      rw [Exchange.connect, Maps.getElem?_insert_of_ne hid] at hpending
      exact hpending
    obtain ⟨found, hfound, hheld⟩ := h hopen other hattended
    refine ⟨found, ?_, hheld⟩
    rw [Exchange.connect, Maps.getElem?_insert_of_ne hid]
    exact hfound

/-- Who has been answered has no more of a claim to be served than its seat gives. -/
theorem insert_registration (h : exchange.Serves) (hanswered : registration ≠ .pending) :
    Serves { exchange with registrations := exchange.registrations.insert id registration } := by
  refine h.imp (fun hopen => hopen) fun other hattends => ⟨?_, fun hholds => hholds⟩
  refine hattends.imp_right fun hpending => ?_
  rw [ExtTreeMap.getElem?_insert] at hpending
  split at hpending
  next => exact absurd (Option.some.inj hpending) hanswered
  next => exact hpending

theorem refuse (h : exchange.Serves) (hid : id ∉ exchange.hub.directory.occupants) :
    (exchange.refuse id).Serves := by
  refine h.imp (fun hopen => hopen) fun other hattends => ?_
  have hne : id ≠ other := by
    rintro rfl
    rcases hattends with ⟨room, client, hclient, -⟩ | hpending
    · exact hid (Maps.mem_of_getElem? hclient)
    · rw [Exchange.refuse, ExtTreeMap.getElem?_insert_self] at hpending
      cases hpending
  refine ⟨hattends.imp_right fun hpending => ?_, fun hholds => ?_⟩
  · rw [Exchange.refuse, Maps.getElem?_insert_of_ne hne] at hpending
    exact hpending
  · exact hholds.updateOutbox fun hsame => absurd hsame hne

theorem halt (exchange : Exchange) {phase : Phase}
    (hphase : phase = .stopped ∨ ∃ defect, phase = .failed defect) : (exchange.halt phase).Serves := by
  apply of_closed
  rcases hphase with rfl | ⟨defect, rfl⟩ <;> rfl

/-- Nobody gets a seat who has not been waiting for one, and the hub hangs up on nobody who has one. -/
theorem handle (h : exchange.Serves) (hsound : exchange.Sound settings)
    (hevent : ∀ id peer, event = .register id peer → exchange.registrations[id]? = some .pending) :
    (exchange.handle [event]).Serves := by
  rcases handle_eq exchange event with ⟨hub, effects, outboxes, hhandle, heq⟩ | ⟨defect, -, heq⟩
  · have hstep := Hub.steps_of_handle hhandle
    have hintact := hsound.reachable.intact
    have houtboxes := getElem?_outboxes_handle hhandle
    rw [heq] at houtboxes ⊢
    refine h.imp (fun hopen => hopen) fun id hattends => ⟨?_, ?_⟩
    · rcases hattends with ⟨room, hseat⟩ | hpending
      · exact (hstep.seats hintact hseat).imp_right fun ⟨peer, hregister⟩ => hevent id peer hregister
      · exact Or.inr hpending
    · have hspared : Effect.hangUp id ∉ effects := by
        rcases hattends with ⟨room, hseat⟩ | hpending
        · exact hstep.hangUp_not_mem hintact hseat
        · exact fun hmem => hsound.not_mem_of_pending hpending (hstep.mem_of_hangUp hintact hmem)
      rintro ⟨outbox, houtbox, hheld⟩
      exact ⟨_, by rw [houtboxes, houtbox]; rfl, Outbox.isHeld_foldl_absorb hheld hspared⟩
  · rw [heq]
    exact halt exchange (Or.inr ⟨defect, rfl⟩)

theorem beginClosing (h : exchange.Serves) (hsound : exchange.Sound settings)
    (hopen : exchange.isOpen = true) : exchange.beginClosing.Serves := by
  have hshutdown : ∀ id peer, Event.shutdown ≠ .register id peer := by simp
  have hhandled : (exchange.handle [.shutdown]).Serves :=
    h.handle hsound fun id peer heq => absurd heq (hshutdown id peer)
  refine hhandled.imp (fun _ => ?_) fun id hattends => ⟨hattends, fun hholds => hholds⟩
  exact (isOpen_handle hsound.reachable.intact hshutdown).trans hopen

theorem takeOrder (h : exchange.Serves) (hsound : exchange.Sound settings)
    (hopen : exchange.isOpen = true) (hstays : ∀ id, order ≠ .exited id)
    (hgives : ∀ id peer, order = .register id peer → exchange.registrations[id]? = some .pending) :
    (exchange.takeOrder order).Serves := by
  cases order with
  | register id peer =>
    have hpending := hgives id peer rfl
    by_cases hphase : exchange.phase = .running
    · have hhandled : (exchange.handle [.register id peer]).Serves := by
        apply h.handle hsound
        rintro other peer' heq
        exact (Event.register.inj heq).1 ▸ hpending
      rw [takeOrder_register hphase]
      dsimp only
      split
      next => exact hhandled.insert_registration (by simp)
      next => exact hhandled
    · rw [takeOrder_register_of_ne hphase]
      exact h.refuse (hsound.not_mem_of_pending hpending)
  | exited id => exact absurd rfl (hstays id)
  | shutdown =>
    by_cases hphase : exchange.phase = .running
    · rw [takeOrder_shutdown hphase]
      exact h.beginClosing hsound hopen
    · rw [takeOrder_shutdown_of_ne hphase]
      exact h

end Serves

end Exchange

namespace Floor

variable {settings : Settings} {trace happenings : List Happening} {floor floor' : Floor}
  {client : Occupant}

theorem Step.serves (hstep : Step floor happenings floor') (hsound : Sound settings trace floor)
    (h : floor.exchange.Serves) : floor'.exchange.Serves := by
  cases hstep with
  | connect _ houtbox =>
    obtain rfl := Outbox.eq_of_new houtbox
    exact h.connect rfl
  | post _ hpost =>
    obtain rfl := Exchange.eq_of_post hpost
    exact h.of_same rfl rfl rfl rfl
  | giveUp hpending _ => exact h.refuse (hsound.exchange.not_mem_of_pending hpending)
  | write | letGo | ring | pass | dropHandles | leave | answer | gather | conclude =>
    exact h.of_same rfl rfl rfl rfl
  | vanish => exact h
  | take houtbox htake =>
    apply h.updateOutbox
    intro outbox hfound hheld
    obtain rfl := Option.some.inj (houtbox.symm.trans hfound)
    exact (Outbox.isHeld_of_take htake).trans hheld
  | stopReading => exact h.updateOutbox fun outbox _ hheld => hheld
  | @order order orders hfree hready horders hstays =>
    have hrest : Exchange.Serves { floor.exchange with orders } := h.of_same rfl rfl rfl rfl
    have hrests : Exchange.Sound settings { floor.exchange with orders } :=
      hsound.exchange.of_same rfl rfl (by rw [horders]; exact List.sublist_cons_self _ _)
    apply hrest.takeOrder hrests (Exchange.isOpen_of_isReady hready) hstays
    rintro id peer rfl
    exact hsound.exchange.pending (horders ▸ List.mem_cons_self)
  | @handle event events hactivity _ =>
    apply h.handle hsound.exchange
    rintro id peer rfl
    have hevents := hsound.events
    rw [hactivity] at hevents
    exact absurd rfl (hevents _ List.mem_cons_self id peer)
  | close _ hphase =>
    apply h.beginClosing hsound.exchange
    rw [Exchange.isOpen, hphase]
  | stop => exact .halt floor.exchange (Or.inl rfl)

theorem Stir.serves (hstir : Stir floor happenings floor') (hsound : Sound settings trace floor)
    (h : floor.exchange.Serves) : floor'.exchange.Serves := by
  cases hstir with
  | step hstep => exact hstep.serves hsound h
  | write => exact h.of_same rfl rfl rfl rfl
  | report hpost =>
    obtain rfl := Exchange.eq_of_post hpost
    exact h.of_same rfl rfl rfl rfl

theorem Bustle.serves (h : Bustle settings trace floor) : floor.exchange.Serves := by
  refine h.preserves (P := fun _ floor => floor.exchange.Serves) (fun exchange hnew => ?_)
    fun hbefore hserves hstir => hstir.serves hbefore.sound hserves
  obtain ⟨room, -, rfl⟩ := Exchange.exists_of_new hnew
  rintro - id (⟨_, _, hclient, -⟩ | hpending)
  · exact absurd (Maps.mem_of_getElem? hclient) ExtTreeMap.not_mem_empty
  · simp at hpending

/-- A line that the hub handles puts into every outbox what its client is due to hear, and nothing else.
What does not get there finds the outbox full or nobody reading it. -/
theorem Bustle.tells_what_is_due (h : Bustle settings trace floor) (hopen : floor.exchange.isOpen = true)
    (hid : floor.exchange.hub.directory.occupants[client.id]? = some client)
    (hactive : client.isActive = true) (line : String) (id : ClientId) :
    (floor.exchange.handle [.line client.id line]).isOpen = true ∧
    (floor.exchange.handle [.line client.id line]).outboxes[id]?.map Outbox.lines =
      floor.exchange.outboxes[id]?.map (fun outbox =>
        ((floor.exchange.hub.due client line id).foldl Outbox.accept outbox).lines) ∧
    (floor.exchange.hub.due client line id ≠ [] → floor.exchange.Holds id) ∧
    (id ≠ client.id → (floor.exchange.hub.due client line id).length ≤ 1) := by
  have hintact := h.sound.exchange.reachable.intact
  obtain ⟨hub, effects, hhandle, hlast, hnotices⟩ := Hub.exists_handle_line hintact hid hactive line
  have hholds (hdue : floor.exchange.hub.due client line id ≠ []) : floor.exchange.Holds id :=
    h.serves hopen id (Or.inl (Hub.exists_seat_of_due hintact hid hactive hdue))
  refine ⟨?_, ?_, hholds, Hub.length_due_le line⟩
  · rw [Exchange.isOpen_handle hintact (by simp), hopen]
  · rw [Exchange.getElem?_outboxes_handle hhandle, Option.map_map, ← hnotices]
    cases houtbox : floor.exchange.outboxes[id]? with
    | none => rfl
    | some outbox =>
      rw [Option.map_some, Option.map_some, Function.comp_apply]
      by_cases hdue : noticesFor id effects = []
      · rw [Outbox.lines_foldl_absorb_of_silent outbox hdue, hdue, List.foldl_nil]
      · rw [hnotices] at hdue
        obtain ⟨found, hfound, hheld⟩ := hholds hdue
        obtain rfl := Option.some.inj (houtbox.symm.trans hfound)
        rw [Outbox.lines_foldl_absorb hheld hlast]

set_option maxRecDepth 20000 in
/-- The second client has not taken its greeting, so there is no place for what the first one says. The
third client gets it all the same. -/
theorem tells_what_is_due_despite_full : ∃ trace floor, Bustle {} trace floor ∧
    (floor.exchange.handle [.line 1 "CHAT:::hello"]).outboxes[2]?.map Outbox.lines = some
      ["* welcome guest2! you are in room 'general' (CMD:help:: lists commands)"] ∧
    (floor.exchange.handle [.line 1 "CHAT:::hello"]).outboxes[3]?.map Outbox.lines = some
      ["* welcome guest3! you are in room 'general' (CMD:help:: lists commands)",
        "[general] guest1: hello"] := by
  have step {trace happenings : List Happening} {floor floor' : Floor}
      (before : Bustle {} trace floor) (hstep : Step floor happenings floor') :
      Bustle {} (trace ++ happenings) floor' := before.step hstep
  have h₀ : Bustle {} [] _ := .start rfl
  have h₁ := step h₀ (@Step.connect _ 1 8 _ rfl rfl)
  have h₂ := step h₁ (@Step.connect _ 2 1 _ rfl rfl)
  have h₃ := step h₂ (@Step.connect _ 3 8 _ rfl rfl)
  have h₄ := step h₃ (@Step.post _ (.register 1 none) _ ⟨rfl, fun _ => List.not_mem_nil⟩ rfl)
  have h₅ := step h₄ (@Step.order _ _ _ rfl rfl rfl (by simp))
  have h₆ := step h₅ (@Step.post _ (.register 2 none) _ ⟨rfl, fun _ => List.not_mem_nil⟩ rfl)
  have h₇ := step h₆ (@Step.order _ _ _ rfl rfl rfl (by simp))
  have h₈ := step h₇ (@Step.post _ (.register 3 none) _ ⟨rfl, fun _ => List.not_mem_nil⟩ rfl)
  have h₉ := step h₈ (@Step.order _ _ _ rfl rfl rfl (by simp))
  let client : Occupant := ⟨1, "guest1", ⟨"general", by decide⟩, none, .active⟩
  have htold := @Bustle.tells_what_is_due _ _ _ client h₉ rfl rfl rfl "CHAT:::hello"
  exact ⟨_, _, h₉, (htold 2).2.1, (htold 3).2.1⟩

end Floor

end ChatRooms
