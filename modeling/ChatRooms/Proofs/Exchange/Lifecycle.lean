import ChatRooms.Proofs.Exchange.Course
import ChatRooms.Proofs.Hub.Parting

namespace ChatRooms

open Std

/-- How far a client has come. -/
inductive LifeStage where
  /-- Not registered so far. -/
  | expected
  | active
  | disconnected
  | removed
  deriving DecidableEq, Repr

namespace LifeStage

def rank : LifeStage → Nat
  | expected => 0
  | active => 1
  | disconnected => 2
  | removed => 3

theorem rank_le_removed (stage : LifeStage) : stage.rank ≤ removed.rank := by
  cases stage <;> simp [rank]

theorem eq_removed {stage : LifeStage} (h : removed.rank ≤ stage.rank) : stage = removed := by
  cases stage <;> simp [rank] at h ⊢

end LifeStage

theorem Event.ne_register_of_trigger {event : Event} {id : ClientId}
    (h : event = .exited id ∨ event = .closed id) : ∀ other peer, event ≠ .register other peer := by
  rcases h with rfl | rfl <;> simp

namespace Outbox

variable {outbox : Outbox} {id : ClientId} {effects : List Effect}

/-- What effects never change: how large an outbox is, and whether anybody reads it. -/
theorem foldl_absorb_frame (id : ClientId) (effects : List Effect) (outbox : Outbox) :
    (effects.foldl (absorb id) outbox).capacity = outbox.capacity ∧
      (effects.foldl (absorb id) outbox).isRead = outbox.isRead ∧
      ((effects.foldl (absorb id) outbox).isHeld = true → outbox.isHeld = true) := by
  induction effects generalizing outbox with
  | nil => exact ⟨rfl, rfl, fun hheld => hheld⟩
  | cons effect effects ih =>
    rw [List.foldl_cons]
    obtain ⟨hcapacity, hread, hheld⟩ := ih (outbox.absorb id effect)
    have hone : (outbox.absorb id effect).capacity = outbox.capacity ∧
        (outbox.absorb id effect).isRead = outbox.isRead ∧
        ((outbox.absorb id effect).isHeld = true → outbox.isHeld = true) := by
      cases effect with
      | deliver other notice =>
        rw [absorb]
        split
        next => rcases outbox.offer_eq notice.line with heq | heq <;> rw [heq] <;> simp
        next => simp
      | hangUp other =>
        rw [absorb]
        split <;> simp [hangUp]
      | attach | detach => simp [absorb]
    exact ⟨hcapacity.trans hone.1, hread.trans hone.2.1, fun h => hone.2.2 (hheld h)⟩

theorem isHeld_foldl_absorb_of_hangUp (hmem : .hangUp id ∈ effects) (outbox : Outbox) :
    (effects.foldl (absorb id) outbox).isHeld = false := by
  obtain ⟨first, last, rfl⟩ := List.append_of_mem hmem
  rw [List.foldl_append, List.foldl_cons, ← Bool.not_eq_true]
  intro hheld
  have hhung := (foldl_absorb_frame id last _).2.2 hheld
  rw [absorb, if_pos rfl] at hhung
  cases hhung

theorem lines_foldl_absorb_of_not_read (hread : outbox.isRead = false) (effects : List Effect) :
    (effects.foldl (absorb id) outbox).lines = outbox.lines := by
  induction effects generalizing outbox with
  | nil => rfl
  | cons effect effects ih =>
    have hread' : (outbox.absorb id effect).isRead = false :=
      (foldl_absorb_frame id [effect] outbox).2.1.trans hread
    rw [List.foldl_cons, ih hread']
    cases effect with
    | deliver other notice =>
      rw [absorb]
      split
      next => simp [offer, send, hread]
      next => rfl
    | hangUp other =>
      rw [absorb]
      split <;> rfl
    | attach | detach => rfl

end Outbox

namespace Moment

/-- The client is told that it is over, or it is reclaimed. -/
def Ends (moment : Moment) (id : ClientId) : Prop :=
  .goodbye ∈ moment.dueTo id ∨ .shuttingDown ∈ moment.dueTo id ∨
    id ∈ moment.exchange.hub.directory.occupants ∧
      (moment.event = .exited id ∨ moment.event = .closed id)

/-- The client is registered, and the line welcomes it under its guest nickname to the default room. -/
def Greets (moment : Moment) (id : ClientId) (line : String) : Prop :=
  ∃ peer guest client, moment.event = .register id peer ∧
    moment.exchange.hub.nextGuestNumber = some guest ∧
    moment.after.hub.directory.occupants[id]? = some client ∧
    client.nickname = Hub.guestNickname guest ∧
    client.room = moment.exchange.hub.directory.defaultRoom ∧
    line = (Notice.welcome client.nickname client.room).line

theorem Greets.of_register {moment : Moment} {id : ClientId} {peer : Option SocketAddress} {guest : Nat}
    (hevent : moment.event = .register id peer)
    (hguest : moment.exchange.hub.nextGuestNumber = some guest)
    (hregistered : moment.after.hub.directory.occupants[id]? = some
      { id, nickname := Hub.guestNickname guest, room := moment.exchange.hub.directory.defaultRoom,
        peer, presence := .active }) :
    moment.Greets id (Notice.welcome (Hub.guestNickname guest)
      moment.exchange.hub.directory.defaultRoom).line :=
  ⟨peer, guest, _, hevent, hguest, hregistered, rfl, rfl, rfl⟩

end Moment

namespace Hub

variable {settings : Settings} {hub : Hub} {id : ClientId} {client : Occupant}

theorem Reachable.presence_ne_connecting (h : Reachable settings hub)
    (hid : hub.directory.occupants[id]? = some client) :
    client.presence = .active ∨ client.presence = .disconnected := by
  induction h generalizing client with
  | start => exact absurd (Maps.mem_of_getElem? hid) ExtTreeMap.not_mem_empty
  | @step hub hub' event effects before hadmits hhandle ih =>
    have hstep := steps_of_handle hhandle
    have hintact := before.intact
    rcases hstep.mem_occupants hintact (Maps.mem_of_getElem? hid) with hmem | ⟨peer, rfl⟩
    · obtain ⟨found, hfound⟩ := Maps.mem_iff_exists.1 hmem
      rcases hstep.entry hintact hadmits hfound with
        hsame | ⟨_, _, -, -, -, -, client', hclient', hbecomes⟩ | ⟨-, hnone⟩ | ⟨-, hhung⟩
      · exact ih (hsame.symm.trans hid ▸ hfound)
      · obtain rfl := Option.some.inj (hclient'.symm.trans hid)
        rcases hbecomes with ⟨hactive, -⟩ | ⟨rfl, -⟩
        · exact Or.inl (of_decide_eq_true hactive)
        · exact Or.inr rfl
      · cases hnone.symm.trans hid
      · obtain rfl := Option.some.inj (hhung.symm.trans hid)
        exact Or.inr rfl
    · obtain ⟨_, -, hregistered, -⟩ := hstep.of_register
      obtain rfl := Option.some.inj (hregistered.symm.trans hid)
      exact Or.inl rfl

end Hub

namespace Exchange

variable {settings : Settings} {start exchange exchange' finish : Exchange} {id : ClientId}
  {moments more earlier later : List Moment} {moment : Moment} {client : Occupant}

def stage (exchange : Exchange) (id : ClientId) : LifeStage :=
  match exchange.hub.directory.occupants[id]? with
  | some client => if client.isActive then .active else .disconnected
  | none => if exchange.registrations[id]? = some .accepted then .removed else .expected

theorem stage_of_active (hid : exchange.hub.directory.occupants[id]? = some client)
    (hactive : client.isActive = true) : exchange.stage id = .active := by
  rw [stage, hid]
  exact if_pos hactive

theorem stage_of_silent (hid : exchange.hub.directory.occupants[id]? = some client)
    (hsilent : client.isActive = false) : exchange.stage id = .disconnected := by
  rw [stage, hid]
  exact if_neg (Bool.eq_false_iff.1 hsilent)

theorem stage_of_accepted (hid : exchange.hub.directory.occupants[id]? = none)
    (haccepted : exchange.registrations[id]? = some .accepted) : exchange.stage id = .removed := by
  rw [stage, hid]
  exact if_pos haccepted

theorem not_mem_of_removed (h : exchange.stage id = .removed) :
    id ∉ exchange.hub.directory.occupants := by
  intro hmem
  obtain ⟨client, hid⟩ := Maps.mem_iff_exists.1 hmem
  cases hactive : client.isActive with
  | true => cases h.symm.trans (stage_of_active hid hactive)
  | false => cases h.symm.trans (stage_of_silent hid hactive)

theorem rank_of_pending (hsound : exchange.Sound settings)
    (hpending : exchange.registrations[id]? = some .pending) : (exchange.stage id).rank = 0 := by
  have hid := ExtTreeMap.getElem?_eq_none (hsound.not_mem_of_pending hpending)
  rw [stage, hid, hpending]
  rfl

theorem Amounts.entry (h : Amounts exchange moments exchange') (hsound : exchange.Sound settings)
    (hid : exchange.hub.directory.occupants[id]? = some client) :
    (∃ client', exchange'.hub.directory.occupants[id]? = some client' ∧
      (client' = client ∨ client.isActive = true ∨ client' = client.hangUp)) ∨
    exchange'.hub.directory.occupants[id]? = none ∧ exchange'.stage id = .removed := by
  cases h with
  | nothing _ hhub => exact Or.inl ⟨client, by rw [hhub, hid], Or.inl rfl⟩
  | event _ _ hadmits _ hhandle hhub _ _ haccepted =>
    rcases (Hub.steps_of_handle hhandle).entry hsound.reachable.intact hadmits hid with
      hsame | ⟨_, _, -, hactive, -, -, client', hclient', -⟩ | ⟨-, hnone⟩ | ⟨-, hhung⟩
    · exact Or.inl ⟨client, by rw [hhub, hsame], Or.inl rfl⟩
    · exact Or.inl ⟨client', by rw [hhub, hclient'], Or.inr (Or.inl hactive)⟩
    · refine Or.inr ⟨by rw [hhub, hnone], stage_of_accepted (by rw [hhub, hnone]) ?_⟩
      exact (haccepted id).2 (Or.inl (hsound.accepted (Maps.mem_of_getElem? hid)))
    · exact Or.inl ⟨_, by rw [hhub, hhung], Or.inr (Or.inr rfl)⟩

theorem Amounts.stays_removed (h : Amounts exchange moments exchange') (hsound : exchange.Sound settings)
    (hid : exchange.hub.directory.occupants[id]? = none)
    (haccepted : exchange.registrations[id]? = some .accepted) : exchange'.stage id = .removed := by
  cases h with
  | nothing _ hhub _ _ hkept => exact stage_of_accepted (by rw [hhub, hid]) ((hkept id).2 haccepted)
  | event _ _ _ hpending hhandle hhub _ _ hkept =>
    refine stage_of_accepted (ExtTreeMap.getElem?_eq_none fun hmem => ?_)
      ((hkept id).2 (Or.inl haccepted))
    rw [hhub] at hmem
    rcases (Hub.steps_of_handle hhandle).mem_occupants hsound.reachable.intact hmem with
      hmem | ⟨peer, heq⟩
    · exact Maps.not_mem_of_getElem? hid hmem
    -- Only a pending registration is handled, and this one has been accepted.
    · cases haccepted.symm.trans (hpending id peer heq)

theorem Amounts.rank_le (h : Amounts exchange moments exchange') (hsound : exchange.Sound settings)
    (id : ClientId) : (exchange.stage id).rank ≤ (exchange'.stage id).rank := by
  cases hid : exchange.hub.directory.occupants[id]? with
  | some client =>
    rcases h.entry hsound hid with ⟨client', hclient', hbecomes⟩ | ⟨-, hremoved⟩
    · cases hactive : client.isActive with
      | true =>
        rw [stage_of_active hid hactive]
        cases hactive' : client'.isActive with
        | true => rw [stage_of_active hclient' hactive']
        | false => rw [stage_of_silent hclient' hactive']; exact Nat.le_succ _
      | false =>
        have hsilent : client'.isActive = false := by
          rcases hbecomes with rfl | hother | rfl
          · exact hactive
          · cases hactive.symm.trans hother
          · rfl
        rw [stage_of_silent hid hactive, stage_of_silent hclient' hsilent]
    · rw [hremoved]
      exact LifeStage.rank_le_removed _
  | none =>
    by_cases haccepted : exchange.registrations[id]? = some .accepted
    · rw [h.stays_removed hsound hid haccepted]
      exact LifeStage.rank_le_removed _
    · have hexpected : exchange.stage id = .expected := by
        rw [stage, hid]
        exact if_neg haccepted
      rw [hexpected]
      exact Nat.zero_le _

theorem Course.rank_le (h : Course start moments exchange) (hsound : start.Sound settings)
    (id : ClientId) : (start.stage id).rank ≤ (exchange.stage id).rank := by
  refine h.preserves (P := fun after => (start.stage id).rank ≤ (after.stage id).rank) hsound
    (fun hbefore hamounts hle => ?_) (Nat.le_refl _)
  exact hle.trans (hamounts.rank_le hbefore id)

theorem Amounts.exists_trigger (h : Amounts exchange moments exchange') (hsound : exchange.Sound settings)
    (hmem : id ∈ exchange.hub.directory.occupants) (hgone : id ∉ exchange'.hub.directory.occupants) :
    ∃ moment ∈ moments, moment.event = .exited id ∨ moment.event = .closed id := by
  cases h with
  | nothing _ hhub => exact absurd (hhub ▸ hmem) hgone
  | @event moment _ _ _ _ _ _ _ hhandle hhub =>
    rw [hhub, (Hub.steps_of_handle hhandle).mem_occupants_iff hsound.reachable.intact] at hgone
    refine ⟨moment, List.mem_cons_self, ?_⟩
    by_contra hnone
    rw [not_or] at hnone
    exact hgone (Or.inr ⟨hmem, hnone.2, hnone.1⟩)

theorem Amounts.stage_of_trigger (h : Amounts exchange [moment] exchange')
    (hsound : exchange.Sound settings)
    (hmem : id ∈ exchange.hub.directory.occupants)
    (htrigger : moment.event = .exited id ∨ moment.event = .closed id) :
    exchange'.stage id = .removed := by
  cases h with
  | nothing hfailed =>
    obtain ⟨⟨_, _, hregister⟩, -⟩ := hfailed moment List.mem_cons_self
    exact absurd hregister (Event.ne_register_of_trigger htrigger _ _)
  | event _ _ _ _ hhandle hhub _ _ haccepted =>
    refine stage_of_accepted (ExtTreeMap.getElem?_eq_none ?_)
      ((haccepted id).2 (Or.inl (hsound.accepted hmem)))
    rw [hhub, (Hub.steps_of_handle hhandle).mem_occupants_iff hsound.reachable.intact]
    rcases htrigger with htrigger | htrigger <;> rw [htrigger] <;> simp

theorem Course.exists_trigger (h : Course start moments finish) (hsound : start.Sound settings)
    (hmem : id ∈ start.hub.directory.occupants) (hgone : id ∉ finish.hub.directory.occupants) :
    ∃ moment ∈ moments, moment.event = .exited id ∨ moment.event = .closed id := by
  induction h with
  | refl => exact absurd hmem hgone
  | @step _ _ between _ before hincident ih =>
    by_cases hstill : id ∈ between.hub.directory.occupants
    · have hbetween := before.sound hsound
      obtain ⟨moment, hmoment, htrigger⟩ :=
        (hincident.amounts hbetween).exists_trigger hbetween hstill hgone
      exact ⟨moment, List.mem_append_right _ hmoment, htrigger⟩
    · obtain ⟨moment, hmoment, htrigger⟩ := ih hstill
      exact ⟨moment, List.mem_append_left _ hmoment, htrigger⟩

theorem Course.eq_or_removed (h : Course start moments exchange) (hsound : start.Sound settings)
    (hid : start.hub.directory.occupants[id]? = some client)
    (hpresence : client.presence = .disconnected) :
    exchange.hub.directory.occupants[id]? = some client ∨ exchange.stage id = .removed := by
  have hhung : client.hangUp = client := by
    rw [Occupant.hangUp, ← hpresence]
  have hsilent : client.isActive = false := by
    rw [Occupant.isActive, hpresence]
    rfl
  refine h.preserves (P := fun after =>
      after.hub.directory.occupants[id]? = some client ∨ after.stage id = .removed) hsound
    (fun hbefore hamounts hcase => ?_) (Or.inl hid)
  rcases hcase with hsame | hremoved
  · rcases hamounts.entry hbefore hsame with ⟨client', hclient', hbecomes⟩ | ⟨-, hremoved⟩
    · rcases hbecomes with rfl | hactive | rfl
      · exact Or.inl hclient'
      · cases hsilent.symm.trans hactive
      · exact Or.inl (hclient'.trans (congrArg some hhung))
    · exact Or.inr hremoved
  · exact Or.inr (LifeStage.eq_removed (hremoved ▸ hamounts.rank_le hbefore id))

/-- Nobody holds an outbox any more whose client is not heard. -/
def Releases (exchange : Exchange) : Prop :=
  ∀ (id : ClientId) (client : Occupant), exchange.hub.directory.occupants[id]? = some client →
    client.isActive = false → ¬exchange.Holds id

theorem Amounts.holds (h : Amounts exchange moments exchange')
    (haccepted : exchange.registrations[id]? = some .accepted) (hholds : exchange'.Holds id) :
    exchange.Holds id := by
  obtain ⟨outbox', houtbox', hheld⟩ := hholds
  cases h with
  | nothing _ _ houtbox =>
    rcases houtbox id outbox' houtbox' with ⟨hnew, -⟩ | ⟨outbox, hfound, hdwindles⟩
    · cases hnew.symm.trans haccepted
    · exact ⟨outbox, hfound, hdwindles.isHeld hheld⟩
  | event _ _ _ _ _ _ houtbox =>
    rw [houtbox] at houtbox'
    obtain ⟨outbox, hfound, rfl⟩ := Option.map_eq_some_iff.1 houtbox'
    exact ⟨outbox, hfound, (Outbox.foldl_absorb_frame id _ outbox).2.2 hheld⟩

theorem Amounts.releases (h : Amounts exchange moments exchange') (hsound : exchange.Sound settings)
    (hreleases : exchange.Releases) : exchange'.Releases := by
  intro id client' hid' hsilent hholds
  have hbefore {client : Occupant} (hid : exchange.hub.directory.occupants[id]? = some client)
      (hsilent : client.isActive = false) : False :=
    hreleases id client hid hsilent (h.holds (hsound.accepted (Maps.mem_of_getElem? hid)) hholds)
  have hintact := hsound.reachable.intact
  cases h with
  | nothing _ hhub => exact hbefore (hhub ▸ hid') hsilent
  | event _ _ hadmits _ hhandle hhub houtbox =>
    have hstep := Hub.steps_of_handle hhandle
    rw [hhub] at hid'
    rcases hstep.mem_occupants hintact (Maps.mem_of_getElem? hid') with hmem | ⟨peer, heq⟩
    · obtain ⟨client, hid⟩ := Maps.mem_iff_exists.1 hmem
      cases hactive : client.isActive with
      | true =>
        have hhung := hstep.hangUp_mem hintact hadmits hid hactive hid' hsilent
        obtain ⟨outbox', houtbox', hheld⟩ := hholds
        rw [houtbox] at houtbox'
        obtain ⟨outbox, -, rfl⟩ := Option.map_eq_some_iff.1 houtbox'
        cases (Outbox.isHeld_foldl_absorb_of_hangUp hhung outbox).symm.trans hheld
      | false => exact hbefore hid hactive
    · rw [heq] at hstep
      obtain ⟨_, -, hregistered, -⟩ := hstep.of_register
      obtain rfl := Option.some.inj (hregistered.symm.trans hid')
      cases hsilent

theorem Chronicle.releases (h : Chronicle settings moments exchange) : exchange.Releases := by
  obtain ⟨start, hnew, hcourse⟩ := h
  refine hcourse.preserves (.of_new hnew) (fun hsound hamounts => hamounts.releases hsound) ?_
  obtain ⟨room, -, rfl⟩ := exists_of_new hnew
  exact fun id client hid => absurd (Maps.mem_of_getElem? hid) ExtTreeMap.not_mem_empty

/-- While the hub takes anything, being heard and being held is one thing. -/
theorem Chronicle.isActive_iff_holds (h : Chronicle settings moments exchange)
    (hopen : exchange.isOpen = true)
    (hid : exchange.hub.directory.occupants[id]? = some client) :
    client.isActive = true ↔ exchange.Holds id := by
  constructor
  · intro hactive
    exact h.serves hopen id (Or.inl ⟨client.room, client, hid, hactive, rfl⟩)
  · intro hholds
    by_contra hsilent
    exact h.releases id client hid (Bool.eq_false_iff.2 hsilent) hholds

theorem handle_line_of_silent (hsound : exchange.Sound settings)
    (hsilent : ∀ client, exchange.hub.directory.occupants[id]? = some client → client.isActive = false)
    (line : String) : exchange.handle [.line id line] = exchange :=
  handle_singleton (Hub.handle_line_of_silent hsound.reachable.intact hsilent line)

theorem Amounts.dueTo_eq_nil (h : Amounts exchange [moment] exchange') (hsound : exchange.Sound settings)
    (hstage : LifeStage.disconnected.rank ≤ (exchange.stage id).rank) : moment.dueTo id = [] := by
  cases h with
  | nothing hfailed => exact (hfailed moment List.mem_cons_self).2 id
  | event _ _ hadmits hpending hhandle _ _ _ _ hdue =>
    rw [hdue]
    apply Hub.noticesFor_eq_nil
    intro notice hmem
    rcases (Hub.steps_of_handle hhandle).exists_seat hsound.reachable.intact hadmits hmem with
      ⟨room, client, hid, hactive, -⟩ | ⟨peer, heq⟩
    · rw [stage_of_active hid hactive] at hstage
      exact absurd hstage (by decide)
    · rw [rank_of_pending hsound (hpending id peer heq)] at hstage
      exact absurd hstage (by decide)

theorem Course.dueTo_eq_nil (h : Course start moments finish) (hsound : start.Sound settings)
    (hstage : LifeStage.disconnected.rank ≤ (start.stage id).rank) :
    ∀ moment ∈ moments, moment.dueTo id = [] := by
  intro moment hmem
  obtain ⟨earlier, later, rfl⟩ := List.append_of_mem hmem
  obtain ⟨before, after, hearlier, hat, -⟩ := h.exists_incident rfl
  have hbefore := hearlier.sound hsound
  exact (hat.amounts hbefore).dueTo_eq_nil hbefore (hstage.trans (hearlier.rank_le hsound id))

/-- The hub's last word to a client is its only one at that moment, and the client is not heard then. -/
theorem Amounts.of_ends (h : Amounts exchange [moment] exchange') (hsound : exchange.Sound settings)
    (hends : moment.Ends id) :
    (moment.dueTo id = [.goodbye] ∨ moment.dueTo id = [.shuttingDown] ∨ moment.dueTo id = []) ∧
      LifeStage.disconnected.rank ≤ (exchange'.stage id).rank := by
  have hremoved (hmem : id ∈ exchange.hub.directory.occupants)
      (htrigger : moment.event = .exited id ∨ moment.event = .closed id) :
      LifeStage.disconnected.rank ≤ (exchange'.stage id).rank := by
    rw [h.stage_of_trigger hsound hmem htrigger]
    exact Nat.le_succ _
  have hintact := hsound.reachable.intact
  cases h with
  | nothing hfailed =>
    obtain ⟨⟨_, _, hregister⟩, hdue⟩ := hfailed moment List.mem_cons_self
    rw [Moment.Ends, hdue id, hregister] at hends
    simp at hends
  | event _ hmoment hadmits _ hhandle hhub _ _ haccepted hdue =>
    have hstep := Hub.steps_of_handle hhandle
    have hparting {notice : Notice} (hnow : notice ∈ moment.dueTo id)
        (hnotice : notice.isParting = true) :
        moment.dueTo id = [notice] ∧ LifeStage.disconnected.rank ≤ (exchange'.stage id).rank := by
      rw [hdue] at hnow ⊢
      obtain ⟨honly, hmem, hsilent⟩ := hstep.of_parting hintact (Hub.mem_noticesFor.1 hnow) hnotice
      refine ⟨honly, ?_⟩
      cases hid' : exchange'.hub.directory.occupants[id]? with
      | some client' => rw [stage_of_silent hid' (hsilent client' (hhub ▸ hid'))]
      | none =>
        rw [stage_of_accepted hid' ((haccepted id).2 (Or.inl (hsound.accepted hmem)))]
        exact Nat.le_succ _
    rcases hends with hnow | hnow | ⟨hmem, htrigger⟩
    · obtain ⟨honly, hstage⟩ := hparting hnow rfl
      exact ⟨Or.inl honly, hstage⟩
    · obtain ⟨honly, hstage⟩ := hparting hnow rfl
      exact ⟨Or.inr (Or.inl honly), hstage⟩
    · obtain ⟨orders, hmoment⟩ := hmoment
      refine ⟨Or.inr (Or.inr ?_), hremoved (by rw [hmoment] at hmem; exact hmem) htrigger⟩
      rw [hdue, hstep.noticesFor_of_reclaim hintact hadmits htrigger]

/-- Nothing waits in the client's outbox. If the client is registered, nobody reads it any more. -/
def Blank (exchange : Exchange) (id : ClientId) : Prop :=
  ∀ outbox, exchange.outboxes[id]? = some outbox → outbox.lines = [] ∧ 0 < outbox.capacity ∧
    (exchange.registrations[id]? = some .accepted → outbox.isRead = false)

theorem Blank.queuedFor_eq_nil (h : exchange.Blank id) : exchange.queuedFor id = [] := by
  rw [queuedFor]
  cases hid : exchange.outboxes[id]? with
  | none => rfl
  | some outbox => exact (h outbox hid).1

theorem Blank.of_dwindles (h : exchange.Blank id)
    (houtbox : ∀ outbox', exchange'.outboxes[id]? = some outbox' →
      (exchange.registrations[id]? = none ∧ ∃ capacity, 0 < capacity ∧ outbox' = { capacity }) ∨
        ∃ outbox, exchange.outboxes[id]? = some outbox ∧ outbox'.Dwindles outbox)
    (haccepted : exchange'.registrations[id]? = some .accepted →
      exchange.registrations[id]? = some .accepted) : exchange'.Blank id := by
  intro outbox' hid
  rcases houtbox outbox' hid with ⟨hnew, capacity, hpos, rfl⟩ | ⟨outbox, hfound, hdwindles⟩
  · refine ⟨rfl, hpos, fun hregistered => ?_⟩
    cases hnew.symm.trans (haccepted hregistered)
  · obtain ⟨hlines, hpos, hunread⟩ := h outbox hfound
    refine ⟨List.suffix_nil.1 (hlines ▸ hdwindles.lines), hdwindles.capacity ▸ hpos, ?_⟩
    intro hregistered
    rw [← Bool.not_eq_true]
    intro hread
    cases (hdwindles.isRead hread).symm.trans (hunread (haccepted hregistered))

/-- An outbox into which nothing has come stays empty, if nobody is there to read it. -/
theorem Blank.of_absorb {effects : List Effect} (h : exchange.Blank id)
    (houtbox : exchange'.outboxes[id]? =
      exchange.outboxes[id]?.map fun outbox => effects.foldl (Outbox.absorb id) outbox)
    (hnone : exchange'.queuedFor id = [])
    (hunread : ∀ outbox, exchange.outboxes[id]? = some outbox →
      exchange'.registrations[id]? = some .accepted → outbox.isRead = false) :
    exchange'.Blank id := by
  intro outbox' hid
  rw [queuedFor, hid] at hnone
  rw [houtbox] at hid
  obtain ⟨outbox, hfound, rfl⟩ := Option.map_eq_some_iff.1 hid
  obtain ⟨hcapacity, hread, -⟩ := Outbox.foldl_absorb_frame id effects outbox
  refine ⟨hnone, hcapacity ▸ (h outbox hfound).2.1, fun hregistered => ?_⟩
  exact hread.trans (hunread outbox hfound hregistered)

/-- A newcomer's outbox takes the welcome, unless nobody reads it. -/
theorem lines_of_welcome {outbox : Outbox} {hub' : Hub} {effects : List Effect} {guest : Nat}
    {room : RoomName} (hintact : hub'.directory.Intact)
    (heffects : effects = .attach id :: .deliver id (.welcome (Hub.guestNickname guest) room) ::
      Hub.broadcast hub'.directory room (.connected (Hub.guestNickname guest)) (some id))
    (hheld : outbox.isHeld = true) (hlines : outbox.lines = []) (hcapacity : 0 < outbox.capacity) :
    (effects.foldl (Outbox.absorb id) outbox).lines =
      if outbox.isRead then [(Notice.welcome (Hub.guestNickname guest) room).line] else [] := by
  have hdue : noticesFor id effects = [.welcome (Hub.guestNickname guest) room] := by
    rw [heffects, Hub.noticesFor_attach, Hub.noticesFor_deliver_self,
      Hub.noticesFor_broadcast_spared hintact]
  have hspared : Effect.hangUp id ∉ effects := by
    rw [heffects]
    simp [Hub.hangUp_not_mem_broadcast]
  rw [Outbox.foldl_absorb_eq_accept hheld hspared, hdue, List.foldl_cons, List.foldl_nil,
    Outbox.accept, hlines]
  simp only [List.length_nil, hcapacity, and_true, List.nil_append]
  split
  next => rfl
  next => exact hlines

/-- Whoever is registered already gets nothing into an outbox that nobody reads, and whoever is not gets
nothing at all. -/
theorem Amounts.queuedTo_eq_nil (h : Amounts exchange [moment] exchange')
    (hsound : exchange.Sound settings)
    (hblank : exchange.Blank id) (hregister : ¬∃ peer, moment.event = .register id peer) :
    moment.queuedTo id = [] := by
  cases h with
  | nothing hfailed => exact Moment.queuedTo_eq_nil ((hfailed moment List.mem_cons_self).2 id)
  | event _ _ hadmits _ hhandle _ houtbox _ _ hdue hqueued =>
    by_cases haccepted : exchange.registrations[id]? = some .accepted
    · have hqueue := hqueued id
      rw [hblank.queuedFor_eq_nil, List.nil_append, queuedFor, houtbox] at hqueue
      rw [← hqueue]
      cases hid : exchange.outboxes[id]? with
      | none => rfl
      | some outbox =>
        obtain ⟨hlines, -, hunread⟩ := hblank outbox hid
        exact (Outbox.lines_foldl_absorb_of_not_read (hunread haccepted) _).trans hlines
    · apply Moment.queuedTo_eq_nil
      rw [hdue]
      apply Hub.noticesFor_eq_nil
      intro notice hmem
      rcases (Hub.steps_of_handle hhandle).exists_seat hsound.reachable.intact hadmits hmem with
        ⟨room, client, hid, -, -⟩ | hpeer
      · exact haccepted (hsound.accepted (Maps.mem_of_getElem? hid))
      · exact hregister hpeer

theorem Amounts.blank (h : Amounts exchange moments exchange') (hsound : exchange.Sound settings)
    (hserves : exchange.Serves) (hblank : exchange.Blank id) :
    (∀ moment ∈ moments, moment.queuedTo id = []) ∧ exchange'.Blank id ∨
      ∃ moment line, moments = [moment] ∧ moment.queuedTo id = [line] ∧ moment.Greets id line := by
  have hintact := hsound.reachable.intact
  have hamounts := h
  cases h with
  | nothing hfailed _ houtbox _ haccepted =>
    refine Or.inl ⟨fun moment hmem => ?_, hblank.of_dwindles (houtbox id) (haccepted id).1⟩
    exact Moment.queuedTo_eq_nil ((hfailed moment hmem).2 id)
  | @event moment hub effects _ hopen hmoment hadmits hpending hhandle hhub houtbox _ haccepted hdue
      hqueued =>
    have hqueue : exchange'.queuedFor id = moment.queuedTo id := by
      rw [hqueued, hblank.queuedFor_eq_nil, List.nil_append]
    have hstill (hnone : moment.queuedTo id = [])
        (hunread : ∀ outbox, exchange.outboxes[id]? = some outbox →
          exchange'.registrations[id]? = some .accepted → outbox.isRead = false) :
        (∀ found ∈ [moment], found.queuedTo id = []) ∧ exchange'.Blank id := by
      refine ⟨fun found hmem => ?_, hblank.of_absorb (houtbox id) (hqueue.trans hnone) hunread⟩
      rw [List.mem_singleton.1 hmem, hnone]
    by_cases hregister : ∃ peer, moment.event = .register id peer
    · obtain ⟨peer, heq⟩ := hregister
      have hstep := Hub.steps_of_handle hhandle
      rw [heq] at hstep hadmits
      obtain ⟨guest, hguest, hregistered, heffects⟩ := hstep.of_register
      obtain ⟨outbox, hfound, hheld⟩ := hserves hopen id (Or.inr (hpending id peer heq))
      obtain ⟨hlines, hpos, -⟩ := hblank outbox hfound
      -- The outbox is empty and held, so the welcome gets in unless nobody reads it.
      have hwelcome := lines_of_welcome (hstep.intact hintact hadmits) heffects hheld hlines hpos
      rw [queuedFor, houtbox, hfound] at hqueue
      cases hread : outbox.isRead with
      | true =>
        rw [hread, if_pos rfl] at hwelcome
        refine Or.inr ⟨moment, _, rfl, hqueue.symm.trans hwelcome, ?_⟩
        obtain ⟨orders, hmoment⟩ := hmoment
        have hbefore : exchange.hub = moment.exchange.hub := by rw [hmoment]
        have hafter := (Moment.getElem?_after (hbefore ▸ hhandle)).1
        rw [hbefore] at hguest hregistered ⊢
        rw [← hafter] at hregistered
        exact .of_register heq hguest hregistered
      | false =>
        rw [hread, if_neg Bool.false_ne_true] at hwelcome
        refine Or.inl (hstill (hqueue.symm.trans hwelcome) fun other hother _ => ?_)
        rw [← hread, Option.some.inj (hother.symm.trans hfound)]
    · refine Or.inl (hstill (hamounts.queuedTo_eq_nil hsound hblank hregister) ?_)
      intro outbox hfound hregistered
      refine (hblank outbox hfound).2.2 ?_
      rwa [haccepted, or_iff_left hregister] at hregistered

theorem Course.blank_or_greets (h : Course start moments finish) (hsound : start.Sound settings)
    (hserves : start.Serves) (hblank : start.Blank id) :
    (∀ moment ∈ moments, moment.queuedTo id = []) ∧ finish.Blank id ∨
      ∃ line, (moments.flatMap (·.queuedTo id)).head? = some line ∧
        ∃ moment ∈ moments, moment.Greets id line := by
  induction h with
  | refl => exact Or.inl ⟨fun moment hmem => absurd hmem List.not_mem_nil, hblank⟩
  | step before hincident ih =>
    rcases ih with ⟨hnone, hstill⟩ | ⟨line, hfirst, moment, hmem, hgreets⟩
    · have hbefore := before.sound hsound
      rcases (hincident.amounts hbefore).blank hbefore (before.serves hsound hserves) hstill with
        ⟨hmore, hblank'⟩ | ⟨moment, line, rfl, hqueued, hgreets⟩
      · refine Or.inl ⟨fun moment hmem => ?_, hblank'⟩
        exact (List.mem_append.1 hmem).elim (hnone moment) (hmore moment)
      · refine Or.inr ⟨line, ?_, moment, List.mem_append_right _ List.mem_cons_self, hgreets⟩
        rw [List.flatMap_append, List.flatMap_eq_nil_iff.2 hnone, List.flatMap_singleton, hqueued]
        rfl
    -- The first line has come already, and stays the first.
    · refine Or.inr ⟨line, ?_, moment, List.mem_append_left _ hmem, hgreets⟩
      rw [List.flatMap_append, List.head?_append, hfirst]
      rfl

theorem Chronicle.greets_first (h : Chronicle settings moments exchange) {line : String}
    (hfirst : (moments.flatMap (·.queuedTo id)).head? = some line) :
    ∃ moment ∈ moments, moment.Greets id line := by
  obtain ⟨start, hnew, hcourse⟩ := h
  have hbegun : Chronicle settings [] start := ⟨start, hnew, .refl⟩
  have hblank : start.Blank id := by
    obtain ⟨room, -, rfl⟩ := exists_of_new hnew
    exact fun outbox hid => absurd (Maps.mem_of_getElem? hid) ExtTreeMap.not_mem_empty
  rcases hcourse.blank_or_greets (.of_new hnew) hbegun.serves hblank with
    ⟨hnone, -⟩ | ⟨first, hhead, hgreets⟩
  · rw [List.flatMap_eq_nil_iff.2 hnone] at hfirst
    cases hfirst
  · obtain rfl := Option.some.inj (hhead.symm.trans hfirst)
    exact hgreets

/-- The life of every client: while it has a place it is active, which is to say that its outbox is held,
or disconnected. It only ever goes on, and while it is disconnected it stays as it is and is not listened
to. Its first line welcomes it under its guest nickname to the default room, and after the one that says
goodbye, or its removal, it gets none. -/
theorem Chronicle.lifecycle (h : Chronicle settings moments exchange) (id : ClientId) :
    (∀ client, exchange.hub.directory.occupants[id]? = some client →
      (client.presence = .active ∨ client.presence = .disconnected) ∧
      (exchange.isOpen = true → (client.presence = .active ↔ exchange.Holds id)) ∧
      (client.presence = .disconnected →
        (∀ line, exchange.handle [.line id line] = exchange) ∧
        ∀ more exchange', Course exchange more exchange' →
          exchange'.hub.directory.occupants[id]? = some client ∨ exchange'.stage id = .removed)) ∧
    (∀ more exchange', Course exchange more exchange' →
      (exchange.stage id).rank ≤ (exchange'.stage id).rank) ∧
    exchange.queuedFor id <:+ moments.flatMap (·.queuedTo id) ∧
    (∀ line, (moments.flatMap (·.queuedTo id)).head? = some line →
      ∃ moment ∈ moments, moment.Greets id line) ∧
    ∀ earlier moment later, moments = earlier ++ moment :: later → moment.Ends id →
      (moment.dueTo id = [.goodbye] ∨ moment.dueTo id = [.shuttingDown] ∨ moment.dueTo id = []) ∧
        ∀ further ∈ later, further.dueTo id = [] ∧ further.queuedTo id = [] := by
  have hsound := h.sound
  refine ⟨fun client hid => ⟨?_, ?_, ?_⟩, ?_, ?_, ?_, ?_⟩
  · exact hsound.reachable.presence_ne_connecting hid
  · intro hopen
    rw [← h.isActive_iff_holds hopen hid, Occupant.isActive, decide_eq_true_iff]
  · intro hpresence
    refine ⟨fun line => handle_line_of_silent hsound (fun found hfound => ?_) line, ?_⟩
    · rw [← Option.some.inj (hid.symm.trans hfound), Occupant.isActive, hpresence]
      rfl
    · exact fun more exchange' hmore => hmore.eq_or_removed hsound hid hpresence
  · exact fun more exchange' hmore => hmore.rank_le hsound id
  · obtain ⟨start, hnew, hcourse⟩ := h
    have hnone : start.queuedFor id = [] := by
      obtain ⟨room, -, rfl⟩ := exists_of_new hnew
      rfl
    have hsuffix := hcourse.queuedFor_suffix (.of_new hnew) id
    rwa [hnone, List.nil_append] at hsuffix
  · exact fun line hfirst => h.greets_first hfirst
  · intro earlier moment later hsplit hends
    obtain ⟨before, after, hearlier, hat, hlater, hnow⟩ := h.exists_incident hsplit
    obtain ⟨hlast, hstage⟩ := hat.of_ends hearlier.sound hends
    refine ⟨hlast, fun further hmem => ?_⟩
    have hdue := hlater.dueTo_eq_nil hnow.sound hstage further hmem
    exact ⟨hdue, Moment.queuedTo_eq_nil hdue⟩

set_option maxRecDepth 20000 in
/-- A client that quits, and goes on talking. -/
theorem lifecycle_of_quitter : ∃ moments exchange client, Chronicle {} moments exchange ∧
    exchange.hub.directory.occupants[1]? = some client ∧ client.presence = .disconnected ∧
    ¬exchange.Holds 1 ∧ exchange.handle [.line 1 "CHAT:::hello"] = exchange ∧
    ∃ welcome quit talk, moments = [welcome, quit, talk] ∧ quit.dueTo 1 = [.goodbye] ∧
      talk.dueTo 1 = [] ∧ ∃ moment ∈ moments, moment.Greets 1
        "* welcome guest1! you are in room 'general' (CMD:help:: lists commands)" := by
  have h₀ : Chronicle {} [] _ := ⟨_, rfl, .refl⟩
  have h₁ := h₀.step (@Incident.connect _ 1 8 _ rfl rfl)
  have h₂ := h₁.step (@Incident.ask _ _ 1 none rfl (fun _ => List.not_mem_nil) rfl)
  have h₃ := h₂.step (@Incident.order _ _ _ rfl rfl (by simp))
  have h₄ := h₃.step (@Incident.hear _ (.line 1 "CMD:quit:") rfl rfl)
  have h₅ := h₄.step (@Incident.hear _ (.line 1 "CHAT:::hello") rfl rfl)
  obtain ⟨hclient, -, -, hfirst, hends⟩ := h₅.lifecycle 1
  obtain ⟨-, hheld, hsilent⟩ := hclient ⟨1, "guest1", ⟨"general", by decide⟩, none, .disconnected⟩ rfl
  have hgoodbye := hends [_] _ [_] rfl (Or.inl (by decide))
  refine ⟨_, _, _, h₅, rfl, rfl, fun hholds => ?_, (hsilent rfl).1 _, _, _, _, rfl, ?_, ?_, ?_⟩
  · cases (hheld rfl).2 hholds
  · rfl
  · exact (hgoodbye.2 _ List.mem_cons_self).1
  · exact hfirst _ rfl

end Exchange

end ChatRooms
