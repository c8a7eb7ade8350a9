import ChatRooms.Proofs.Exchange.Lifecycle

namespace ChatRooms

open Std

theorem Outbox.foldl_absorb_of_untouched {id : ClientId} {effects : List Effect}
    (hhung : .hangUp id ∉ effects) (hdue : noticesFor id effects = []) (outbox : Outbox) :
    effects.foldl (absorb id) outbox = outbox := by
  have huntouched : effects.filter (Effect.isFor id) = [] := by
    rw [List.filter_eq_nil_iff]
    intro effect hmem hfor
    cases effect with
    | deliver other notice =>
      obtain rfl : other = id := by simpa [Effect.isFor] using hfor
      have hnotice := Hub.mem_noticesFor.2 hmem
      rw [hdue] at hnotice
      cases hnotice
    | hangUp other =>
      obtain rfl : other = id := by simpa [Effect.isFor] using hfor
      exact hhung hmem
    | attach | detach => cases hfor
  rw [← foldl_absorb_filter, huntouched]
  rfl

theorem Directory.seats_erase_of_ne {directory directory' : Directory} {id other : ClientId}
    {room : RoomName} (h : directory'.occupants = directory.occupants.erase other) (hne : id ≠ other) :
    directory'.Seats id room ↔ directory.Seats id room := by
  rw [Seats, h, Maps.getElem?_erase_of_ne (Ne.symm hne), Seats]

namespace Hub

variable {hub hub' : Hub} {event : Event} {effects : List Effect} {id : ClientId} {client : Occupant}

/-- The first report removes the client, and everybody in its room who is heard is told. -/
theorem Steps.of_trigger (hstep : Steps hub event hub' effects) (hintact : hub.directory.Intact)
    (htrigger : event = .exited id ∨ event = .closed id)
    (hid : hub.directory.occupants[id]? = some client) :
    hub'.directory.occupants = hub.directory.occupants.erase id ∧ .hangUp id ∈ effects ∧
      ∀ other ≠ id, .hangUp other ∉ effects ∧ noticesFor other effects =
        if hub.directory.Seats other client.room then [.disconnected client.nickname] else [] := by
  cases hstep with
  | ignore | refuse | perform | welcome | turnAway | shutdown => simp at htrigger
  | @reclaim _ gone directory departure hevent hremove =>
    obtain rfl : id = gone := by rcases htrigger with rfl | rfl <;> simpa using hevent
    obtain ⟨occupant, hfound, hdeparted, hoccupants, hvacated⟩ := hintact.occupants_of_remove hremove
    obtain rfl := Option.some.inj (hfound.symm.trans hid)
    refine ⟨hoccupants, by simp, fun other hne => ⟨?_, ?_⟩⟩
    · rw [List.mem_cons, List.mem_cons, not_or, not_or]
      refine ⟨by simp, by simpa using hne, ?_⟩
      split
      next => exact List.not_mem_nil
      next => exact hangUp_not_mem_broadcast
    · rw [noticesFor_detach, noticesFor_hangUp, hdeparted]
      split
      next hgone =>
        -- Nobody is left in the room who could be told.
        rw [if_neg]
        · rfl
        · rintro ⟨member, hmember, -, hroom⟩
          exact hne ((hvacated.1 hgone).2 other (by rw [Directory.roomOf?_eq hmember, hroom]))
      next =>
        rw [noticesFor_broadcast_seats (hintact.remove hremove)]
        simp [Directory.seats_erase_of_ne hoccupants hne, Occupant.hangUp]
  | @reclaimAgain _ gone _ hevent hremove =>
    obtain rfl : id = gone := by rcases htrigger with rfl | rfl <;> simpa using hevent
    cases (Directory.eq_of_remove_none hremove).2.symm.trans hid

/-- A report for a client who is gone does nothing to the directory, and nobody hears of it. -/
theorem handle_trigger_of_none (hintact : hub.directory.Intact)
    (htrigger : event = .exited id ∨ event = .closed id)
    (hid : hub.directory.occupants[id]? = none) : hub.handle event = .ok (hub, [.detach id]) := by
  have hreclaim : hub.reclaim id = .ok (hub, [.detach id]) := by
    rw [reclaim, Directory.remove, hid]
  rcases htrigger with rfl | rfl
  · exact hreclaim
  · rw [handle, hreclaim, audited_eq hintact]

theorem exists_rename (hintact : hub.directory.Intact)
    (hid : hub.directory.occupants[id]? = some client) {nickname : String}
    (hfree : ∀ other, hub.directory.nicknameOf? other = some nickname → other = id) :
    ∃ hub' effects, hub.rename client nickname = .ok (hub', effects) ∧
      hub'.directory.nicknameOf? id = some nickname := by
  obtain rfl := hintact.occupant_id hid
  rw [rename]
  split
  next hsame => exact ⟨hub, _, rfl, by rw [Directory.nicknameOf?_eq hid, hsame]⟩
  next =>
    have hvacant : ¬hub.directory.nicknames[nickname]?.any (· != client.id) = true := by
      rw [Option.any_eq_true]
      rintro ⟨other, hother, hne⟩
      have hholder := hfree other ((hintact.indexed nickname other).1 (by simpa using hother))
      simp [hholder] at hne
    rw [Directory.rename_eq hid, if_neg hvacant]
    refine ⟨_, _, rfl, ?_⟩
    rw [Directory.nicknameOf?, ExtTreeMap.getElem?_insert_self]
    rfl

end Hub

theorem Intake.mem_of_visits_atRest {mode : IntakeMode} {capacity : Nat} {directory : Directory}
    {id : ClientId} (h : (atRest mode capacity directory).Visits id) : id ∈ directory.occupants := by
  cases mode with
  | addressed => exact h.elim
  | sweep => exact ExtTreeMap.mem_map.1 (by exact h)

/-- The report that comes with this moment removes the client, and everything it had. -/
structure Moment.Reclaims (moment : Moment) (id : ClientId) (client : Occupant) : Prop where
  present : moment.exchange.hub.directory.occupants[id]? = some client
  occupants : moment.after.hub.directory.occupants = moment.exchange.hub.directory.occupants.erase id
  roomless : ∀ (name : RoomName) (room : Room), moment.after.hub.directory.rooms[name]? = some room →
    id ∉ room.members
  unindexed : ∀ nickname : String, moment.after.hub.directory.nicknames[nickname]? ≠ some id
  free : moment.after.hub.directory.nicknames[client.nickname]? = none
  detached : moment.after.intake = moment.exchange.intake.detach id
  unvisited : ¬moment.after.intake.Visits id
  released : ¬moment.after.Holds id
  untold : moment.after.queuedFor id = moment.exchange.queuedFor id
  /-- Whoever is heard in the room gets one line, as far as its outbox takes it. -/
  told : ∀ other ≠ id, moment.exchange.hub.directory.Seats other client.room →
    ∃ outbox, moment.exchange.outboxes[other]? = some outbox ∧
      moment.after.outboxes[other]? = some (outbox.accept (.disconnected client.nickname))
  spared : ∀ other ≠ id, ¬moment.exchange.hub.directory.Seats other client.room →
    moment.after.outboxes[other]? = moment.exchange.outboxes[other]?

namespace Exchange

variable {settings : Settings} {start exchange exchange' finish : Exchange} {id : ClientId}
  {past moments earlier later : List Moment} {first moment : Moment} {client : Occupant} {event : Event}

/-- The hub visits nobody who has no place. -/
def Attended (exchange : Exchange) : Prop :=
  ∀ id, exchange.intake.Visits id → id ∈ exchange.hub.directory.occupants

theorem Amounts.attended (h : Amounts exchange moments exchange') (hsound : exchange.Sound settings)
    (hattended : exchange.Attended) : exchange'.Attended := by
  intro id hvisits
  cases h with
  | nothing _ hhub _ hintake =>
    rw [hhub]
    exact hattended id (hintake id hvisits)
  | @event moment _ _ _ _ _ _ _ hhandle hhub _ hintake =>
    rw [hhub, (Hub.steps_of_handle hhandle).mem_occupants_iff hsound.reachable.intact]
    rw [hintake] at hvisits
    cases hevent : moment.event with
    | register other peer =>
      rw [hevent] at hvisits
      rcases Intake.visits_attach hvisits with hbefore | rfl
      · exact Or.inr ⟨hattended id hbefore, by simp⟩
      · exact Or.inl ⟨peer, rfl⟩
    | exited other | closed other =>
      rw [hevent] at hvisits
      obtain ⟨hbefore, hne⟩ := Intake.visits_detach hvisits
      exact Or.inr ⟨hattended id hbefore, by simp [Ne.symm hne]⟩
    | line | shutdown =>
      rw [hevent] at hvisits
      exact Or.inr ⟨hattended id hvisits, by simp⟩

theorem Chronicle.attended (h : Chronicle settings past exchange) : exchange.Attended := by
  obtain ⟨start, hnew, hcourse⟩ := h
  refine hcourse.preserves (.of_new hnew) (fun hsound hamounts => hamounts.attended hsound) ?_
  obtain ⟨room, -, rfl⟩ := exists_of_new hnew
  exact fun id hvisits => Intake.mem_of_visits_atRest hvisits

theorem Amounts.reclaims (h : Amounts exchange [moment] exchange') (hsound : exchange.Sound settings)
    (hserves : exchange.Serves) (htrigger : moment.event = .exited id ∨ moment.event = .closed id)
    (hid : exchange.hub.directory.occupants[id]? = some client) : moment.Reclaims id client := by
  have hintact := hsound.reachable.intact
  cases h with
  | nothing hfailed =>
    obtain ⟨⟨_, _, hregister⟩, -⟩ := hfailed moment List.mem_cons_self
    exact absurd hregister (Event.ne_register_of_trigger htrigger _ _)
  | @event _ hub effects _ hopen hmoment hadmits _ hhandle =>
    have hstep := Hub.steps_of_handle hhandle
    have hintact' := hstep.intact hintact hadmits
    have hnone := hstep.noticesFor_of_reclaim hintact hadmits htrigger
    obtain ⟨hoccupants, hhung, hothers⟩ := hstep.of_trigger hintact htrigger hid
    obtain ⟨before, event⟩ := moment
    obtain ⟨orders, rfl⟩ := hmoment
    obtain ⟨hhub, hintake, houtbox⟩ := Moment.getElem?_after (by exact hhandle)
    have hgone : hub.directory.occupants[id]? = none := by
      rw [hoccupants, ExtTreeMap.getElem?_erase_self]
    have hdetached : (Moment.after ⟨{ exchange with orders }, event⟩).intake =
        exchange.intake.detach id := by
      rw [hintake]
      rcases htrigger with rfl | rfl <;> rfl
    constructor
    case present => exact hid
    case occupants => rw [hhub, hoccupants]
    case roomless =>
      intro name room hroom
      rw [hhub] at hroom
      rw [hintact'.housed.mem_members hroom, Directory.roomOf?, hgone]
      simp
    case unindexed =>
      intro nickname
      rw [hhub, ne_eq, hintact'.indexed, Directory.nicknameOf?, hgone]
      simp
    case free =>
      rw [hhub]
      cases hindexed : hub.directory.nicknames[client.nickname]? with
      | none => rfl
      | some other =>
        have hname := (hintact'.indexed _ other).1 hindexed
        rw [Directory.nicknameOf?, hoccupants, ExtTreeMap.getElem?_erase] at hname
        split at hname
        next => cases hname
        next hne =>
          have hsame := hintact.indexed.eq_of_name_eq (Directory.nicknameOf?_eq hid) hname
          exact absurd (Std.compare_eq_iff_eq.2 hsame) hne
    case detached => exact hdetached
    case unvisited =>
      rw [hdetached]
      exact fun hvisits => (Intake.visits_detach hvisits).2 rfl
    case released =>
      rintro ⟨outbox', houtbox', hheld⟩
      rw [houtbox] at houtbox'
      obtain ⟨outbox, -, rfl⟩ := Option.map_eq_some_iff.1 houtbox'
      cases (Outbox.isHeld_foldl_absorb_of_hangUp hhung outbox).symm.trans hheld
    case untold =>
      rw [Moment.queuedFor_after, Moment.queuedTo_eq_nil, List.append_nil]
      rw [Moment.dueTo_eq (by exact hhandle), hnone]
    case told =>
      intro other hne hseat
      obtain ⟨hspared, hdue⟩ := hothers other hne
      rw [if_pos hseat] at hdue
      -- As the hub is open, whoever has a seat has an outbox that is held.
      obtain ⟨outbox, hfound, hheld⟩ := hserves hopen other (Or.inl ⟨_, hseat⟩)
      refine ⟨outbox, hfound, ?_⟩
      rw [houtbox]
      dsimp only
      rw [hfound, Option.map_some, Outbox.foldl_absorb_eq_accept hheld hspared, hdue]
      rfl
    case spared =>
      intro other hne hseat
      obtain ⟨hspared, hdue⟩ := hothers other hne
      rw [if_neg hseat] at hdue
      rw [houtbox]
      simp only [Outbox.foldl_absorb_of_untouched hspared hdue, Option.map_id']

theorem handle_trigger_of_gone (hintact : exchange.hub.directory.Intact) (hattended : exchange.Attended)
    (hgone : id ∉ exchange.hub.directory.occupants)
    (htrigger : event = .exited id ∨ event = .closed id) : exchange.handle [event] = exchange := by
  rw [handle_singleton (Hub.handle_trigger_of_none hintact htrigger (ExtTreeMap.getElem?_eq_none hgone)),
    List.foldl_cons, List.foldl_nil, apply,
    Intake.detach_of_not_visits fun hvisits => hgone (hattended id hvisits)]

theorem Amounts.after_eq_of_gone (h : Amounts exchange [moment] exchange')
    (hsound : exchange.Sound settings)
    (hattended : exchange.Attended) (hgone : id ∉ exchange.hub.directory.occupants)
    (htrigger : moment.event = .exited id ∨ moment.event = .closed id) :
    moment.after = moment.exchange := by
  cases h with
  | nothing hfailed =>
    obtain ⟨⟨_, _, hregister⟩, -⟩ := hfailed moment List.mem_cons_self
    exact absurd hregister (Event.ne_register_of_trigger htrigger _ _)
  | event _ hmoment =>
    obtain ⟨orders, hmoment⟩ := hmoment
    rw [Moment.after, hmoment]
    exact handle_trigger_of_gone (by exact hsound.reachable.intact) hattended (by exact hgone) htrigger

/-- The hub's turn with the exit of somebody who is gone: only what is pending counts. -/
theorem takeExit_of_gone (h : Chronicle settings past exchange) (hopen : exchange.isOpen = true)
    (hgone : exchange.stage id = .removed) : exchange.takeExit id =
      handleBatch { exchange with intake := exchange.intake.drain.1 } exchange.intake.drain.2 := by
  have hreports : ∀ event ∈ exchange.intake.drain.2.map Envelope.event, event.isReport = true :=
    fun event hmem => Course.isReport_of_mem_batch hmem
  have hintact := h.sound.reachable.intact
  obtain ⟨moments, hmoments⟩ :=
    @Course.of_reports { exchange with intake := exchange.intake.drain.1 } _ hintact hopen hreports
  -- Handling the batch is a course too, so at its end the client is still gone.
  have hcourse := (Course.single (.work (Intake.Narrows.drain exchange.intake))).trans hmoments
  have hlater := h.extend hcourse
  have hstill := LifeStage.eq_removed (hgone ▸ hcourse.rank_le h.sound id)
  rw [takeExit]
  dsimp only
  rw [handle_append_of_ne (by exact hintact)]
  · exact handle_trigger_of_gone hlater.sound.reachable.intact hlater.attended
      (not_mem_of_removed hstill) (Or.inl rfl)
  · intro event hmem
    rcases List.mem_append.1 hmem with hmem | hmem
    · exact Event.ne_register (hreports event hmem)
    · obtain rfl := List.mem_singleton.1 hmem
      simp

/-- Reclaiming: of all reports that a client has exited or closed, in whatever order and whatever comes
between, the first removes it with all it had and tells whoever stays behind in its room; the others make
no difference. From then on anybody can have its nickname. -/
theorem Chronicle.reclaims_once (h : Chronicle settings past start) (id : ClientId)
    (hid : id ∈ start.hub.directory.occupants) (hcourse : Course start moments finish)
    (hsplit : moments = earlier ++ first :: later)
    (hfirst : first.event = .exited id ∨ first.event = .closed id)
    (hearlier : ∀ moment ∈ earlier, ¬(moment.event = .exited id ∨ moment.event = .closed id)) :
    ∃ client, first.Reclaims id client ∧
      (∀ moment ∈ later, moment.event = .exited id ∨ moment.event = .closed id →
        moment.after = moment.exchange) ∧
      (finish.isOpen = true → finish.takeExit id =
        handleBatch { finish with intake := finish.intake.drain.1 } finish.intake.drain.2) ∧
      ∀ other found, finish.hub.directory.occupants[other]? = some found →
        (∀ third, finish.hub.directory.nicknameOf? third = some client.nickname → third = other) →
        other ≠ id ∧ ∃ hub' effects, finish.hub.rename found client.nickname = .ok (hub', effects) ∧
          hub'.directory.nicknameOf? other = some client.nickname := by
  obtain ⟨before, after, hbefore, hat, hafter⟩ := hcourse.exists_incident hsplit
  have hthen := h.extend hbefore
  have hamounts := hat.amounts hthen.sound
  have hmem : id ∈ before.hub.directory.occupants := by
    by_contra hgone
    obtain ⟨moment, hmoment, htrigger⟩ := hbefore.exists_trigger h.sound hid hgone
    exact hearlier moment hmoment htrigger
  obtain ⟨client, hclient⟩ := Maps.mem_iff_exists.1 hmem
  have hgone := hamounts.stage_of_trigger hthen.sound hmem hfirst
  have hnow := hthen.step hat
  have hremoved {moments : List Moment} {exchange : Exchange} (hmore : Course after moments exchange) :
      exchange.stage id = .removed := LifeStage.eq_removed (hgone ▸ hmore.rank_le hnow.sound id)
  have hfinish := hnow.extend hafter
  refine ⟨client, hamounts.reclaims hthen.sound hthen.serves hfirst hclient, ?_, ?_, ?_⟩
  · intro moment hmoment htrigger
    obtain ⟨between, rest, rfl⟩ := List.append_of_mem hmoment
    obtain ⟨found, after', hmore, hagain, -⟩ := hafter.exists_incident rfl
    have hfound := hnow.extend hmore
    exact (hagain.amounts hfound.sound).after_eq_of_gone hfound.sound hfound.attended
      (not_mem_of_removed (hremoved hmore)) htrigger
  · exact fun hopen => takeExit_of_gone hfinish hopen (hremoved hafter)
  · intro other found hother hfree
    refine ⟨?_, Hub.exists_rename hfinish.sound.reachable.intact hother hfree⟩
    rintro rfl
    exact not_mem_of_removed (hremoved hafter) (Maps.mem_of_getElem? hother)

set_option maxRecDepth 20000 in
/-- A client whose end is reported twice, and another that takes its nickname. -/
theorem reclaims_once_of_two_reports : ∃ past start finish first second client found hub effects,
    Chronicle {} past start ∧ Course start [first, second] finish ∧ first.event = .closed 1 ∧
    second.event = .exited 1 ∧ first.Reclaims 1 client ∧ second.after = second.exchange ∧
    finish.queuedFor 2 = ["* welcome guest2! you are in room 'general' (CMD:help:: lists commands)",
      "* guest1 disconnected"] ∧
    finish.hub.rename found "guest1" = .ok (hub, effects) ∧
    hub.directory.nicknameOf? 2 = some "guest1" := by
  have h₀ : Chronicle {} [] _ := ⟨_, rfl, .refl⟩
  have h₁ := h₀.step (@Incident.connect _ 1 8 _ rfl rfl)
  have h₂ := h₁.step (@Incident.ask _ _ 1 none rfl (fun _ => List.not_mem_nil) rfl)
  have h₃ := h₂.step (@Incident.order _ _ _ rfl rfl (by simp))
  have h₄ := h₃.step (@Incident.connect _ 2 8 _ rfl rfl)
  have h₅ := h₄.step (@Incident.ask _ _ 2 none rfl (fun _ => List.not_mem_nil) rfl)
  have h₆ := h₅.step (@Incident.order _ _ _ rfl rfl (by simp))
  have hbegun {past : List Moment} {start : Exchange} (_ : Chronicle {} past start) :
      Course start [] start := .refl
  have hclosed := (hbegun h₆).step (@Incident.hear _ (.closed 1) rfl rfl)
  have hexited := hclosed.step (@Incident.hear _ (.exited 1) rfl rfl)
  obtain ⟨client, hreclaims, hothers, -, hfree⟩ := h₆.reclaims_once 1 (Maps.mem_of_getElem? rfl) hexited
    (show _ = [] ++ _ :: _ from rfl) (Or.inr rfl) fun moment hmem => absurd hmem List.not_mem_nil
  have hname : client.nickname = "guest1" :=
    congrArg Occupant.nickname (Option.some.inj (hreclaims.present.symm.trans rfl))
  rw [hname] at hfree
  have hindexed := (h₆.extend hexited).sound.reachable.intact.indexed "guest1"
  obtain ⟨-, hub, effects, hrename, hrenamed⟩ :=
    hfree 2 ⟨2, "guest2", ⟨"general", by decide⟩, none, .active⟩ rfl fun third hthird => by
      have hvacant : none = some third := (hindexed third).2 hthird
      cases hvacant
  exact ⟨_, _, _, _, _, client, _, hub, effects, h₆, hexited, rfl, rfl, hreclaims,
    hothers _ List.mem_cons_self (Or.inl rfl), rfl, hrename, hrenamed⟩

end Exchange

end ChatRooms
