import ChatRooms.Proofs.Exchange.Turns
import ChatRooms.Proofs.Service.Standing

namespace ChatRooms

open Std

theorem Floor.Step.isOpen {floor floor' : Floor} {happenings : List Happening}
    (hstep : Step floor happenings floor') (hopen : floor'.exchange.isOpen = true) :
    floor.exchange.isOpen = true := by
  cases hstep with
  | connect | giveUp | write | letGo | vanish | ring | take | stopReading | pass | dropHandles | gather
    | conclude => exact hopen
  | post _ hpost =>
    obtain rfl := Exchange.eq_of_post hpost
    exact hopen
  | order _ hready | leave _ hready | answer _ hready => exact Exchange.isOpen_of_isReady hready
  | handle _ hbefore => exact hbefore
  | close _ hphase | stop _ hphase => rw [Exchange.isOpen, hphase]

theorem Floor.Stir.isOpen {floor floor' : Floor} {happenings : List Happening}
    (hstir : Stir floor happenings floor') (hopen : floor'.exchange.isOpen = true) :
    floor.exchange.isOpen = true := by
  cases hstir with
  | step hstep => exact hstep.isOpen hopen
  | write => exact hopen
  | report hpost =>
    obtain rfl := Exchange.eq_of_post hpost
    exact hopen

theorem lifeOf_reached (id : ClientId) (milestone : Milestone) :
    lifeOf id [.reached id milestone] = [milestone] := by
  simp [lifeOf, Episode.milestone?]

theorem lifeOf_reached_of_ne {id other : ClientId} {milestone : Milestone} (hne : id ≠ other) :
    lifeOf id [.reached other milestone] = [] := by
  simp [lifeOf, Episode.milestone?, hne.symm]

theorem Exchange.isOpen_of_post_closed {exchange : Exchange} {order : Order}
    (h : exchange.post order = .closed) : exchange.isOpen = false := by
  unfold post at h
  split at h
  next hgone => simpa using hgone
  next => split at h <;> cases h

namespace Premises

variable {premises premises' : Premises} {episodes trace more : List Episode} {settings : Settings}
  {id other : ClientId} {stage? : Option Stage}

theorem proceeds_elsewhere (hstage : premises'.service.stage? id = premises.service.stage? id)
    (hregistration : premises'.service.exchange.registrations[id]? =
      premises.service.exchange.registrations[id]?)
    (hrequests : premises'.floor.requestsOf id = premises.floor.requestsOf id)
    (hexits : premises'.floor.exitsOf id = premises.floor.exitsOf id)
    (hhub : premises'.service.exchange.hub = premises.service.exchange.hub) :
    Standing.Proceeds (premises.standing id) [] (premises'.standing id) := by
  rw [standing, standing, hstage]
  refine Floor.proceeds_stay hregistration hrequests hexits ?_
  show id ∈ premises'.service.exchange.hub.directory.occupants → _
  rw [hhub]
  exact fun h => h

theorem standing_eq (premises : Premises) {registration? : Option Registration}
    (hstage : premises.service.stage? id = stage?)
    (hregistration : premises.service.exchange.registrations[id]? = registration?) :
    premises.standing id = ⟨stage?, registration?, premises.floor.requestsOf id,
      premises.floor.exitsOf id, premises.service.exchange.hub.directory.occupants.contains id⟩ := by
  rw [standing, Floor.standing, hstage, ← hregistration]
  rfl

/-- What comes of a step with one connection that does not touch the hub. -/
theorem proceeds_turns {service : Service} (hturns : premises.service.Turns other stage? service)
    (hexchange : service.exchange = premises.service.exchange)
    (hhere : Standing.Proceeds (premises.standing other) (lifeOf other episodes)
      { premises.standing other with stage? })
    (haway : ∀ id, id ≠ other → lifeOf id episodes = []) (id : ClientId) :
    Standing.Proceeds (premises.standing id) (lifeOf id episodes)
      (standing { premises with service } id) := by
  have hfloor : floor { premises with service } = premises.floor := by
    rw [floor, floor, hexchange]
  by_cases hid : id = other
  · subst hid
    have hafter : standing { premises with service } id = { premises.standing id with stage? } := by
      rw [standing, hfloor, hturns.self]
      rfl
    rw [hafter]
    exact hhere
  · have hafter : standing { premises with service } id = premises.standing id := by
      rw [standing, hfloor, hturns.other hid]
      rfl
    rw [hafter, haway id hid]
    exact .stay fun h => h

theorem floor_accept {service : Service} {outbox : Outbox} {holders : ExtTreeSet ClientId}
    (hexchange : service.exchange = premises.service.exchange.connect other outbox) :
    floor { premises with service, holders } = { premises.floor with
      exchange := premises.service.exchange.connect other outbox, holders } := by
  rw [floor, hexchange]
  rfl

theorem proceeds_post {service : Service} {order : Order}
    (hturns : premises.service.Turns other stage? service)
    (hexchange : service.exchange = { premises.service.exchange with
      orders := premises.service.exchange.orders ++ [order] })
    (hrequest : ∀ id, id ≠ other → order.newcomer? ≠ some id)
    (hexit : ∀ id, id ≠ other → order ≠ .exited id)
    (hhere : Standing.Proceeds (premises.standing other) (lifeOf other episodes)
      { premises.standing other with
        stage?
        requests := premises.floor.requestsOf other + if order.newcomer? = some other then 1 else 0
        exits := premises.floor.exitsOf other + if order = .exited other then 1 else 0 })
    (haway : ∀ id, id ≠ other → lifeOf id episodes = []) (id : ClientId) :
    Standing.Proceeds (premises.standing id) (lifeOf id episodes)
      (standing { premises with service } id) := by
  have hafter : standing { premises with service } id = { premises.standing id with
      stage? := service.stage? id
      requests := premises.floor.requestsOf id + if order.newcomer? = some id then 1 else 0
      exits := premises.floor.exitsOf id + if order = .exited id then 1 else 0 } := by
    rw [← premises.floor.requestsOf_post, ← premises.floor.exitsOf_post, standing, floor, hexchange]
    rfl
  rw [hafter]
  by_cases hid : id = other
  · subst hid
    rw [hturns.self]
    exact hhere
  · rw [hturns.other hid, haway id hid, if_neg (hrequest id hid), if_neg (hexit id hid)]
    exact .stay fun h => h

theorem Step.proceeds (hstep : Step premises episodes premises')
    (hsound : Floor.Sound settings (happeningsOf trace) premises.floor)
    (hopen : premises'.service.exchange.isOpen = true) (id : ClientId) :
    Standing.Proceeds (premises.standing id) (lifeOf id episodes) (premises'.standing id) := by
  have away (other : ClientId) (milestone : Milestone) (id : ClientId) (hne : id ≠ other) :
      lifeOf id [.reached other milestone] = [] := lifeOf_reached_of_ne hne
  cases hstep with
  | seen hchoice hchoose =>
    rw [lifeOf_seen]
    exact Floor.proceeds_of_choose hsound hchoice hchoose hopen
  | @accept other peer service hnew hnobody haccept =>
    obtain ⟨hturns, outbox, -, hexchange⟩ := Service.of_accept hnobody haccept
    have hafter : standing { premises with service, holders := premises.holders.insert other } id =
        Floor.standing _ id (service.stage? id) :=
      congrArg (Floor.standing · id _) (floor_accept hexchange)
    rw [hafter]
    by_cases hid : id = other
    · subst hid
      rw [lifeOf_reached, standing_eq premises hnobody hnew, hturns.self]
      show Standing.Proceeds _ _ ⟨_, (premises.service.exchange.registrations.insert id .pending)[id]?,
        _, _, _⟩
      rw [ExtTreeMap.getElem?_insert_self]
      exact .accept
    · rw [away other _ id hid, hturns.other hid]
      exact Floor.proceeds_stay (Maps.getElem?_insert_of_ne (Ne.symm hid)) rfl rfl fun h => h
  -- A connection that is turned away is given no id, so no client notices it.
  | turnAway => exact proceeds_elsewhere rfl rfl rfl rfl rfl
  | @announce other connection hconnection hstage =>
    cases hpost : premises.service.exchange.post (.register other connection.peer) with
    | accepted exchange =>
      have haccepted := (Service.stage?_of_connection hconnection).trans (congrArg some hstage)
      have hturns : premises.service.Turns other (some .announced)
          ({ premises.service with exchange }.setStage other .announced) :=
        .of_exchange (Service.turns_setStage haccepted rfl)
      rw [Service.announce_of_post hpost]
      refine proceeds_post hturns (Exchange.eq_of_post hpost) ?_ (by simp) ?_ (fun _ _ => rfl) id
      · intro id hne hnewcomer
        exact hne (Option.some.inj hnewcomer).symm
      · have hnewcomer : (Order.register other connection.peer).newcomer? = some other := rfl
        rw [standing_eq premises haccepted rfl, if_pos hnewcomer, if_neg (by simp)]
        exact .announce
    -- While the queue is full the announcement waits; a closed queue contradicts `hopen`.
    | full =>
      rw [Service.announce, hpost]
      exact .stay fun h => h
    | closed =>
      rw [Service.announce, hpost] at hopen
      cases (Exchange.isOpen_of_post_closed hpost).symm.trans hopen
  | @begin other hstage haccepted =>
    rw [Service.startWork_of_accepted haccepted]
    refine proceeds_turns (Service.turns_setStage hstage (by rfl)) rfl ?_ (away other _) id
    rw [lifeOf_reached, standing_eq premises hstage haccepted]
    exact .begin
  | @giveUp other hstage hrefused =>
    rw [Service.startWork_of_refused hrefused]
    refine proceeds_turns (Service.turns_dismiss hstage rfl) rfl ?_ (fun _ _ => rfl) id
    rw [standing_eq premises hstage hrefused]
    exact .dismiss
  | @finish other ending hstage =>
    refine proceeds_turns (Service.turns_setStage hstage (by rfl)) rfl ?_ (away other _) id
    rw [lifeOf_reached, standing_eq premises hstage rfl]
    exact .finish ending
  | @release other hstage =>
    refine proceeds_turns (Service.turns_releaseSlot hstage) rfl ?_ (away other _) id
    rw [lifeOf_reached, standing_eq premises hstage rfl]
    exact .release
  | @report other exchange hstage hpost =>
    have hturns : premises.service.Turns other none ({ premises.service with exchange }.forget other) :=
      .of_exchange (Service.turns_forget hstage)
    rw [Service.reportEnd_of_post hpost]
    refine proceeds_post hturns (Exchange.eq_of_post hpost) (by simp [Order.newcomer?]) ?_ ?_
      (away other _) id
    · intro id hne hexited
      exact hne (Order.exited.inj hexited).symm
    · rw [lifeOf_reached, standing_eq premises hstage rfl, if_neg (by simp [Order.newcomer?]), if_pos rfl]
      exact .report
  -- The report is withheld only once the coordinator is gone, which `hopen` rules out.
  | @withhold other hstage hgone =>
    rw [Service.reportEnd_of_closed hgone] at hopen
    cases hgone.symm.trans hopen
  | @note other change hchange =>
    refine proceeds_turns (Service.turns_update hchange) rfl ?_ (fun _ _ => rfl) id
    exact .stay fun h => h

theorem Step.isOpen (hstep : Step premises episodes premises')
    (hopen : premises'.service.exchange.isOpen = true) : premises.service.exchange.isOpen = true := by
  cases hstep with
  | seen _ hchoose => exact (Floor.stir_of_choose hchoose).isOpen hopen
  | accept _ hnobody haccept =>
    obtain ⟨-, outbox, -, hexchange⟩ := Service.of_accept hnobody haccept
    dsimp only at hopen
    rw [hexchange] at hopen
    exact hopen
  | turnAway | finish | release | note => exact hopen
  | @announce id connection =>
    cases hpost : premises.service.exchange.post (.register id connection.peer) with
    | accepted exchange =>
      dsimp only at hopen
      rw [Service.announce_of_post hpost] at hopen
      obtain rfl := Exchange.eq_of_post hpost
      exact hopen
    | full | closed =>
      rw [Service.announce, hpost] at hopen
      exact hopen
  | begin _ haccepted =>
    rw [Service.startWork_of_accepted haccepted] at hopen
    exact hopen
  | giveUp _ hrefused =>
    rw [Service.startWork_of_refused hrefused] at hopen
    exact hopen
  | report _ hpost =>
    rw [Service.reportEnd_of_post hpost] at hopen
    obtain rfl := Exchange.eq_of_post hpost
    exact hopen
  | withhold _ hgone =>
    rw [Service.reportEnd_of_closed hgone] at hopen
    exact hopen

theorem exited_mem_lifeOf {hub : Hub} (h : .handled hub (.exited id) ∈ happeningsOf episodes) :
    .exited ∈ lifeOf id episodes := by
  obtain ⟨episode, hmem, hepisode⟩ := List.mem_filterMap.1 h
  refine List.mem_filterMap.2 ⟨episode, hmem, ?_⟩
  cases episode with
  | seen happening =>
    obtain rfl := Option.some.inj hepisode
    exact if_pos rfl
  | reached | turnedAway => cases hepisode

theorem Step.goes (hstep : Step premises episodes premises')
    (haccords : ∀ id, Standing.Accords (lifeOf id trace) (premises.standing id))
    (hopen : premises'.service.exchange.isOpen = true) :
    Floor.Goes premises.floor (happeningsOf episodes) premises'.floor := by
  have single {happenings : List Happening} {floor floor' : Floor}
      (hstir : Floor.Stir floor happenings floor') : Floor.Goes floor happenings floor' :=
    .step .refl hstir
  cases hstep with
  | seen _ hchoose =>
    rw [happeningsOf_seen]
    exact single (Floor.stir_of_choose hchoose)
  | @accept id peer service hnew hnobody haccept =>
    obtain ⟨-, outbox, houtbox, hexchange⟩ := Service.of_accept hnobody haccept
    rw [floor_accept hexchange]
    exact single (.step (.connect hnew houtbox))
  | turnAway | finish | release | note => exact .refl
  | @announce id connection hconnection hstage =>
    have haccepted := (Service.stage?_of_connection hconnection).trans (congrArg some hstage)
    obtain ⟨hpending, hunasked⟩ := (haccords id).of_accepted haccepted
    cases hpost : premises.service.exchange.post (.register id connection.peer) with
    | accepted exchange =>
      have hgives : premises.floor.Gives (.register id connection.peer) := by
        refine ⟨hpending, fun peer hmem => ?_⟩
        have hnone := List.countP_eq_zero.1 hunasked _ hmem
        simp [Order.newcomer?] at hnone
      rw [Service.announce_of_post hpost]
      exact single (.step (.post hgives hpost))
    | full =>
      rw [Service.announce, hpost]
      exact .refl
    | closed =>
      rw [Service.announce, hpost] at hopen
      cases (Exchange.isOpen_of_post_closed hpost).symm.trans hopen
  | begin _ haccepted =>
    rw [Service.startWork_of_accepted haccepted]
    exact .refl
  | giveUp _ hrefused =>
    rw [Service.startWork_of_refused hrefused]
    exact .refl
  | report _ hpost =>
    rw [Service.reportEnd_of_post hpost]
    exact single (.report hpost)
  | withhold _ hgone =>
    rw [Service.reportEnd_of_closed hgone]
    exact .refl

theorem exists_of_new {service : Service} (hnew : Service.new settings = .ok service) :
    ∃ exchange, Exchange.new settings = .ok exchange ∧ service = {
      exchange
      maxClients := settings.maxClients
      maxLineLength := settings.maxLineLength
      clientQueue := settings.clientQueue
      freeSlots := settings.maxClients } := by
  unfold Service.new at hnew
  cases hexchange : Exchange.new settings with
  | error fault =>
    rw [hexchange] at hnew
    cases hnew
  | ok exchange =>
    rw [hexchange] at hnew
    cases hpermits : checkPermits settings.maxClients with
    | error fault =>
      rw [hpermits] at hnew
      cases hnew
    | ok =>
      rw [hpermits] at hnew
      exact ⟨exchange, rfl, (Except.ok.inj hnew).symm⟩

theorem Reached.slots (h : Reached settings trace premises) :
    premises.service.freeSlots + premises.service.slotsHeld = settings.maxClients := by
  induction h with
  | start hnew =>
    obtain ⟨exchange, -, rfl⟩ := exists_of_new hnew
    rfl
  | step _ hstep ih => exact hstep.slots_eq.1.trans ih

/-- What has happened can happen on the floor, and every client stands as its life tells. -/
theorem Reached.accords (h : Reached settings trace premises)
    (hopen : premises.service.exchange.isOpen = true) :
    Floor.Bustle settings (happeningsOf trace) premises.floor ∧
      ∀ id, Standing.Accords (lifeOf id trace) (premises.standing id) := by
  induction h with
  | start hnew =>
    obtain ⟨exchange, hexchange, rfl⟩ := exists_of_new hnew
    refine ⟨⟨exchange, hexchange, .refl⟩, fun id => ?_⟩
    obtain ⟨room, -, rfl⟩ := Exchange.exists_of_new hexchange
    exact .unknown
  | @step trace episodes premises premises' _ hstep ih =>
    obtain ⟨hbustle, haccords⟩ := ih (hstep.isOpen hopen)
    refine ⟨?_, fun id => ?_⟩
    · rw [happeningsOf_append]
      exact hbustle.extend (hstep.goes haccords hopen)
    · rw [lifeOf_append]
      exact (haccords id).proceed (hstep.proceeds hbustle.sound hopen id)

/-- An exit is handled only when its client has been put into the directory. -/
theorem Reached.enrolled_before (h : Reached settings trace premises)
    (hopen : premises.service.exchange.isOpen = true) {before after : List Happening} {hub : Hub}
    (htrace : happeningsOf trace = before ++ .handled hub (.exited id) :: after) :
    Floor.Enrolled id before := by
  induction h generalizing after with
  | start => exact absurd htrace (by simp [happeningsOf])
  | @step trace episodes premises premises' hbefore hstep ih =>
    obtain ⟨hbustle, haccords⟩ := hbefore.accords (hstep.isOpen hopen)
    have now (hmem : .handled hub (.exited id) ∈ happeningsOf episodes) :
        Floor.Enrolled id (happeningsOf trace) := by
      have hproceeds := hstep.proceeds hbustle.sound hopen id
      exact (hbustle.answered id).enrolled.1 ((haccords id).of_exit hproceeds (exited_mem_lifeOf hmem))
    rw [happeningsOf_append] at htrace
    rcases List.append_eq_append_iff.1 htrace with
      ⟨more, rfl, hmore⟩ | ⟨_ | ⟨first, more⟩, hearlier, hmore⟩
    · exact Floor.enrolled_append.2 (Or.inl (now (by simp [hmore])))
    · rw [List.append_nil] at hearlier
      rw [List.nil_append] at hmore
      rw [← hearlier]
      exact now (hmore ▸ List.mem_cons_self)
    · obtain ⟨rfl, -⟩ := List.cons.inj hmore
      exact ih (hstep.isOpen hopen) hearlier

/-- The worker of the client is about to start, or has not ended. -/
def Unfinished (premises : Premises) (id : ClientId) : Prop :=
  premises.service.stage? id = some .announced ∨ premises.service.stage? id = some .working

/-- The worker of the client has ended: whoever watches over it has yet to report that, or the hub has
yet to handle the report. -/
def Outstanding (premises : Premises) (id : ClientId) : Prop :=
  premises.service.stage? id = some .ended ∨ premises.service.stage? id = some .unreported ∨
    0 < premises.floor.exitsOf id

/-- Whoever watches over a worker waits for nothing but a place among the orders. -/
theorem exists_step_report (hstage : premises.service.stage? id = some .unreported)
    (hopen : premises.service.exchange.isOpen = true)
    (hplace : premises.service.exchange.orders.length < premises.service.exchange.orderCapacity) :
    ∃ after, Step premises [.reached id .reported] after := by
  have hpost : premises.service.exchange.post (.exited id) = .accepted { premises.service.exchange with
      orders := premises.service.exchange.orders ++ [.exited id] } := by
    rw [Exchange.post, hopen, if_neg (by simp), if_neg (Nat.not_le.2 hplace)]
  exact ⟨_, .report hstage hpost⟩

/-- Every slot is free or taken, and nobody is turned away while one is free. As long as there is a hub,
every worker that ends is reported once, the report is handled after its client was registered, and
whoever is in the directory has a worker that has not ended or is yet to be told of. -/
theorem Reached.keeps_account (h : Reached settings trace premises) :
    (premises.service.freeSlots + premises.service.slotsHeld = settings.maxClients ∧
      premises.service.workers ≤ settings.maxClients ∧
      ∀ id episodes after, Step premises episodes after → .turnedAway id ∈ episodes →
        premises.service.slotsHeld = settings.maxClients) ∧
    (premises.service.exchange.isOpen = true →
      (∀ id, (∃ ending, lifeOf id trace <+: wholeLife ending) ∧
        (∀ ending, .ended ending ∈ lifeOf id trace → (lifeOf id trace).count .reported = 1 ∨
          (premises.service.stage? id = some .ended ∧
            ∃ after, Step premises [.reached id .released] after) ∨
          premises.service.stage? id = some .unreported ∧
            (premises.service.exchange.orders.length < premises.service.exchange.orderCapacity →
              ∃ after, Step premises [.reached id .reported] after)) ∧
        (lifeOf id trace).count .reported =
          premises.floor.exitsOf id + (lifeOf id trace).count .exited ∧
        ∀ before hub after, happeningsOf trace = before ++ .handled hub (.exited id) :: after →
          Floor.Enrolled id before) ∧
      (∀ id, id ∈ premises.service.exchange.hub.directory.occupants →
        premises.Unfinished id ∨ premises.Outstanding id) ∧
      ((∀ id, ¬premises.Unfinished id ∧ ¬premises.Outstanding id) →
        premises.service.exchange.hub.directory.isEmpty = true)) := by
  have hslots := h.slots
  refine ⟨⟨hslots, ?_, fun id episodes after hstep hturned => ?_⟩, fun hopen => ?_⟩
  · have hworkers := premises.service.workers_le_slotsHeld
    omega
  · have hfree : premises.service.freeSlots = 0 := by
      cases hstep with
      | turnAway haccept => exact Service.freeSlots_eq_zero_of_accept haccept
      | _ => simp at hturned
    omega
  · obtain ⟨-, haccords⟩ := h.accords hopen
    have hpresent (id : ClientId) (hid : id ∈ premises.service.exchange.hub.directory.occupants) :
        premises.Unfinished id ∨ premises.Outstanding id :=
      (haccords id).of_present (ExtTreeMap.contains_iff_mem.2 hid)
    refine ⟨fun id => ⟨(haccords id).isPrefix, fun ending hended => ?_, (haccords id).count_reported,
      fun before hub after htrace => h.enrolled_before hopen htrace⟩, hpresent, fun hnobody => ?_⟩
    · rcases (haccords id).of_ended hended with honce | hstage | hstage
      · exact Or.inl honce
      · exact Or.inr (Or.inl ⟨hstage, _, .release hstage⟩)
      · exact Or.inr (Or.inr ⟨hstage, exists_step_report hstage hopen⟩)
    · rw [Directory.isEmpty, ExtTreeMap.isEmpty_iff, ExtTreeMap.eq_empty_iff_forall_not_mem]
      intro id hid
      exact (hpresent id hid).elim (hnobody id).1 (hnobody id).2

set_option maxRecDepth 20000 in
/-- With one slot only, the second client is turned away while the first one's worker is at work, and
let in before the hub knows that it has failed. Meanwhile the lines that it has read go on coming in. -/
theorem keeps_account_of_failed_worker : ∃ trace premises,
    Reached { maxClients := 1 } trace premises ∧ .turnedAway 2 ∈ trace ∧
    premises.service.exchange.isOpen = true ∧
    premises.service.freeSlots + premises.service.slotsHeld = 1 ∧
    lifeOf 1 trace = [.admitted, .registered, .begun, .ended (.failed "broken pipe"), .released, .reported] ∧
    happeningsOf trace = [.handled (.start { maxClients := 1 } ⟨"general", by decide⟩) (.register 1 none),
      .forwarded 1 "CHAT:::late"] ∧
    premises.service.stage? 2 = some .accepted ∧
    1 ∈ premises.service.exchange.hub.directory.occupants ∧
    (premises.Unfinished 1 ∨ premises.Outstanding 1) := by
  have h₀ : Reached { maxClients := 1 } [] _ := .start rfl
  have h₁ := h₀.step (@Step.accept _ 1 none _ rfl rfl rfl)
  have h₂ := h₁.step (@Step.announce _ 1 _ rfl rfl)
  have h₃ := h₂.step (@Step.seen _ .order _ _ rfl rfl)
  have h₄ := h₃.step (@Step.begin _ 1 rfl rfl)
  have h₅ := h₄.step (@Step.turnAway _ 2 none rfl)
  have h₆ := h₅.step (@Step.finish _ 1 (.failed "broken pipe") rfl)
  have h₇ := h₆.step (@Step.release _ 1 rfl)
  have h₈ := h₇.step (@Step.seen _ (.write 1 "CHAT:::late") _ _ rfl rfl)
  have h₉ := h₈.step (@Step.accept _ 2 none _ rfl rfl rfl)
  have h₁₀ := h₉.step (@Step.report _ 1 _ rfl rfl)
  have haccount := h₁₀.keeps_account
  exact ⟨_, _, h₁₀, by simp, rfl, haccount.1.1, rfl, rfl, rfl, ExtTreeMap.contains_iff_mem.1 rfl,
    (haccount.2 rfl).2.1 1 (ExtTreeMap.contains_iff_mem.1 rfl)⟩

end Premises

end ChatRooms
