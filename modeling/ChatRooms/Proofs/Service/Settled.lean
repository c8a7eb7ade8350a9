import ChatRooms.Proofs.Service.Accounts

namespace ChatRooms

open Std

/-- Whether the worker's ends of both ways are held, by the worker or for it. -/
def Stage.holdsEnds : Stage → Bool
  | accepted | announced | working => true
  | ended | unreported => false

theorem Choice.isOfService_of_isOfHub {choice : Choice} (h : choice.isOfHub = true) :
    choice.isOfService = false := by
  cases choice <;> first | rfl | cases h

theorem Standing.Accords.of_unknown {life : List Milestone} {standing : Standing}
    (h : Accords life standing) (hregistration : standing.registration? = none) :
    standing.stage? = none := by
  cases h with
  | unknown => rfl
  | _ => cases hregistration

namespace Exchange

variable {exchange exchange' : Exchange} {id : ClientId}

theorem exists_write_of_forward {line : String} (h : exchange.forward id line = .accepted exchange') :
    ∃ intake, exchange.intake.write id line = .accepted intake ∧
      exchange' = { exchange with intake := intake.ring } := by
  unfold forward at h
  split at h
  next =>
    rw [Intake.forward_eq_map_ring] at h
    cases hwrite : exchange.intake.write id line with
    | accepted intake =>
      rw [hwrite] at h
      exact ⟨intake, rfl, (Posting.accepted.inj h).symm⟩
    | full | closed =>
      rw [hwrite] at h
      cases h
  next => cases h

theorem eq_abandon_of_close (h : exchange.close id = .accepted exchange') :
    exchange' = exchange.abandon id := by
  unfold close at h
  split at h
  next =>
    rw [abandon, Intake.abandon]
    cases hclose : exchange.intake.close id with
    | accepted intake =>
      rw [hclose] at h
      exact (Posting.accepted.inj h).symm
    | full | closed =>
      rw [hclose] at h
      cases h
  next => cases h

end Exchange

namespace Premises

/-- Somebody's steps have led here. -/
def Attained (settings : Settings) (premises : Premises) : Prop :=
  ∃ trace, Reached settings trace premises

/-- The hub waits, and workers have their ends until they end. -/
structure Rests (premises : Premises) : Prop where
  free : premises.activity = .handling []
  holds {id : ClientId} : (premises.service.stage? id).any Stage.holdsEnds = true → id ∈ premises.holders

variable {settings : Settings} {premises premises' : Premises} {episodes : List Episode}
  {happenings : List Happening} {floor : Floor} {choice : Choice} {id : ClientId}
  {stage? : Option Stage} {service : Service}

namespace Attained

theorem step (h : Attained settings premises) (hstep : Step premises episodes premises') :
    Attained settings premises' := by
  obtain ⟨trace, hreached⟩ := h
  exact ⟨_, hreached.step hstep⟩

theorem seen (h : Attained settings premises) (hchoice : choice.isOfService = false)
    (hchoose : premises.floor.choose choice = some (happenings, floor)) :
    Attained settings (premises.onFloor floor) :=
  h.step (.seen hchoice hchoose)

theorem plays (h : Attained settings premises) (hplays : premises.floor.Plays floor) :
    Attained settings (premises.onFloor floor) := by
  obtain ⟨choices, happenings, hhub, hplay⟩ := hplays
  induction choices generalizing premises happenings with
  | nil =>
    cases hplay
    exact h
  | cons choice choices ih =>
    obtain ⟨hchoice, hchoices⟩ := List.forall_mem_cons.1 hhub
    obtain ⟨first, between, rest, hchoose, hrest, rfl⟩ := Floor.play_cons_eq_some.1 hplay
    have hlater := ih (h.seen (Choice.isOfService_of_isOfHub hchoice) hchoose) rest hchoices hrest
    exact hlater

theorem rings {intake : Intake} {holders : ExtTreeSet ClientId}
    (h : Attained settings { premises with
      service := { premises.service with exchange := { premises.service.exchange with intake } }
      holders
      ringers := id :: premises.ringers }) :
    Attained settings { premises with
      service := { premises.service with
        exchange := { premises.service.exchange with intake := intake.ring } }
      holders } := by
  have hchoose : Floor.choose (Premises.floor { premises with
      service := { premises.service with exchange := { premises.service.exchange with intake } }
      holders
      ringers := id :: premises.ringers }) (.ring id) = some ([], {
        exchange := { premises.service.exchange with intake := intake.ring }
        activity := premises.activity
        holders
        ringers := premises.ringers }) := by
    simp [Floor.choose, floor]
  have hrung := h.seen rfl hchoose
  exact hrung

theorem letsGo (h : Attained settings premises) (hholds : id ∈ premises.holders)
    (hopen : premises.service.exchange.isOpen = true) :
    Attained settings { premises with
      service := { premises.service with exchange := premises.service.exchange.abandon id }
      holders := premises.holders.erase id } := by
  rw [Exchange.abandon, Intake.abandon, Intake.close_eq_map_ring]
  rcases premises.service.exchange.intake.letGo_cases id with ⟨intake, hletGo⟩ | ⟨hfull, hmode⟩
  · have hchoose : premises.floor.choose (.letGo id) = some ([], { premises.floor with
        exchange := { premises.service.exchange with intake }
        holders := premises.holders.erase id
        ringers := id :: premises.ringers }) := by
      simp [Floor.choose, floor, hholds, hopen, hletGo, Posting.accepted?]
    rw [hletGo]
    exact rings (h.seen rfl hchoose)
  · -- A worker that cannot leave word has no feed of its own.
    have hlost : premises.service.exchange.intake.isPrivate = false := by
      rw [Intake.isPrivate, hmode]
      rfl
    have hchoose : premises.floor.choose (.vanish id) = some ([], { premises.floor with
        holders := premises.holders.erase id }) := by
      simp [Floor.choose, floor, hholds, hlost]
    have hgone := h.seen rfl hchoose
    rw [hfull]
    exact hgone

theorem leaves (h : Attained settings premises) (hholds : id ∈ premises.holders)
    (hopen : premises.service.exchange.isOpen = true) :
    Attained settings { premises with
      service := { premises.service with exchange :=
        (premises.service.exchange.abandon id).updateOutbox id Outbox.stopReading }
      holders := premises.holders.erase id } := by
  have hchoose : Floor.choose (Premises.floor { premises with
      service := { premises.service with exchange := premises.service.exchange.abandon id }
      holders := premises.holders.erase id }) (.stopReading id) = some ([], { premises.floor with
        exchange := (premises.service.exchange.abandon id).updateOutbox id Outbox.stopReading
        holders := premises.holders.erase id }) := rfl
  have hdeaf := (h.letsGo hholds hopen).seen rfl hchoose
  exact hdeaf

end Attained

/-- What has to be known of a client's ends when its connection comes to another stage. -/
theorem Rests.turn {holders : ExtTreeSet ClientId} (h : premises.Rests)
    (hturns : premises.service.Turns id stage? service)
    (hothers : ∀ other, other ≠ id → other ∈ premises.holders → other ∈ holders)
    (hends : stage?.any Stage.holdsEnds = true → id ∈ holders) :
    Rests { premises with service, holders } where
  free := h.free
  holds {other} hholds := by
    by_cases hother : other = id
    · subst hother
      rw [hturns.self] at hholds
      exact hends hholds
    · rw [hturns.other hother] at hholds
      exact hothers other hother (h.holds hholds)

theorem Rests.stay (h : premises.Rests) (hturns : premises.service.Turns id stage? service)
    (hends : stage?.any Stage.holdsEnds = true →
      (premises.service.stage? id).any Stage.holdsEnds = true) :
    Rests { premises with service } :=
  h.turn hturns (fun _ _ hholds => hholds) fun hstage => h.holds (hends hstage)

end Premises

namespace Service

open Premises

/-- The service has come this far by somebody's steps, and nobody is in the middle of anything. -/
def Settled (settings : Settings) (service : Service) : Prop :=
  ∃ premises, Attained settings premises ∧ premises.Rests ∧ premises.service = service

variable {settings : Settings} {service service' : Service} {id : ClientId} {connection : Connection}
  {exchange : Exchange} {choice : Choice} {happenings : List Happening}

namespace Settled

theorem accept {peer : Option SocketAddress} (h : Settled settings service)
    (hopen : service.exchange.isOpen = true)
    (hfresh : service.exchange.registrations[id]? = none)
    (haccept : service.accept id peer = .ok (some service')) : Settled settings service' := by
  obtain ⟨premises, ⟨trace, hreached⟩, hrests, rfl⟩ := h
  have hnobody : premises.service.stage? id = none :=
    ((hreached.accords hopen).2 id).of_unknown hfresh
  obtain ⟨hturns, -⟩ := of_accept hnobody haccept
  refine ⟨_, ⟨_, hreached.step (.accept hfresh hnobody haccept)⟩, hrests.turn hturns ?_ ?_, rfl⟩
  · exact fun other _ hholds => ExtTreeSet.mem_insert.2 (Or.inr hholds)
  · exact fun _ => ExtTreeSet.mem_insert_self

theorem announce (h : Settled settings service) (hconnection : service.connections[id]? = some connection)
    (hstage : connection.stage = .accepted) : Settled settings (service.announce id connection) := by
  obtain ⟨premises, hattained, hrests, rfl⟩ := h
  obtain ⟨stage?, hturns⟩ := turns_announce hconnection hstage
  refine ⟨_, hattained.step (.announce hconnection hstage), hrests.stay hturns fun _ => ?_, rfl⟩
  rw [stage?_of_connection hconnection, hstage]
  rfl

theorem startWork (h : Settled settings service) (hstage : service.stage? id = some .announced) :
    Settled settings (service.startWork id) := by
  obtain ⟨premises, hattained, hrests, rfl⟩ := h
  cases hregistration : premises.service.exchange.registrations[id]? with
  | none =>
    rw [Service.startWork, hregistration]
    exact ⟨premises, hattained, hrests, rfl⟩
  | some registration =>
    cases registration with
    | pending =>
      rw [Service.startWork, hregistration]
      exact ⟨premises, hattained, hrests, rfl⟩
    | accepted =>
      refine ⟨_, hattained.step (.begin hstage hregistration), ?_, rfl⟩
      rw [startWork_of_accepted hregistration]
      exact hrests.stay (turns_setStage hstage rfl) fun _ => by rw [hstage]; rfl
    | refused =>
      refine ⟨_, hattained.step (.giveUp hstage hregistration), ?_, rfl⟩
      rw [startWork_of_refused hregistration]
      exact hrests.stay (turns_dismiss hstage rfl) fun hends => by cases hends

theorem update {change : Connection → Connection} (h : Settled settings service)
    (hchange : ∀ connection, (change connection).stage = connection.stage) :
    Settled settings (service.update id change) := by
  obtain ⟨premises, hattained, hrests, rfl⟩ := h
  exact ⟨_, hattained.step (.note hchange), hrests.stay (turns_update hchange) fun hends => hends, rfl⟩

theorem seen (h : Settled settings service) (hchoice : choice.isOfService = false)
    (hchoose : ∀ holders ringers, Floor.choose { exchange := service.exchange, holders, ringers } choice =
      some (happenings, { exchange, holders, ringers })) :
    Settled settings { service with exchange } := by
  obtain ⟨⟨service, activity, holders, ringers⟩, hattained, hrests, rfl⟩ := h
  obtain rfl : activity = _ := hrests.free
  exact ⟨_, hattained.seen hchoice (hchoose holders ringers), ⟨rfl, hrests.holds⟩, rfl⟩

theorem endWork (h : Settled settings service) (hopen : service.exchange.isOpen = true)
    (hstage : service.stage? id = some .working) : Settled settings (service.endWork id) := by
  obtain ⟨premises, hattained, hrests, rfl⟩ := h
  have hholds : id ∈ premises.holders := hrests.holds (by rw [hstage]; rfl)
  have hgone := hattained.leaves hholds hopen
  refine ⟨_, hgone.step (.finish .clean hstage), ?_, rfl⟩
  refine hrests.turn (.of_exchange (turns_setStage hstage rfl)) (fun other hother hothers => ?_) nofun
  exact ExtTreeSet.mem_erase.2 ⟨mt Std.compare_eq_iff_eq.1 hother.symm, hothers⟩

theorem line {line : String} (h : Settled settings service)
    (hopen : service.exchange.isOpen = true) (hstage : service.stage? id = some .working)
    (hforward : service.exchange.forward id line = .accepted exchange) :
    Settled settings { service with exchange } := by
  obtain ⟨premises, hattained, hrests, rfl⟩ := h
  have hholds : id ∈ premises.holders := hrests.holds (by rw [hstage]; rfl)
  obtain ⟨intake, hwrite, rfl⟩ := Exchange.exists_write_of_forward hforward
  have hchoose : premises.floor.choose (.write id line) = some ([.forwarded id line], {
      premises.floor with
        exchange := { premises.service.exchange with intake }
        ringers := id :: premises.ringers }) := by
    simp [Floor.choose, floor, hholds, hopen, hwrite, Posting.accepted?]
  exact ⟨_, Attained.rings (hattained.seen rfl hchoose), ⟨hrests.free, hrests.holds⟩, rfl⟩

theorem releaseSlot (h : Settled settings service) (hstage : service.stage? id = some .ended) :
    Settled settings (service.releaseSlot id) := by
  obtain ⟨premises, hattained, hrests, rfl⟩ := h
  exact ⟨_, hattained.step (.release hstage), hrests.stay (turns_releaseSlot hstage) nofun, rfl⟩

theorem reportEnd (h : Settled settings service) (hopen : service.exchange.isOpen = true)
    (hstage : service.stage? id = some .unreported) : Settled settings (service.reportEnd id) := by
  obtain ⟨premises, hattained, hrests, rfl⟩ := h
  cases hpost : premises.service.exchange.post (.exited id) with
  | accepted exchange =>
    refine ⟨_, hattained.step (.report hstage hpost), ?_, rfl⟩
    rw [reportEnd_of_post hpost]
    exact hrests.stay (.of_exchange (turns_forget hstage)) nofun
  | full =>
    rw [Service.reportEnd, hpost]
    exact ⟨premises, hattained, hrests, rfl⟩
  | closed => cases (Exchange.isOpen_of_post_closed hpost).symm.trans hopen

theorem settle (h : Settled settings service) (hopen : service.exchange.isOpen = true) :
    Settled settings { service with exchange := service.exchange.settle } := by
  obtain ⟨premises, ⟨trace, hreached⟩, hrests, rfl⟩ := h
  have hsound := (hreached.accords hopen).1.sound
  exact ⟨_, Attained.plays ⟨trace, hreached⟩ (Floor.plays_settle hsound hrests.free),
    ⟨hrests.free, hrests.holds⟩, rfl⟩

theorem forward (h : Settled settings service) (hopen : service.exchange.isOpen = true)
    (hstage : service.stage? id = some .working) (connection : Connection) :
    Settled settings (service.forward id connection) := by
  unfold Service.forward
  split
  next line unheard hunheard =>
    split
    next exchange hforward => exact (h.line hopen hstage hforward).update fun _ => rfl
    next => exact h
    next => exact h.endWork hopen hstage
  next =>
    split
    next =>
      split
      next exchange hclose =>
        obtain rfl := Exchange.eq_abandon_of_close hclose
        exact h.endWork hopen hstage
      next => exact h
      next => exact h.endWork hopen hstage
    next => exact h

theorem write (h : Settled settings service) (hopen : service.exchange.isOpen = true)
    (hstage : service.stage? id = some .working) (connection : Connection) :
    Settled settings (service.write id connection).1 := by
  unfold Service.write
  split
  next => exact h
  next =>
    split
    next outbox line htake =>
      have hchoose (holders : ExtTreeSet ClientId) (ringers : List ClientId) :
          Floor.choose { exchange := service.exchange, holders, ringers } (.take id) =
            some ([.taken id line], {
              exchange := service.exchange.updateOutbox id fun _ => outbox, holders, ringers }) := by
        obtain ⟨before, hbefore, htaken⟩ := Option.map_eq_some_iff.1 htake
        simp [Floor.choose, hbefore, Outbox.taking?_eq_some.2 htaken]
      exact (h.seen rfl hchoose).update fun _ => rfl
    next => exact h.endWork hopen hstage
    next => exact h

end Settled

end Service

end ChatRooms
