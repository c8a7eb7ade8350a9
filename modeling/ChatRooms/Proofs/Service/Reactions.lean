import ChatRooms.Proofs.Service.Settled

namespace ChatRooms

open Std

theorem Exchange.settle_of_closed {exchange : Exchange} (hgone : exchange.isOpen = false) :
    exchange.settle = exchange := by
  have hadvance : exchange.advance = none := by
    unfold advance
    cases hphase : exchange.phase with
    | running | closing => simp only [isOpen, hphase, reduceCtorEq] at hgone
    | stopped | failed => rfl
  unfold settle
  cases exchange.pending with
  | zero => rfl
  | succ steps => rw [settleWithin, hadvance]

namespace Service

open Premises

variable {settings : Settings} {service service' : Service} {id : ClientId}
  {connection : Connection} {exchange : Exchange}

/-- What is done for one connection does not touch the others, and leaves the hub where it is. -/
structure Spares (id : ClientId) (service service' : Service) : Prop where
  connections {other : ClientId} : other ≠ id →
    service'.connections[other]? = service.connections[other]?
  isOpen : service'.exchange.isOpen = service.exchange.isOpen

namespace Spares

theorem refl (id : ClientId) (service : Service) : Spares id service service :=
  ⟨fun _ => rfl, rfl⟩

theorem trans {between : Service} (h : Spares id service between) (h' : Spares id between service') :
    Spares id service service' :=
  ⟨fun hother => (h'.connections hother).trans (h.connections hother), h'.isOpen.trans h.isOpen⟩

theorem modify {change : Connection → Connection}
    (hconnections : service'.connections = service.connections.modify id change)
    (hopen : service'.exchange.isOpen = service.exchange.isOpen) : Spares id service service' where
  connections {other} hother := by
    rw [hconnections, ExtTreeMap.getElem?_modify, if_neg (mt Std.compare_eq_iff_eq.1 hother.symm)]
  isOpen := hopen

theorem erase (hconnections : service'.connections = service.connections.erase id)
    (hopen : service'.exchange.isOpen = service.exchange.isOpen) : Spares id service service' where
  connections hother := by rw [hconnections, Maps.getElem?_erase_of_ne hother.symm]
  isOpen := hopen

theorem announce (service : Service) (id : ClientId) (connection : Connection) :
    Spares id service (service.announce id connection) := by
  unfold Service.announce
  split
  next exchange hpost =>
    refine modify rfl ?_
    rw [Exchange.eq_of_post hpost]
    rfl
  next => exact refl id service
  next => exact erase rfl rfl

theorem startWork (service : Service) (id : ClientId) : Spares id service (service.startWork id) := by
  unfold Service.startWork
  split
  next => exact modify rfl rfl
  next => exact erase rfl rfl
  next => exact refl id service

theorem endWork (service : Service) (id : ClientId) : Spares id service (service.endWork id) :=
  modify rfl rfl

theorem releaseSlot (service : Service) (id : ClientId) : Spares id service (service.releaseSlot id) :=
  modify rfl rfl

theorem reportEnd (service : Service) (id : ClientId) : Spares id service (service.reportEnd id) := by
  unfold Service.reportEnd
  split
  next exchange hpost =>
    refine erase rfl ?_
    rw [Exchange.eq_of_post hpost]
    rfl
  next => exact refl id service
  next => exact erase rfl rfl

theorem forward (service : Service) (id : ClientId) (connection : Connection) :
    Spares id service (service.forward id connection) := by
  unfold Service.forward
  split
  next =>
    split
    next exchange hforward =>
      obtain ⟨intake, -, rfl⟩ := Exchange.exists_write_of_forward hforward
      exact modify rfl rfl
    next => exact refl id service
    next => exact endWork service id
  next =>
    split
    next =>
      split
      next exchange hclose =>
        obtain rfl := Exchange.eq_abandon_of_close hclose
        exact endWork service id
      next => exact refl id service
      next => exact endWork service id
    next => exact refl id service

theorem write (service : Service) (id : ClientId) (connection : Connection) :
    Spares id service (service.write id connection).1 := by
  unfold Service.write
  split
  next => exact refl id service
  next =>
    split
    next => exact modify rfl rfl
    next => exact endWork service id
    next => exact refl id service

theorem attend (service : Service) (id : ClientId) (connection : Connection) :
    Spares id service (service.attend id connection).1 := by
  unfold Service.attend
  split
  next => exact announce service id connection
  next => exact startWork service id
  next =>
    have hwrite := write service id connection
    dsimp only
    split
    next => exact hwrite.trans (forward _ id connection)
    next => exact hwrite
  next => exact releaseSlot service id
  next => exact reportEnd service id

end Spares

theorem stage?_of_any
    (h : (service.connections[id]?.any fun connection => connection.stage = .working) = true) :
    service.stage? id = some .working := by
  cases hconnection : service.connections[id]? with
  | none =>
    rw [hconnection] at h
    cases h
  | some connection =>
    rw [hconnection, Option.any_some, decide_eq_true_eq] at h
    rw [stage?_of_connection hconnection, h]

theorem Settled.attend (h : Settled settings service) (hopen : service.exchange.isOpen = true)
    (hconnection : service.connections[id]? = some connection) :
    Settled settings (service.attend id connection).1 := by
  have hstage := stage?_of_connection hconnection
  unfold Service.attend
  split
  next haccepted => exact h.announce hconnection haccepted
  next hannounced => exact h.startWork (hannounced ▸ hstage)
  next hworking =>
    have hwritten := h.write hopen (hworking ▸ hstage) connection
    have hopen' := (Spares.write service id connection).isOpen.trans hopen
    dsimp only
    split
    next hany => exact hwritten.forward hopen' (stage?_of_any hany) connection
    next => exact hwritten
  next hended => exact h.releaseSlot (hended ▸ hstage)
  next hunreported => exact h.reportEnd hopen (hunreported ▸ hstage)

def attendNext (done : Service × List Output) (entry : ClientId × Connection) :
    Service × List Output :=
  let attended := done.1.attend entry.1 entry.2
  (attended.1, done.2 ++ attended.2)

theorem round_eq (service : Service) : service.round =
    service.connections.toList.foldl attendNext ({ service with exchange := service.exchange.settle }, []) :=
  rfl

theorem Settled.foldl_attendNext {entries : List (ClientId × Connection)} {outputs : List Output}
    (h : Settled settings service) (hopen : service.exchange.isOpen = true)
    (hdistinct : entries.Pairwise fun entry later => later.1 ≠ entry.1)
    (hentries : ∀ entry ∈ entries, service.connections[entry.1]? = some entry.2) :
    Settled settings (entries.foldl attendNext (service, outputs)).1 := by
  induction entries generalizing service outputs with
  | nil => exact h
  | cons entry entries ih =>
    obtain ⟨hfirst, hrest⟩ := List.pairwise_cons.1 hdistinct
    have hspares := Spares.attend service entry.1 entry.2
    have hnext := h.attend hopen (hentries entry List.mem_cons_self)
    refine ih hnext (hspares.isOpen.trans hopen) hrest fun later hlater => ?_
    exact (hspares.connections (hfirst later hlater)).trans
      (hentries later (List.mem_cons_of_mem _ hlater))

theorem isOpen_foldl_attendNext (entries : List (ClientId × Connection)) (done : Service × List Output) :
    (entries.foldl attendNext done).1.exchange.isOpen = done.1.exchange.isOpen := by
  induction entries generalizing done with
  | nil => rfl
  | cons entry entries ih => exact (ih _).trans (Spares.attend done.1 entry.1 entry.2).isOpen

theorem isOpen_of_round (hopen : service.round.1.exchange.isOpen = true) :
    service.exchange.isOpen = true ∧ service.exchange.settle.isOpen = true := by
  rw [round_eq, isOpen_foldl_attendNext] at hopen
  refine ⟨?_, hopen⟩
  by_contra hgone
  rw [Exchange.settle_of_closed (Bool.not_eq_true _ ▸ hgone)] at hopen
  exact hgone hopen

theorem Settled.round (h : Settled settings service) (hopen : service.round.1.exchange.isOpen = true) :
    Settled settings service.round.1 := by
  obtain ⟨hbefore, hafter⟩ := isOpen_of_round hopen
  rw [round_eq]
  refine (h.settle hbefore).foldl_attendNext hafter ?_ fun entry hentry => ?_
  · exact ExtTreeMap.distinct_keys_toList.imp fun hne heq => hne (Std.compare_eq_iff_eq.2 heq.symm)
  · exact ExtTreeMap.mem_toList_iff_getElem?_eq_some.1 hentry

theorem isOpen_of_runWithin {rounds : Nat}
    (hopen : (runWithin rounds service).1.exchange.isOpen = true) : service.exchange.isOpen = true := by
  induction rounds generalizing service with
  | zero => exact hopen
  | succ rounds ih => exact (isOpen_of_round (ih hopen)).1

theorem Settled.runWithin {rounds : Nat} (h : Settled settings service)
    (hopen : (service.runWithin rounds).1.exchange.isOpen = true) :
    Settled settings (service.runWithin rounds).1 := by
  induction rounds generalizing service with
  | zero => exact h
  | succ rounds ih => exact ih (h.round (isOpen_of_runWithin hopen)) hopen

theorem stage_receive (service : Service) (connection : Connection) (bytes : List UInt8) :
    (service.receive connection bytes).stage = connection.stage := by
  unfold receive
  split
  next => rfl
  next =>
    dsimp only
    split <;> rfl

theorem stage_finishInput (connection : Connection) : (finishInput connection).stage = connection.stage := by
  unfold finishInput
  split
  next => rfl
  next => split <;> rfl

theorem note_accepted {peer : Option SocketAddress} {outputs : List Output}
    (h : service.note (.accepted id peer) = .ok (service', outputs)) :
    service.accept id peer = .ok (some service') ∨ service' = service := by
  unfold note at h
  dsimp only at h
  cases haccept : service.accept id peer with
  | error fault =>
    rw [haccept] at h
    cases h
  | ok result =>
    rw [haccept] at h
    cases result with
    | none => exact Or.inr (Prod.mk.inj (Except.ok.inj h)).1.symm
    | some after => exact Or.inl (by rw [(Prod.mk.inj (Except.ok.inj h)).1])

theorem isOpen_note {occurrence : Occurrence} {outputs : List Output}
    (h : service.note occurrence = .ok (service', outputs)) :
    service'.exchange.isOpen = service.exchange.isOpen := by
  cases occurrence with
  | accepted id peer =>
    rcases note_accepted h with haccept | rfl
    · obtain ⟨-, outbox, -, rfl⟩ := exists_of_accept haccept
      rfl
    · rfl
  | received | inputEnded | written | timePassed =>
    obtain ⟨rfl, -⟩ := Prod.mk.inj (Except.ok.inj h)
    rfl
  | broken id =>
    obtain ⟨rfl, -⟩ := Prod.mk.inj (Except.ok.inj h)
    unfold breakOff
    split <;> rfl
  | stopRequested =>
    unfold note at h
    dsimp only at h
    split at h
    next exchange hpost =>
      obtain ⟨rfl, -⟩ := Prod.mk.inj (Except.ok.inj h)
      obtain rfl := Exchange.eq_of_post hpost
      rfl
    next =>
      obtain ⟨rfl, -⟩ := Prod.mk.inj (Except.ok.inj h)
      rfl

theorem Settled.note {occurrence : Occurrence} {outputs : List Output} (h : Settled settings service)
    (hopen : service.exchange.isOpen = true)
    (hfresh : ∀ id peer, occurrence = .accepted id peer → service.exchange.registrations[id]? = none)
    (hnote : service.note occurrence = .ok (service', outputs)) : Settled settings service' := by
  cases occurrence with
  | accepted id peer =>
    rcases note_accepted hnote with haccept | rfl
    · exact h.accept hopen (hfresh id peer rfl) haccept
    · exact h
  | received id bytes =>
    obtain ⟨rfl, -⟩ := Prod.mk.inj (Except.ok.inj hnote)
    exact h.update fun connection => stage_receive service connection bytes
  | inputEnded id =>
    obtain ⟨rfl, -⟩ := Prod.mk.inj (Except.ok.inj hnote)
    exact h.update stage_finishInput
  | written id =>
    obtain ⟨rfl, -⟩ := Prod.mk.inj (Except.ok.inj hnote)
    exact h.update fun _ => rfl
  | broken id =>
    obtain ⟨rfl, -⟩ := Prod.mk.inj (Except.ok.inj hnote)
    unfold breakOff
    split
    next hany => exact h.endWork hopen (stage?_of_any hany)
    next => exact h
  | stopRequested =>
    unfold Service.note at hnote
    dsimp only at hnote
    split at hnote
    next exchange hpost =>
      obtain ⟨rfl, -⟩ := Prod.mk.inj (Except.ok.inj hnote)
      have hchoose (holders : ExtTreeSet ClientId) (ringers : List ClientId) :
          Floor.choose { exchange := service.exchange, holders, ringers } (.post .shutdown) =
            some ([], { exchange, holders, ringers }) := by
        have hpermits : Floor.Permits { exchange := service.exchange, holders, ringers } .shutdown := trivial
        simp [Floor.choose, hpermits, hpost, Posting.accepted?]
      exact h.seen rfl hchoose
    next =>
      obtain ⟨rfl, -⟩ := Prod.mk.inj (Except.ok.inj hnote)
      exact h
  | timePassed time =>
    obtain ⟨rfl, -⟩ := Prod.mk.inj (Except.ok.inj hnote)
    have hchoose (holders : ExtTreeSet ClientId) (ringers : List ClientId) :
        Floor.choose { exchange := service.exchange, holders, ringers } (.pass time) = some ([], {
          exchange := { service.exchange with clock := service.exchange.clock + time }
          holders, ringers }) := rfl
    exact h.seen rfl hchoose

theorem exists_of_react {occurrence : Occurrence} {outputs : List Output}
    (h : service.react occurrence = .ok (service', outputs)) :
    ∃ noted first, service.note occurrence = .ok (noted, first) ∧ service' = noted.run.1 := by
  unfold react at h
  cases hnote : service.note occurrence with
  | error fault =>
    rw [hnote] at h
    cases h
  | ok result =>
    rw [hnote] at h
    exact ⟨result.1, result.2, rfl, (Prod.mk.inj (Except.ok.inj h)).1.symm⟩

/-- A service that has reacted to one occurrence after another. No client is accepted twice. -/
inductive Reacted (settings : Settings) : Service → Prop where
  | start {service : Service} (hnew : new settings = .ok service) : Reacted settings service
  | react {service service' : Service} {occurrence : Occurrence} {outputs : List Output}
      (before : Reacted settings service)
      (hfresh : ∀ id peer, occurrence = .accepted id peer →
        service.exchange.registrations[id]? = none)
      (hreact : service.react occurrence = .ok (service', outputs)) : Reacted settings service'

/-- As long as there is a hub, everything that comes of reacting can come of somebody's steps. -/
theorem Reacted.settled (h : Reacted settings service) (hopen : service.exchange.isOpen = true) :
    Settled settings service := by
  induction h with
  | start hnew =>
    refine ⟨_, ⟨[], .start hnew⟩, ⟨rfl, fun {id} hholds => ?_⟩, rfl⟩
    obtain ⟨exchange, -, rfl⟩ := exists_of_new hnew
    cases hholds
  | react _ hfresh hreact ih =>
    obtain ⟨noted, first, hnote, rfl⟩ := exists_of_react hreact
    have hnoted := isOpen_of_runWithin hopen
    have hbefore := (isOpen_note hnote).symm.trans hnoted
    exact ((ih hbefore).note hbefore hfresh hnote).runWithin hopen

/-- Between two occurrences every slot is free or taken, and whoever is in the directory has a connection
that is past its beginning, or is yet to be taken out on account of a report that waits. -/
theorem Reacted.keeps_slots (h : Reacted settings service) (hopen : service.exchange.isOpen = true) :
    service.freeSlots + service.slotsHeld = settings.maxClients ∧
      ∀ id, id ∈ service.exchange.hub.directory.occupants →
        (∃ stage, service.stage? id = some stage ∧ stage ≠ .accepted) ∨
          .exited id ∈ service.exchange.orders := by
  obtain ⟨premises, ⟨trace, hreached⟩, hrests, rfl⟩ := h.settled hopen
  refine ⟨hreached.slots, fun id hid => ?_⟩
  have haccords := (hreached.accords hopen).2 id
  rcases haccords.of_present (ExtTreeMap.contains_iff_mem.2 hid) with
    (hstage | hstage) | hstage | hstage | hexits
  · exact Or.inl ⟨_, hstage, nofun⟩
  · exact Or.inl ⟨_, hstage, nofun⟩
  · exact Or.inl ⟨_, hstage, nofun⟩
  · exact Or.inl ⟨_, hstage, nofun⟩
  · refine Or.inr (List.count_pos_iff.1 ?_)
    have hcount : (premises.standing id).exits =
        premises.service.exchange.orders.count (.exited id) + premises.activity.exitsOf id := rfl
    rw [hcount, hrests.free] at hexits
    exact hexits

set_option maxRecDepth 20000 in
/-- A client that comes in is at work when the service waits again. -/
example : ∃ service, Reacted {} service ∧ service.exchange.isOpen = true ∧
    service.stage? 1 = some .working ∧ 1 ∈ service.exchange.hub.directory.occupants :=
  ⟨_, @Reacted.react _ _ _ (.accepted 1 none) _ (.start rfl) (fun _ _ _ => rfl) rfl, rfl, rfl,
    ExtTreeMap.contains_iff_mem.1 rfl⟩

end Service

end ChatRooms
