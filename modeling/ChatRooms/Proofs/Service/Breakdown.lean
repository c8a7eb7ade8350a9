import ChatRooms.Proofs.Service.Reactions
import ChatRooms.Proofs.Settings.Assignments

namespace ChatRooms

open Std

variable {settings : Settings}

theorem not_of_eq_ok {ε α : Type} {result : Except ε α} {fault : ε} {value : α} {cause : Prop}
    (hfails : result = .error fault ↔ cause) (hok : result = .ok value) : ¬cause := by
  intro hcause
  cases hok.symm.trans (hfails.2 hcause)

theorem checkPermits_eq_error_iff {permits : Nat} {fault : CapacityFault} :
    checkPermits permits = .error fault ↔ fault = .tooLarge ∧ maxPermits < permits := by
  unfold checkPermits
  split
  next hlarge => simp [hlarge, eq_comm]
  next hfits => simp [hfits]

theorem checkQueueCapacity_eq_error_iff {capacity : Nat} {fault : CapacityFault} (h : capacity ≠ 0) :
    checkQueueCapacity capacity = .error fault ↔ fault = .tooLarge ∧ maxPermits < capacity := by
  rw [checkQueueCapacity, if_neg h, checkPermits_eq_error_iff]

theorem Outbox.new_eq_error_iff {capacity : Nat} {fault : CapacityFault} (h : capacity ≠ 0) :
    Outbox.new capacity = .error fault ↔ fault = .tooLarge ∧ maxPermits < capacity := by
  rw [← checkQueueCapacity_eq_error_iff h]
  unfold Outbox.new
  cases checkQueueCapacity capacity <;> simp [bind, Except.bind, pure, Except.pure]

theorem Exchange.new_eq_error_iff {fault : SetupFault} (h : settings.IsChecked) :
    Exchange.new settings = .error fault ↔
      fault = .capacity .tooLarge ∧ maxPermits < settings.channelCapacity := by
  obtain ⟨room, hroom⟩ := h.defaultRoom
  have hcapacity {fault : CapacityFault} := @checkQueueCapacity_eq_error_iff _ fault h.channelCapacity
  have hnew := Exchange.new_eq settings settings.readiness
  rw [hroom] at hnew
  change Exchange.new settings = _ at hnew
  rw [hnew]
  cases hcheck : checkQueueCapacity settings.channelCapacity with
  | error cause =>
    obtain ⟨rfl, hlarge⟩ := hcapacity.1 hcheck
    simp [hlarge, eq_comm]
  | ok _ =>
    have hfits : ¬ maxPermits < settings.channelCapacity :=
      fun hlarge => not_of_eq_ok hcapacity hcheck ⟨rfl, hlarge⟩
    simp [hfits]

namespace Service

open Premises

variable {service : Service} {id : ClientId}

/-- Nothing has been accepted yet when the hub's queues and the slots are made. -/
theorem new_eq_error_iff {fault : Exchange.SetupFault} (h : settings.IsChecked) :
    new settings = .error fault ↔ fault = .capacity .tooLarge ∧
      (maxPermits < settings.channelCapacity ∨ maxPermits < settings.maxClients) := by
  unfold new
  cases hexchange : Exchange.new settings with
  | error cause =>
    obtain ⟨rfl, hlarge⟩ := (Exchange.new_eq_error_iff h).1 hexchange
    simp [hlarge, bind, Except.bind, eq_comm]
  | ok exchange =>
    have hfits : ¬ maxPermits < settings.channelCapacity :=
      fun hlarge => not_of_eq_ok (Exchange.new_eq_error_iff h) hexchange ⟨rfl, hlarge⟩
    by_cases hlarge : maxPermits < settings.maxClients
    · simp [checkPermits, hlarge, Except.mapError, bind, Except.bind, eq_comm]
    · simp [checkPermits, hlarge, hfits, Except.mapError, bind, Except.bind, pure, Except.pure]

variable {connection : Connection}

theorem clientQueue_announce : (service.announce id connection).clientQueue = service.clientQueue := by
  unfold announce
  split <;> rfl

theorem clientQueue_startWork : (service.startWork id).clientQueue = service.clientQueue := by
  unfold startWork
  split <;> rfl

theorem clientQueue_reportEnd : (service.reportEnd id).clientQueue = service.clientQueue := by
  unfold reportEnd
  split <;> rfl

theorem clientQueue_write : (service.write id connection).1.clientQueue = service.clientQueue := by
  unfold write
  split
  next => rfl
  next => split <;> rfl

theorem clientQueue_forward : (service.forward id connection).clientQueue = service.clientQueue := by
  unfold forward
  split
  next => split <;> rfl
  next =>
    split
    next => split <;> rfl
    next => rfl

theorem clientQueue_attend (service : Service) (id : ClientId) (connection : Connection) :
    (service.attend id connection).1.clientQueue = service.clientQueue := by
  unfold attend
  split
  next => exact clientQueue_announce
  next => exact clientQueue_startWork
  next =>
    dsimp only
    split
    next => exact clientQueue_forward.trans clientQueue_write
    next => exact clientQueue_write
  next => rfl
  next => exact clientQueue_reportEnd

theorem clientQueue_foldl_attendNext (entries : List (ClientId × Connection))
    (done : Service × List Output) :
    (entries.foldl attendNext done).1.clientQueue = done.1.clientQueue := by
  induction entries generalizing done with
  | nil => rfl
  | cons entry entries ih =>
    rw [List.foldl_cons, ih]
    exact clientQueue_attend done.1 entry.1 entry.2

theorem clientQueue_runWithin (rounds : Nat) (service : Service) :
    (runWithin rounds service).1.clientQueue = service.clientQueue := by
  induction rounds generalizing service with
  | zero => rfl
  | succ rounds ih =>
    have hround : service.round.1.clientQueue = service.clientQueue := by
      rw [round_eq]
      exact clientQueue_foldl_attendNext _ _
    exact (ih _).trans hround

theorem clientQueue_note {occurrence : Occurrence} {outputs : List Output} {service' : Service}
    (h : service.note occurrence = .ok (service', outputs)) :
    service'.clientQueue = service.clientQueue := by
  cases occurrence with
  | accepted id peer =>
    rcases note_accepted h with haccept | rfl
    · obtain ⟨-, outbox, -, rfl⟩ := exists_of_accept haccept
      rfl
    · rfl
  | received | inputEnded | written | timePassed =>
    obtain ⟨rfl, -⟩ := Prod.mk.inj (Except.ok.inj h)
    rfl
  | broken id =>
    obtain ⟨rfl, -⟩ := Prod.mk.inj (Except.ok.inj h)
    unfold breakOff
    split <;> rfl
  | stopRequested =>
    unfold note at h
    dsimp only at h
    split at h <;> obtain ⟨rfl, -⟩ := Prod.mk.inj (Except.ok.inj h) <;> rfl

theorem Reacted.clientQueue_eq (h : Reacted settings service) :
    service.clientQueue = settings.clientQueue := by
  induction h with
  | start hnew =>
    obtain ⟨exchange, -, rfl⟩ := exists_of_new hnew
    rfl
  | react _ _ hreact ih =>
    obtain ⟨noted, first, hnote, rfl⟩ := exists_of_react hreact
    exact (clientQueue_runWithin _ noted).trans ((clientQueue_note hnote).trans ih)

theorem accept_eq_error_iff {peer : Option SocketAddress} {fault : CapacityFault}
    (h : service.clientQueue ≠ 0) : service.accept id peer = .error fault ↔
      fault = .tooLarge ∧ maxPermits < service.clientQueue ∧ service.freeSlots ≠ 0 := by
  unfold accept
  split
  next hfull => simp [hfull]
  next hfree =>
    cases houtbox : Outbox.new service.clientQueue with
    | error cause =>
      obtain ⟨rfl, hlarge⟩ := (Outbox.new_eq_error_iff h).1 houtbox
      simp [hlarge, hfree, bind, Except.bind, eq_comm]
    | ok outbox =>
      have hfits : ¬ maxPermits < service.clientQueue :=
        fun hlarge => not_of_eq_ok (Outbox.new_eq_error_iff h) houtbox ⟨rfl, hlarge⟩
      simp [hfits, bind, Except.bind, pure, Except.pure]

theorem note_eq_error_iff {occurrence : Occurrence} {fault : CapacityFault} :
    service.note occurrence = .error fault ↔
      ∃ id peer, occurrence = .accepted id peer ∧ service.accept id peer = .error fault := by
  cases occurrence with
  | accepted id peer =>
    unfold note
    dsimp only
    cases haccept : service.accept id peer with
    | error cause => simp [haccept, bind, Except.bind]
    | ok result => cases result <;> simp [haccept, bind, Except.bind, pure, Except.pure]
  | received | inputEnded | written | timePassed | broken => simp [note]
  | stopRequested =>
    unfold note
    dsimp only
    split <;> simp

theorem react_eq_error_iff {occurrence : Occurrence} {fault : CapacityFault} :
    service.react occurrence = .error fault ↔ service.note occurrence = .error fault := by
  unfold react
  cases service.note occurrence <;> simp [bind, Except.bind, pure, Except.pure]

/-- Checked settings break a server down exactly when something in them is too large to be counted: at
its start if it is the size of the hub's queues or the number of slots, and at the first client that finds
a slot free if it is the size of outboxes. -/
theorem breaks_down_iff (h : settings.check = .ok ()) :
    (∀ fault, new settings = .error fault ↔ fault = .capacity .tooLarge ∧
      (maxPermits < settings.channelCapacity ∨ maxPermits < settings.maxClients)) ∧
    ∀ service, Reacted settings service → ∀ occurrence fault,
      service.react occurrence = .error fault ↔ fault = .tooLarge ∧ maxPermits < settings.clientQueue ∧
        service.freeSlots ≠ 0 ∧ ∃ id peer, occurrence = .accepted id peer := by
  have hchecked := Settings.isChecked_of_check h
  refine ⟨fun fault => new_eq_error_iff hchecked, fun service hreacted occurrence fault => ?_⟩
  have hqueue := hreacted.clientQueue_eq
  have haccept {id : ClientId} {peer : Option SocketAddress} :=
    @accept_eq_error_iff service id peer fault (hqueue ▸ hchecked.clientQueue)
  rw [react_eq_error_iff, note_eq_error_iff, ← hqueue]
  constructor
  · rintro ⟨id, peer, rfl, hfault⟩
    obtain ⟨hkind, hlarge, hfree⟩ := haccept.1 hfault
    exact ⟨hkind, hlarge, hfree, id, peer, rfl⟩
  · rintro ⟨hkind, hlarge, hfree, id, peer, rfl⟩
    exact ⟨id, peer, rfl, haccept.2 ⟨hkind, hlarge, hfree⟩⟩

/-- What cannot be counted passes the check, wherever it stands. -/
theorem breaks_down_past_check :
    (Settings.check { channelCapacity := maxPermits + 1, readiness := .addressed } = .ok () ∧
      new { channelCapacity := maxPermits + 1, readiness := .addressed } =
        .error (.capacity .tooLarge)) ∧
    (Settings.check { channelCapacity := maxPermits + 1, readiness := .sweep } = .ok () ∧
      new { channelCapacity := maxPermits + 1, readiness := .sweep } = .error (.capacity .tooLarge)) ∧
    (Settings.check { maxClients := maxPermits + 1 } = .ok () ∧
      new { maxClients := maxPermits + 1 } = .error (.capacity .tooLarge)) ∧
    (Settings.check { clientQueue := maxPermits + 1 } = .ok () ∧
      ∃ service, new { clientQueue := maxPermits + 1 } = .ok service ∧
        service.react (.accepted 1 none) = .error .tooLarge) :=
  ⟨⟨rfl, rfl⟩, ⟨rfl, rfl⟩, ⟨rfl, rfl⟩, rfl, _, rfl, rfl⟩

/-- The largest sizes that can be counted break nothing down, and one more in an outbox does, once a
client comes. -/
theorem breaks_down_only_past_limit :
    (∀ fault, new { channelCapacity := maxPermits, maxClients := maxPermits } ≠ .error fault) ∧
    ∃ service, new { clientQueue := maxPermits + 1 } = .ok service ∧
      service.react .stopRequested ≠ .error .tooLarge ∧
      service.react (.accepted 1 none) = .error .tooLarge := by
  have hlimit := (@breaks_down_iff { channelCapacity := maxPermits, maxClients := maxPermits } rfl).1
  have hqueue := (@breaks_down_iff { clientQueue := maxPermits + 1 } rfl).2
  refine ⟨fun fault hfault => ?_, _, rfl, fun hfault => ?_, ?_⟩
  · obtain ⟨-, hlarge | hlarge⟩ := (hlimit fault).1 hfault <;> exact absurd hlarge (by decide)
  · obtain ⟨-, -, -, id, peer, hoccurrence⟩ := (hqueue _ (.start rfl) _ _).1 hfault
    cases hoccurrence
  · exact (hqueue _ (.start rfl) _ _).2 ⟨rfl, by decide, by decide, 1, none, rfl⟩

end Service

end ChatRooms
