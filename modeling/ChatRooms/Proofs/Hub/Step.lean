import ChatRooms.Hub

namespace ChatRooms.Hub

/-- A request, and the hub and effects that come of it if it is not refused. -/
inductive Performs (hub : Hub) (client : Occupant) : Request → Hub → List Effect → Prop where
  | chat (text : String) : Performs hub client (.chat text) hub (hub.chat client text)
  | whisper {target body : String} {hearer : Occupant}
      (hfound : hub.directory.findByNickname? target = some hearer)
      (hactive : hearer.isActive = true) :
      Performs hub client (.whisper target body) hub
        [.deliver hearer.id (.whisperFrom client.nickname body),
          .deliver client.id (.whisperTo target body)]
  | add {room : RoomName} {directory : Directory}
      (hadd : hub.directory.addRoom room = .ok directory) :
      Performs hub client (.command (.add room)) { hub with directory }
        [.deliver client.id (.roomCreated room)]
  | remove {room : RoomName} {directory : Directory}
      (hremove : hub.directory.removeRoom room = .ok directory) :
      Performs hub client (.command (.remove room)) { hub with directory }
        [.deliver client.id (.roomRemoved room)]
  | stay {command : Command} {target : RoomName} {create : Bool} {directory : Directory}
      (hcommand : command = .join target ∧ create = hub.autoCreateRooms ∨
        command = .leave ∧ target = hub.directory.defaultRoom ∧ create = false)
      (hmove : hub.directory.move client.id target create = .ok (directory, .unchanged)) :
      Performs hub client (.command command) { hub with directory }
        [.deliver client.id (.alreadyIn target)]
  | move {command : Command} {target : RoomName} {create : Bool} {directory : Directory}
      {origin : RoomName} {created vacated : Bool}
      (hcommand : command = .join target ∧ create = hub.autoCreateRooms ∨
        command = .leave ∧ target = hub.directory.defaultRoom ∧ create = false)
      (hmove : hub.directory.move client.id target create =
        .ok (directory, .moved origin target created vacated)) :
      Performs hub client (.command command) { hub with directory }
        ((if vacated then []
          else broadcast directory origin (.left client.nickname origin) (some client.id)) ++
        broadcast directory target (.joined client.nickname target) (some client.id) ++
        [.deliver client.id (.moved target)])
  | list : Performs hub client (.command .list) hub
      [.deliver client.id (.roomList hub.directory.roomSummaries)]
  | users : Performs hub client (.command .users) hub
      [.deliver client.id (.userList client.room (hub.directory.nicknamesIn client.room))]
  | keepNickname : Performs hub client (.command (.nickname client.nickname)) hub
      [.deliver client.id (.nicknameSet client.nickname)]
  | nickname {nickname old : String} {directory : Directory} (hother : client.nickname ≠ nickname)
      (hrename : hub.directory.rename client.id nickname = .ok (directory, old)) :
      Performs hub client (.command (.nickname nickname)) { hub with directory }
        (.deliver client.id (.nicknameSet nickname) ::
          broadcast directory client.room (.renamed old nickname) (some client.id))
  | quit {directory : Directory} (hquit : hub.directory.hangUp client.id = .ok directory) :
      Performs hub client (.command .quit) { hub with directory }
        [.deliver client.id .goodbye, .hangUp client.id]
  | help : Performs hub client (.command .help) hub [.deliver client.id .help]

/-- An event, and the hub and effects that come of it. -/
inductive Steps (hub : Hub) : Event → Hub → List Effect → Prop where
  | ignore {id : ClientId} {line : String}
      (hsilent : ∀ client, hub.directory.occupants[id]? = some client → client.isActive = false) :
      Steps hub (.line id line) hub []
  | refuse {id : ClientId} {line : String} {client : Occupant} {refusal : Refusal}
      (hid : hub.directory.occupants[id]? = some client) (hactive : client.isActive = true)
      (hrefused : orRefuse (Request.decode line) >>= hub.perform client =
        .error (.refused refusal)) :
      Steps hub (.line id line) hub [.deliver client.id (.refused refusal)]
  | perform {id : ClientId} {line : String} {client : Occupant} {request : Request} {hub' : Hub}
      {effects : List Effect} (hid : hub.directory.occupants[id]? = some client)
      (hactive : client.isActive = true) (hdecode : Request.decode line = .ok request)
      (hperform : Performs hub client request hub' effects) :
      Steps hub (.line id line) hub' effects
  | welcome {id : ClientId} {peer : Option SocketAddress} {guest : Nat} {directory : Directory}
      (hguest : hub.nextGuestNumber = some guest)
      (hregister : hub.directory.register id (guestNickname guest) peer = .ok directory) :
      Steps hub (.register id peer) { hub with directory, lastGuest := guest }
        (.attach id :: .deliver id (.welcome (guestNickname guest) directory.defaultRoom) ::
          broadcast directory directory.defaultRoom (.connected (guestNickname guest)) (some id))
  | turnAway {id : ClientId} {peer : Option SocketAddress} {guest : Nat} {refusal : Refusal}
      (hguest : hub.nextGuestNumber = some guest)
      (hregister : hub.directory.register id (guestNickname guest) peer = .error refusal) :
      Steps hub (.register id peer) { hub with lastGuest := guest }
        [.attach id, .detach id, .hangUp id]
  | reclaim {event : Event} {id : ClientId} {directory : Directory} {departure : Departure}
      (hevent : event = .exited id ∨ event = .closed id)
      (hremove : hub.directory.remove id = .ok (directory, some departure)) :
      Steps hub event { hub with directory }
        (.detach id :: .hangUp id ::
          if departure.vacated then []
          else broadcast directory departure.occupant.room
            (.disconnected departure.occupant.nickname) none)
  | reclaimAgain {event : Event} {id : ClientId} {directory : Directory}
      (hevent : event = .exited id ∨ event = .closed id)
      (hremove : hub.directory.remove id = .ok (directory, none)) :
      Steps hub event { hub with directory } [.detach id]
  | shutdown : Steps hub .shutdown hub.closeAll.1 hub.closeAll.2

variable {hub hub' : Hub} {client : Occupant} {effects : List Effect}

theorem orRefuse_eq_ok {α : Type} {x : Except Refusal α} {a : α} :
    orRefuse x = .ok a ↔ x = .ok a := by
  cases x <;> simp [orRefuse]

theorem confirm_eq_ok {notice : Notice} {x : Except Refusal Directory}
    (h : hub.confirm client notice x = .ok (hub', effects)) :
    ∃ directory, x = .ok directory ∧ hub' = { hub with directory } ∧
      effects = [.deliver client.id notice] := by
  cases x with
  | error refusal => cases h
  | ok directory =>
    obtain ⟨rfl, rfl⟩ := Prod.mk.inj (Except.ok.inj h)
    exact ⟨directory, rfl, rfl, rfl⟩

theorem target_of_move {directory directory' : Directory} {id : ClientId}
    {target origin destination : RoomName} {create created vacated : Bool}
    (h : directory.move id target create =
      .ok (directory', .moved origin destination created vacated)) : destination = target := by
  unfold Directory.move at h
  split at h
  next => cases h
  next =>
    dsimp only at h
    split at h
    next => cases h
    next =>
      split at h
      next => cases h
      next =>
        split at h
        next => cases h
        next => exact (Move.moved.inj (Prod.mk.inj (Except.ok.inj h)).2).2.1.symm

theorem performs_of_move {command : Command} {target : RoomName} {create : Bool}
    (hcommand : command = .join target ∧ create = hub.autoCreateRooms ∨
      command = .leave ∧ target = hub.directory.defaultRoom ∧ create = false)
    (h : hub.move client target create = .ok (hub', effects)) :
    Performs hub client (.command command) hub' effects := by
  unfold Hub.move at h
  split at h
  next => cases h
  next hmove =>
    obtain ⟨rfl, rfl⟩ := Prod.mk.inj (Except.ok.inj h)
    exact .stay hcommand hmove
  next hmove =>
    obtain ⟨rfl, rfl⟩ := Prod.mk.inj (Except.ok.inj h)
    obtain rfl := target_of_move hmove
    exact .move hcommand hmove

theorem performs_of_rename {nickname : String}
    (h : hub.rename client nickname = .ok (hub', effects)) :
    Performs hub client (.command (.nickname nickname)) hub' effects := by
  unfold Hub.rename at h
  split at h
  next hsame =>
    subst hsame
    obtain ⟨rfl, rfl⟩ := Prod.mk.inj (Except.ok.inj h)
    exact .keepNickname
  next hother =>
    split at h
    next => cases h
    next hrename =>
      obtain ⟨rfl, rfl⟩ := Prod.mk.inj (Except.ok.inj h)
      exact .nickname hother hrename

theorem performs_of_quit (h : hub.quit client = .ok (hub', effects)) :
    Performs hub client (.command .quit) hub' effects := by
  unfold Hub.quit at h
  split at h
  next => cases h
  next hquit =>
    obtain ⟨rfl, rfl⟩ := Prod.mk.inj (Except.ok.inj h)
    exact .quit hquit

theorem performs_of_command {command : Command}
    (h : hub.command client command = .ok (hub', effects)) :
    Performs hub client (.command command) hub' effects := by
  cases command with
  | add room =>
    obtain ⟨directory, hadd, rfl, rfl⟩ := confirm_eq_ok h
    exact .add hadd
  | remove room =>
    obtain ⟨directory, hremove, rfl, rfl⟩ := confirm_eq_ok h
    exact .remove hremove
  | join room => exact performs_of_move (Or.inl ⟨rfl, rfl⟩) h
  | leave =>
    simp only [Hub.command] at h
    split at h
    next => cases h
    next => exact performs_of_move (Or.inr ⟨rfl, rfl, rfl⟩) h
  | list =>
    obtain ⟨rfl, rfl⟩ := Prod.mk.inj (Except.ok.inj h)
    exact .list
  | users =>
    obtain ⟨rfl, rfl⟩ := Prod.mk.inj (Except.ok.inj h)
    exact .users
  | nickname name => exact performs_of_rename (orRefuse_eq_ok.1 h)
  | quit => exact performs_of_quit (orRefuse_eq_ok.1 h)
  | help =>
    obtain ⟨rfl, rfl⟩ := Prod.mk.inj (Except.ok.inj h)
    exact .help

theorem performs_of_perform {request : Request}
    (h : hub.perform client request = .ok (hub', effects)) :
    Performs hub client request hub' effects := by
  cases request with
  | chat text =>
    obtain ⟨rfl, rfl⟩ := Prod.mk.inj (Except.ok.inj h)
    exact .chat text
  | command command => exact performs_of_command h
  | whisper target body =>
    cases hfound : (hub.directory.findByNickname? target).filter Occupant.isActive with
    | none => simp [perform, Hub.whisper, hfound, orRefuse, bind, Except.bind] at h
    | some hearer =>
      simp only [perform, Hub.whisper, hfound, orRefuse, bind, Except.bind, Except.ok.injEq,
        Prod.mk.injEq] at h
      obtain ⟨rfl, rfl⟩ := h
      rw [Option.filter_eq_some_iff] at hfound
      exact .whisper hfound.1 hfound.2

theorem steps_of_hear {id : ClientId} {line : String}
    (h : hub.hear id line = .ok (hub', effects)) : Steps hub (.line id line) hub' effects := by
  unfold hear at h
  split at h
  next client hid =>
    split at h
    next hactive =>
      unfold request at h
      split at h
      next outcome hok =>
        obtain rfl := Except.ok.inj h
        -- Only what has been decoded can have been performed.
        cases hdecode : Request.decode line with
        | error refusal =>
          rw [hdecode] at hok
          cases hok
        | ok request =>
          rw [hdecode] at hok
          exact .perform hid hactive hdecode (performs_of_perform hok)
      next => cases h
      next refusal hrefused =>
        obtain ⟨rfl, rfl⟩ := Prod.mk.inj (Except.ok.inj h)
        exact .refuse hid hactive hrefused
    next hsilent =>
      obtain ⟨rfl, rfl⟩ := Prod.mk.inj (Except.ok.inj h)
      refine .ignore fun found hfound => ?_
      rw [hid] at hfound
      exact Option.some.inj hfound ▸ Bool.eq_false_iff.2 hsilent
  next hid =>
    obtain ⟨rfl, rfl⟩ := Prod.mk.inj (Except.ok.inj h)
    refine .ignore fun found hfound => ?_
    rw [hid] at hfound
    cases hfound

theorem steps_of_welcome {id : ClientId} {peer : Option SocketAddress}
    (h : hub.welcome id peer = .ok (hub', effects)) :
    Steps hub (.register id peer) hub' effects := by
  unfold welcome at h
  split at h
  next => cases h
  next guest hguest =>
    dsimp only at h
    split at h
    next refusal hregister =>
      obtain ⟨rfl, rfl⟩ := Prod.mk.inj (Except.ok.inj h)
      exact .turnAway hguest hregister
    next directory hregister =>
      obtain ⟨rfl, rfl⟩ := Prod.mk.inj (Except.ok.inj h)
      exact .welcome hguest hregister

theorem steps_of_reclaim {event : Event} {id : ClientId}
    (hevent : event = .exited id ∨ event = .closed id)
    (h : hub.reclaim id = .ok (hub', effects)) : Steps hub event hub' effects := by
  unfold reclaim at h
  split at h
  next => cases h
  next directory hremove =>
    obtain ⟨rfl, rfl⟩ := Prod.mk.inj (Except.ok.inj h)
    exact .reclaimAgain hevent hremove
  next directory departure hremove =>
    obtain ⟨rfl, rfl⟩ := Prod.mk.inj (Except.ok.inj h)
    exact .reclaim hevent hremove

theorem of_audited {outcome : Outcome} (h : audited outcome = .ok (hub', effects)) :
    outcome = .ok (hub', effects) := by
  unfold audited at h
  split at h
  next => cases h
  next hub effects =>
    split at h
    next => cases h
    next => exact h

theorem steps_of_handle {event : Event} (h : hub.handle event = .ok (hub', effects)) :
    Steps hub event hub' effects := by
  cases event with
  | register id peer => exact steps_of_welcome h
  | exited id => exact steps_of_reclaim (Or.inl rfl) h
  | line id text => exact steps_of_hear (of_audited h)
  | closed id => exact steps_of_reclaim (Or.inr rfl) (of_audited h)
  | shutdown =>
    obtain ⟨rfl, rfl⟩ := Prod.mk.inj (Except.ok.inj h)
    exact .shutdown

end ChatRooms.Hub
