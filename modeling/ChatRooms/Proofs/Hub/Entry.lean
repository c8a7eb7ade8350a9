import ChatRooms.Proofs.Hub.Seats

namespace ChatRooms

open Std

def Event.client? : Event → Option ClientId
  | register id _ => some id
  | exited id => some id
  | line id _ => some id
  | closed id => some id
  | shutdown => none

namespace Hub

variable {hub hub' : Hub} {client occupant : Occupant} {request : Request} {event : Event}
  {effects : List Effect} {id : ClientId}

theorem Performs.getElem?_of_ne (hstep : Performs hub client request hub' effects)
    (hintact : hub.directory.Intact) (hne : client.id ≠ id) :
    hub'.directory.occupants[id]? = hub.directory.occupants[id]? := by
  cases hstep with
  | chat | whisper | list | users | keepNickname | help => rfl
  | add hadd => rw [Directory.occupants_of_addRoom hadd]
  | remove hremove => rw [Directory.occupants_of_removeRoom hremove]
  | stay _ hmove => rw [Directory.eq_of_move_unchanged hmove]
  | move _ hmove =>
    obtain ⟨_, -, -, -, -, hoccupants, -⟩ := hintact.occupants_of_move hmove
    rw [hoccupants, Maps.getElem?_insert_of_ne hne]
  | nickname _ hrename =>
    obtain ⟨_, -, -, hoccupants⟩ := Directory.occupants_of_rename hrename
    rw [hoccupants, Maps.getElem?_insert_of_ne hne]
  | quit hquit =>
    obtain ⟨_, -, hoccupants⟩ := Directory.occupants_of_hangUp hquit
    rw [hoccupants, Maps.getElem?_insert_of_ne hne]

/-- Whoever makes a request stays registered, and stays active unless the request is to quit. -/
theorem Performs.exists_entry (hstep : Performs hub client request hub' effects)
    (hintact : hub.directory.Intact) (hid : hub.directory.occupants[client.id]? = some client)
    (hactive : client.isActive = true) :
    ∃ client', hub'.directory.occupants[client.id]? = some client' ∧
      (client'.isActive = true ∧ request ≠ .command .quit ∨
        client' = client.hangUp ∧ request = .command .quit) := by
  have hsame {directory : Directory} (hother : request ≠ .command .quit)
      (hoccupants : directory.occupants = hub.directory.occupants) :
      ∃ client', directory.occupants[client.id]? = some client' ∧
        (client'.isActive = true ∧ request ≠ .command .quit ∨
          client' = client.hangUp ∧ request = .command .quit) :=
    ⟨client, by rw [hoccupants, hid], Or.inl ⟨hactive, hother⟩⟩
  have hinsert {directory : Directory} {client' : Occupant}
      (hoccupants : directory.occupants = hub.directory.occupants.insert client.id client') :
      directory.occupants[client.id]? = some client' := by
    rw [hoccupants, ExtTreeMap.getElem?_insert_self]
  cases hstep with
  | chat | whisper | list | users | keepNickname | help => exact hsame nofun rfl
  | add hadd => exact hsame nofun (Directory.occupants_of_addRoom hadd)
  | remove hremove => exact hsame nofun (Directory.occupants_of_removeRoom hremove)
  | stay hcommand hmove =>
    refine hsame ?_ (congrArg _ (Directory.eq_of_move_unchanged hmove))
    rcases hcommand with ⟨rfl, -⟩ | ⟨rfl, -⟩ <;> exact nofun
  | move hcommand hmove =>
    obtain ⟨found, hfound, -, -, -, hoccupants, -⟩ := hintact.occupants_of_move hmove
    obtain rfl := Option.some.inj (hfound.symm.trans hid)
    refine ⟨_, hinsert hoccupants, Or.inl ⟨hactive, ?_⟩⟩
    rcases hcommand with ⟨rfl, -⟩ | ⟨rfl, -⟩ <;> exact nofun
  | nickname _ hrename =>
    obtain ⟨found, hfound, -, hoccupants⟩ := Directory.occupants_of_rename hrename
    obtain rfl := Option.some.inj (hfound.symm.trans hid)
    exact ⟨_, hinsert hoccupants, Or.inl ⟨hactive, nofun⟩⟩
  | quit hquit =>
    obtain ⟨found, hfound, hoccupants⟩ := Directory.occupants_of_hangUp hquit
    obtain rfl := Option.some.inj (hfound.symm.trans hid)
    exact ⟨_, hinsert hoccupants, Or.inr ⟨rfl, rfl⟩⟩

theorem Steps.getElem?_of_ne (hstep : Steps hub event hub' effects) (hintact : hub.directory.Intact)
    (hne : event.client? ≠ some id) (hrunning : event ≠ .shutdown) :
    hub'.directory.occupants[id]? = hub.directory.occupants[id]? := by
  cases hstep with
  | ignore | refuse | turnAway => rfl
  | perform hid _ _ hperform =>
    refine hperform.getElem?_of_ne hintact ?_
    rw [hintact.occupant_id hid]
    exact fun heq => hne (congrArg some heq)
  | welcome _ hregister =>
    obtain ⟨-, hoccupants⟩ := Directory.occupants_of_register hregister
    rw [hoccupants, Maps.getElem?_insert_of_ne fun heq => hne (congrArg some heq)]
  | reclaim hevent hremove =>
    obtain ⟨_, -, -, hoccupants, -⟩ := hintact.occupants_of_remove hremove
    rw [hoccupants, Maps.getElem?_erase_of_ne]
    rintro rfl
    rcases hevent with rfl | rfl <;> exact hne rfl
  | reclaimAgain _ hremove => rw [(Directory.eq_of_remove_none hremove).1]
  | shutdown => exact absurd rfl hrunning

/-- What a registration does: the newcomer is greeted under the nickname it gets and in the room it is put
into, before anybody hears of it. -/
theorem Steps.of_register {peer : Option SocketAddress}
    (hstep : Steps hub (.register id peer) hub' effects) :
    ∃ guest, hub.nextGuestNumber = some guest ∧
      hub'.directory.occupants[id]? = some
        { id, nickname := guestNickname guest, room := hub.directory.defaultRoom, peer,
          presence := .active } ∧
      effects = .attach id :: .deliver id (.welcome (guestNickname guest) hub.directory.defaultRoom) ::
        broadcast hub'.directory hub.directory.defaultRoom (.connected (guestNickname guest))
          (some id) := by
  cases hstep with
  | welcome hguest hregister =>
    obtain ⟨hdefault, hoccupants⟩ := Directory.occupants_of_register hregister
    refine ⟨_, hguest, ?_, by rw [hdefault]⟩
    rw [hoccupants, ExtTreeMap.getElem?_insert_self]
  | turnAway hguest hregister => exact absurd hregister (register_ne_error hguest)
  | reclaim hevent | reclaimAgain hevent => simp at hevent

/-- What can become of an entry: a request of the client's own changes it, a trigger removes it, a
shutdown hangs up, and nothing else matters to it. -/
theorem Steps.entry (hstep : Steps hub event hub' effects) (hintact : hub.directory.Intact)
    (hadmits : hub.Admits event) (hid : hub.directory.occupants[id]? = some client) :
    hub'.directory.occupants[id]? = some client ∨
      (∃ line request, event = .line id line ∧ client.isActive = true ∧
        Request.decode line = .ok request ∧ Performs hub client request hub' effects ∧
        ∃ client', hub'.directory.occupants[id]? = some client' ∧
          (client'.isActive = true ∧ request ≠ .command .quit ∨
            client' = client.hangUp ∧ request = .command .quit)) ∨
      (event = .exited id ∨ event = .closed id) ∧ hub'.directory.occupants[id]? = none ∨
      event = .shutdown ∧ hub'.directory.occupants[id]? = some client.hangUp := by
  have hmem := Maps.mem_of_getElem? hid
  -- The shutdown names no client, so it is set apart before the event's own client is.
  by_cases hshutdown : event = .shutdown
  · subst hshutdown
    cases hstep with
    | reclaim hevent | reclaimAgain hevent => simp at hevent
    | shutdown =>
      refine Or.inr (Or.inr (Or.inr ⟨rfl, ?_⟩))
      show (hub.directory.occupants.map _)[id]? = _
      rw [ExtTreeMap.getElem?_map, hid, Option.map_some]
  by_cases hself : event.client? = some id
  · cases hstep with
    | ignore | refuse => exact Or.inl hid
    | perform hfound hactive hdecode hperform =>
      obtain rfl := Option.some.inj hself
      obtain rfl := Option.some.inj (hfound.symm.trans hid)
      obtain rfl := hintact.occupant_id hid
      exact Or.inr (Or.inl
        ⟨_, _, rfl, hactive, hdecode, hperform, hperform.exists_entry hintact hid hactive⟩)
    | welcome | turnAway =>
      obtain rfl := Option.some.inj hself
      exact absurd hmem hadmits
    | reclaim hevent hremove =>
      obtain ⟨_, -, -, hoccupants, -⟩ := hintact.occupants_of_remove hremove
      have hevent' := hevent
      rcases hevent with rfl | rfl <;> obtain rfl := Option.some.inj hself <;>
        exact Or.inr (Or.inr (Or.inl ⟨hevent', by rw [hoccupants, ExtTreeMap.getElem?_erase_self]⟩))
    | reclaimAgain hevent hremove =>
      obtain ⟨-, hnone⟩ := Directory.eq_of_remove_none hremove
      rcases hevent with rfl | rfl <;> obtain rfl := Option.some.inj hself <;>
        exact absurd (hnone.symm.trans hid) nofun
    | shutdown => exact absurd rfl hshutdown
  · exact Or.inl ((hstep.getElem?_of_ne hintact hself hshutdown).trans hid)

end Hub

end ChatRooms
