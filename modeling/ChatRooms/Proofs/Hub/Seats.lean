import ChatRooms.Proofs.Directory.Change
import ChatRooms.Proofs.Directory.Houses
import ChatRooms.Proofs.Hub.Hearing
import ChatRooms.Proofs.Hub.Integrity

namespace ChatRooms

open Std

namespace Directory

variable {directory directory' : Directory} {id other : ClientId} {occupant changed : Occupant}
  {room : RoomName}

theorem seats_of_insert (h : directory'.occupants = directory.occupants.insert other changed)
    (hother : directory.occupants[other]? = some occupant)
    (hactive : changed.isActive = true → occupant.isActive = true)
    (hseat : directory'.Seats id room) : ∃ room', directory.Seats id room' := by
  by_cases hid : id = other
  · subst hid
    obtain ⟨member, hmember, hpresent, -⟩ := hseat
    rw [h, ExtTreeMap.getElem?_insert_self] at hmember
    obtain rfl := Option.some.inj hmember
    exact ⟨occupant.room, occupant, hother, hactive hpresent, rfl⟩
  · exact ⟨room, (seats_insert_of_ne h hid).1 hseat⟩

theorem not_seats_hangUpAll : ¬directory.hangUpAll.Seats id room := by
  rintro ⟨member, hmember, hactive, -⟩
  simp only [hangUpAll, ExtTreeMap.getElem?_map, Option.map_eq_some_iff] at hmember
  obtain ⟨found, -, rfl⟩ := hmember
  cases hactive

end Directory

namespace Hub

variable {hub hub' : Hub} {client : Occupant} {request : Request} {event : Event}
  {effects : List Effect} {id : ClientId} {room : RoomName}

theorem Performs.hangUp_not_mem (hstep : Performs hub client request hub' effects)
    (hseat' : hub'.directory.Seats id room) : Effect.hangUp id ∉ effects := by
  cases hstep with
  | quit hquit =>
    obtain ⟨occupant, -, heq⟩ := Directory.occupants_of_hangUp hquit
    obtain ⟨member, hmember, hactive, -⟩ := hseat'
    intro hmem
    have hid : id = client.id := by simpa using hmem
    rw [hid, heq, ExtTreeMap.getElem?_insert_self] at hmember
    obtain rfl := Option.some.inj hmember
    cases hactive
  | move =>
    split <;> simp [hangUp_not_mem_broadcast]
  | chat text => exact hangUp_not_mem_broadcast
  | whisper | add | remove | stay | list | users | keepNickname | help => simp
  | nickname => simp [hangUp_not_mem_broadcast]

theorem Performs.seats (hstep : Performs hub client request hub' effects)
    (hintact : hub.directory.Intact) (hseat : hub'.directory.Seats id room) :
    ∃ room', hub.directory.Seats id room' := by
  cases hstep with
  | chat | whisper | list | users | keepNickname | help => exact ⟨room, hseat⟩
  | add hadd =>
    rw [Directory.Seats, Directory.occupants_of_addRoom hadd] at hseat
    exact ⟨room, hseat⟩
  | remove hremove =>
    rw [Directory.Seats, Directory.occupants_of_removeRoom hremove] at hseat
    exact ⟨room, hseat⟩
  | stay _ hmove =>
    rw [Directory.eq_of_move_unchanged hmove] at hseat
    exact ⟨room, hseat⟩
  | move _ hmove =>
    obtain ⟨occupant, hfound, -, -, -, heq, -⟩ := hintact.occupants_of_move hmove
    exact Directory.seats_of_insert heq hfound (fun hactive => hactive) hseat
  | nickname _ hrename =>
    obtain ⟨occupant, hfound, -, heq⟩ := Directory.occupants_of_rename hrename
    exact Directory.seats_of_insert heq hfound (fun hactive => hactive) hseat
  | quit hquit =>
    obtain ⟨occupant, hfound, heq⟩ := Directory.occupants_of_hangUp hquit
    exact Directory.seats_of_insert heq hfound (fun hactive => by cases hactive) hseat

theorem Steps.seats (hstep : Steps hub event hub' effects) (hintact : hub.directory.Intact)
    (hseat : hub'.directory.Seats id room) :
    (∃ room', hub.directory.Seats id room') ∨ ∃ peer, event = .register id peer := by
  cases hstep with
  | ignore | refuse | turnAway => exact Or.inl ⟨room, hseat⟩
  | perform _ _ _ hperform => exact Or.inl (hperform.seats hintact hseat)
  | @welcome newcomer peer _ _ _ hregister =>
    obtain ⟨-, heq⟩ := Directory.occupants_of_register hregister
    by_cases hid : id = newcomer
    · exact Or.inr ⟨peer, hid ▸ rfl⟩
    · exact Or.inl ⟨room, (Directory.seats_insert_of_ne heq hid).1 hseat⟩
  | reclaim _ hremove =>
    obtain ⟨occupant, -, -, heq, -⟩ := hintact.occupants_of_remove hremove
    obtain ⟨member, hmember, hactive, hroom⟩ := hseat
    rw [heq, ExtTreeMap.getElem?_erase] at hmember
    split at hmember
    next => cases hmember
    next => exact Or.inl ⟨room, member, hmember, hactive, hroom⟩
  | reclaimAgain _ hremove =>
    rw [(Directory.eq_of_remove_none hremove).1] at hseat
    exact Or.inl ⟨room, hseat⟩
  | shutdown => exact absurd hseat Directory.not_seats_hangUpAll

theorem not_mem_of_broadcast {directory : Directory} {target : RoomName} {notice : Notice}
    {spared : Option ClientId} (vacated : Bool) :
    Effect.hangUp id ∉ (if vacated then [] else broadcast directory target notice spared) := by
  split <;> simp [hangUp_not_mem_broadcast]

theorem Steps.hangUp_not_mem (hstep : Steps hub event hub' effects)
    (hintact : hub.directory.Intact) (hseat' : hub'.directory.Seats id room) :
    Effect.hangUp id ∉ effects := by
  cases hstep with
  | ignore | refuse | reclaimAgain => simp
  | perform _ _ _ hperform => exact hperform.hangUp_not_mem hseat'
  | welcome => simp [hangUp_not_mem_broadcast]
  | turnAway hguest hregister => exact absurd hregister (register_ne_error hguest)
  | reclaim _ hremove =>
    obtain ⟨occupant, -, -, heq, -⟩ := hintact.occupants_of_remove hremove
    obtain ⟨member, hmember, -, -⟩ := hseat'
    intro hmem
    simp only [List.mem_cons, reduceCtorEq, false_or, Effect.hangUp.injEq,
      not_mem_of_broadcast, or_false] at hmem
    rw [heq, hmem, ExtTreeMap.getElem?_erase_self] at hmember
    cases hmember
  | shutdown => exact absurd hseat' Directory.not_seats_hangUpAll

theorem Steps.mem_of_hangUp (hstep : Steps hub event hub' effects) (hintact : hub.directory.Intact)
    (hmem : Effect.hangUp id ∈ effects) : id ∈ hub.directory.occupants := by
  cases hstep with
  | ignore | refuse | reclaimAgain => simp at hmem
  | perform hid _ _ hperform =>
    have hclient := Maps.mem_of_getElem? hid
    cases hperform with
    | quit =>
      obtain rfl : id = _ := by simpa using hmem
      rw [hintact.occupant_id hid]
      exact hclient
    | chat => exact absurd hmem hangUp_not_mem_broadcast
    | move =>
      split at hmem <;> simp [hangUp_not_mem_broadcast] at hmem
    | nickname => simp [hangUp_not_mem_broadcast] at hmem
    | whisper | add | remove | stay | list | users | keepNickname | help => simp at hmem
  | welcome => simp [hangUp_not_mem_broadcast] at hmem
  | turnAway hguest hregister => exact absurd hregister (register_ne_error hguest)
  | reclaim _ hremove =>
    obtain ⟨occupant, hfound, -⟩ := hintact.occupants_of_remove hremove
    simp only [List.mem_cons, reduceCtorEq, false_or, Effect.hangUp.injEq,
      not_mem_of_broadcast, or_false] at hmem
    exact hmem ▸ Maps.mem_of_getElem? hfound
  | shutdown =>
    obtain ⟨⟨other, client⟩, hother, heffect⟩ := List.mem_flatMap.1 hmem
    have hid : id = other := by
      dsimp only at heffect
      split at heffect <;> simpa using heffect
    exact hid ▸ Maps.mem_of_getElem? (ExtTreeMap.mem_toList_iff_getElem?_eq_some.1 hother)

end Hub

end ChatRooms
