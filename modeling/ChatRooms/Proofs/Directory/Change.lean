import ChatRooms.Proofs.Directory.Integrity

namespace ChatRooms.Directory

open Std

variable {directory directory' : Directory} {id : ClientId} {name target origin : RoomName}
  {nickname old : String} {peer : Option SocketAddress} {create created vacated : Bool}
  {departure : Departure}

theorem occupants_of_register (h : directory.register id nickname peer = .ok directory') :
    directory'.defaultRoom = directory.defaultRoom ∧ directory'.occupants =
      directory.occupants.insert id
        { id, nickname, room := directory.defaultRoom, peer, presence := .active } := by
  unfold register at h
  split at h
  next => cases h
  next =>
    obtain rfl := Except.ok.inj h
    unfold enter
    split <;> exact ⟨rfl, rfl⟩

theorem occupants_of_addRoom (h : directory.addRoom name = .ok directory') :
    directory'.occupants = directory.occupants := by
  unfold addRoom at h
  split at h
  next => cases h
  next =>
    split at h
    next => cases h
    next =>
      obtain rfl := Except.ok.inj h
      rfl

theorem occupants_of_removeRoom (h : directory.removeRoom name = .ok directory') :
    directory'.occupants = directory.occupants := by
  unfold removeRoom at h
  split at h
  next => cases h
  next =>
    split at h
    next => cases h
    next =>
      split at h
      next =>
        obtain rfl := Except.ok.inj h
        rfl
      next => cases h

theorem eq_of_move_unchanged (h : directory.move id target create = .ok (directory', .unchanged)) :
    directory' = directory := by
  unfold move at h
  split at h
  next => cases h
  next =>
    dsimp only at h
    split at h
    next => exact (Prod.mk.inj (Except.ok.inj h)).1.symm
    next =>
      split at h
      next => cases h
      next => split at h <;> cases h

theorem room_of_move_unchanged {occupant : Occupant} (hid : directory.occupants[id]? = some occupant)
    (h : directory.move id target create = .ok (directory', .unchanged)) : occupant.room = target := by
  unfold move at h
  rw [hid] at h
  dsimp only at h
  split at h
  next hsame => exact hsame
  next =>
    split at h
    next => cases h
    next => split at h <;> cases h

theorem eq_of_remove_none (h : directory.remove id = .ok (directory', none)) :
    directory' = directory ∧ directory.occupants[id]? = none := by
  unfold remove at h
  split at h
  next hid => exact ⟨(Prod.mk.inj (Except.ok.inj h)).1.symm, hid⟩
  next =>
    dsimp only at h
    split at h <;> cases h

theorem occupants_of_rename (h : directory.rename id nickname = .ok (directory', old)) :
    ∃ occupant, directory.occupants[id]? = some occupant ∧ old = occupant.nickname ∧
      directory'.occupants = directory.occupants.insert id { occupant with nickname } := by
  unfold rename at h
  split at h
  next => cases h
  next =>
    split at h
    next => cases h
    next occupant hid =>
      obtain ⟨rfl, rfl⟩ := Prod.mk.inj (Except.ok.inj h)
      exact ⟨occupant, hid, rfl, rfl⟩

theorem occupants_of_hangUp (h : directory.hangUp id = .ok directory') :
    ∃ occupant, directory.occupants[id]? = some occupant ∧
      directory'.occupants = directory.occupants.insert id occupant.hangUp := by
  unfold hangUp amend at h
  split at h
  next => cases h
  next occupant hid =>
    obtain rfl := Except.ok.inj h
    exact ⟨occupant, hid, rfl⟩

namespace Intact

theorem occupants_of_move {target' : RoomName} (h : directory.Intact)
    (hmove : directory.move id target create =
      .ok (directory', .moved origin target' created vacated)) :
    ∃ occupant, directory.occupants[id]? = some occupant ∧ occupant.room = origin ∧
      target' = target ∧ origin ≠ target ∧
      directory'.occupants = directory.occupants.insert id { occupant with room := target } ∧
      (vacated = true ↔ origin ≠ directory.defaultRoom ∧
        ∀ other, directory.roomOf? other = some origin → other = id) := by
  cases hid : directory.occupants[id]? with
  | none => simp [Directory.move, hid] at hmove
  | some occupant =>
    obtain ⟨room, hroom⟩ := h.room_getElem? hid
    by_cases hsame : occupant.room = target
    · simp [Directory.move, hid, hsame] at hmove
    · rw [move_eq h hid hroom hsame] at hmove
      split at hmove
      next => cases hmove
      next =>
        obtain ⟨rfl, hmoved⟩ := Prod.mk.inj (Except.ok.inj hmove)
        obtain ⟨rfl, rfl, -, rfl⟩ := Move.moved.inj hmoved
        exact ⟨occupant, rfl, rfl, rfl, hsame, rfl, h.housed.isDeserted_remove hroom⟩

theorem occupants_of_remove (h : directory.Intact)
    (hremove : directory.remove id = .ok (directory', some departure)) :
    ∃ occupant, directory.occupants[id]? = some occupant ∧
      departure.occupant = occupant.hangUp ∧
      directory'.occupants = directory.occupants.erase id ∧
      (departure.vacated = true ↔ occupant.room ≠ directory.defaultRoom ∧
        ∀ other, directory.roomOf? other = some occupant.room → other = id) := by
  cases hid : directory.occupants[id]? with
  | none => simp [Directory.remove, hid] at hremove
  | some occupant =>
    obtain ⟨room, hroom⟩ := h.room_getElem? hid
    rw [remove_eq hid hroom] at hremove
    obtain ⟨rfl, hdeparture⟩ := Prod.mk.inj (Except.ok.inj hremove)
    obtain rfl := Option.some.inj hdeparture
    exact ⟨occupant, rfl, rfl, rfl, h.housed.isDeserted_remove hroom⟩

end Intact

end ChatRooms.Directory
