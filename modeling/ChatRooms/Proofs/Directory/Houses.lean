import ChatRooms.Proofs.Directory.Integrity

namespace ChatRooms.Directory

open Std

variable {directory directory' : Directory} {id other : ClientId} {occupant changed : Occupant}
  {room : RoomName} {nickname : String}

/-- The client is in the room, and heard. -/
def Seats (directory : Directory) (id : ClientId) (room : RoomName) : Prop :=
  ∃ client : Occupant, directory.occupants[id]? = some client ∧ client.isActive = true ∧
    client.room = room

instance : Decidable (directory.Seats id room) :=
  decidable_of_iff (directory.occupants[id]?.any (fun client => client.isActive && client.room = room) =
    true) (by simp [Seats, Option.any_eq_true])

theorem Seats.room_eq {room' : RoomName} (h : directory.Seats id room)
    (h' : directory.Seats id room') : room = room' := by
  obtain ⟨client, hid, -, rfl⟩ := h
  obtain ⟨client', hid', -, rfl⟩ := h'
  obtain rfl := Option.some.inj (hid.symm.trans hid')
  rfl

theorem seats_insert_of_ne (h : directory'.occupants = directory.occupants.insert other changed)
    (hne : id ≠ other) : directory'.Seats id room ↔ directory.Seats id room := by
  rw [Seats, h, Maps.getElem?_insert_of_ne (Ne.symm hne), Seats]

/-- Somebody with the nickname is heard. -/
def HasPresent (directory : Directory) (nickname : String) : Prop :=
  ∃ (id : ClientId) (client : Occupant), directory.occupants[id]? = some client ∧
    client.isActive = true ∧ client.nickname = nickname

instance : Decidable (directory.HasPresent nickname) :=
  decidable_of_iff (directory.occupants.toList.any (fun entry =>
    entry.2.isActive && entry.2.nickname = nickname) = true) (by
      simp [HasPresent, List.any_eq_true, ExtTreeMap.mem_toList_iff_getElem?_eq_some])

/-- Somebody in the room has the nickname. -/
def Houses (directory : Directory) (room : RoomName) (nickname : String) : Prop :=
  ∃ (id : ClientId) (occupant : Occupant), directory.occupants[id]? = some occupant ∧
    occupant.room = room ∧ occupant.nickname = nickname

/-- Somebody else than `id` in the room has the nickname. -/
def HousesBesides (directory : Directory) (id : ClientId) (room : RoomName) (nickname : String) :
    Prop :=
  ∃ (other : ClientId) (occupant : Occupant), other ≠ id ∧
    directory.occupants[other]? = some occupant ∧ occupant.room = room ∧
    occupant.nickname = nickname

theorem houses_insert (h : directory'.occupants = directory.occupants.insert id changed) :
    directory'.Houses room nickname ↔ changed.room = room ∧ changed.nickname = nickname ∨
      directory.HousesBesides id room nickname := by
  unfold Houses HousesBesides
  rw [h]
  constructor
  · rintro ⟨other, occupant, hother, hroom, hname⟩
    rw [ExtTreeMap.getElem?_insert] at hother
    split at hother
    next =>
      obtain rfl := Option.some.inj hother
      exact Or.inl ⟨hroom, hname⟩
    next hne =>
      refine Or.inr ⟨other, occupant, ?_, hother, hroom, hname⟩
      rintro rfl
      exact hne (Std.compare_eq_iff_eq.2 rfl)
  · rintro (⟨hroom, hname⟩ | ⟨other, occupant, hne, hother, hroom, hname⟩)
    · exact ⟨id, changed, ExtTreeMap.getElem?_insert_self, hroom, hname⟩
    · refine ⟨other, occupant, ?_, hroom, hname⟩
      rw [Maps.getElem?_insert_of_ne (Ne.symm hne), hother]

theorem houses_insert_of_eq (hid : directory.occupants[id]? = some occupant)
    (hroom : changed.room = occupant.room) (hname : changed.nickname = occupant.nickname)
    (h : directory'.occupants = directory.occupants.insert id changed) :
    directory'.Houses room nickname ↔ directory.Houses room nickname := by
  rw [houses_insert h, hroom, hname]
  exact (houses_insert (Maps.insert_of_getElem? hid).symm).symm

theorem houses_erase (h : directory'.occupants = directory.occupants.erase id) :
    directory'.Houses room nickname ↔ directory.HousesBesides id room nickname := by
  unfold Houses HousesBesides
  rw [h]
  simp only [ExtTreeMap.getElem?_erase, Std.compare_eq_iff_eq]
  constructor
  · rintro ⟨other, occupant, hother, hroom, hname⟩
    split at hother
    next => cases hother
    next hne => exact ⟨other, occupant, Ne.symm hne, hother, hroom, hname⟩
  · rintro ⟨other, occupant, hne, hother, hroom, hname⟩
    exact ⟨other, occupant, by rw [if_neg (Ne.symm hne), hother], hroom, hname⟩

theorem housesBesides_of_none (hid : directory.occupants[id]? = none) :
    directory.HousesBesides id room nickname ↔ directory.Houses room nickname := by
  constructor
  · rintro ⟨other, occupant, -, hother⟩
    exact ⟨other, occupant, hother⟩
  · rintro ⟨other, occupant, hother, hrest⟩
    refine ⟨other, occupant, ?_, hother, hrest⟩
    rintro rfl
    rw [hid] at hother
    cases hother

theorem housesBesides_of_room_ne (hid : directory.occupants[id]? = some occupant)
    (hroom : occupant.room ≠ room) :
    directory.HousesBesides id room nickname ↔ directory.Houses room nickname := by
  constructor
  · rintro ⟨other, found, -, hother⟩
    exact ⟨other, found, hother⟩
  · rintro ⟨other, found, hother, hfound, hname⟩
    refine ⟨other, found, ?_, hother, hfound, hname⟩
    rintro rfl
    obtain rfl := Option.some.inj (hother.symm.trans hid)
    exact hroom hfound

theorem Intact.housesBesides_iff (h : directory.Intact)
    (hid : directory.occupants[id]? = some occupant) :
    directory.HousesBesides id room nickname ↔
      directory.Houses room nickname ∧ nickname ≠ occupant.nickname := by
  constructor
  · rintro ⟨other, found, hne, hother, hroom, hname⟩
    refine ⟨⟨other, found, hother, hroom, hname⟩, ?_⟩
    rintro rfl
    exact hne (h.indexed.eq_of_name_eq (hname ▸ nicknameOf?_eq hother) (nicknameOf?_eq hid))
  · rintro ⟨⟨other, found, hother, hroom, hname⟩, hne⟩
    refine ⟨other, found, ?_, hother, hroom, hname⟩
    rintro rfl
    obtain rfl := Option.some.inj (hother.symm.trans hid)
    exact hne hname.symm

end ChatRooms.Directory
