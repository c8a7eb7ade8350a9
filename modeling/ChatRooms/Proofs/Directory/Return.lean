import ChatRooms.Proofs.Directory.Members
import ChatRooms.Proofs.Directory.Vacancy

namespace ChatRooms.Directory

open Std

variable {directory there : Directory} {id : ClientId} {client : Occupant} {name target : RoomName}
  {create : Bool} {move : Move} {room found : Room}

/-- The directory when a room that nobody is in has been left behind. -/
def tidy (directory : Directory) (name : RoomName) : Directory :=
  if directory.isVacant name then { directory with rooms := directory.rooms.erase name } else directory

theorem occupants_tidy : (directory.tidy name).occupants = directory.occupants := by
  unfold tidy
  split <;> rfl

theorem defaultRoom_tidy : (directory.tidy name).defaultRoom = directory.defaultRoom := by
  unfold tidy
  split <;> rfl

theorem getElem?_rooms_tidy : (directory.tidy target).rooms[name]? =
    if target = name ∧ directory.isVacant target then none else directory.rooms[name]? := by
  unfold tidy
  split
  next hvacant => simp only [ExtTreeMap.getElem?_erase, Std.compare_eq_iff_eq, hvacant, and_true]
  next hvacant => rw [if_neg fun h => hvacant h.2]

namespace Intact

theorem isDeserted_of_getD (h : directory.Intact) (htarget : target ≠ directory.defaultRoom)
    (hfound : directory.rooms[target]?.getD { name := target } = found) :
    found.isDeserted = directory.rooms[target]?.all Room.isEmpty := by
  obtain ⟨-, hmark, -⟩ := h.housed.of_getD hfound
  have hother : found.isDefault = false := by
    rw [← Bool.not_eq_true, hmark]
    exact htarget
  rw [Room.isDeserted, hother, Bool.not_false, Bool.and_true, ← hfound]
  cases directory.rooms[target]? <;> rfl

theorem all_isEmpty_iff (h : directory.Intact) :
    directory.rooms[name]?.all Room.isEmpty = true ↔ ∀ id, directory.roomOf? id ≠ some name := by
  cases hroom : directory.rooms[name]? with
  | none =>
    refine iff_of_true rfl fun id hid => ?_
    exact Maps.not_mem_of_getElem? hroom (h.housed.mem_of_place hid)
  | some room =>
    have hvacant : directory.isVacant name = true ↔ _ := h.isVacant_iff
    rw [isVacant, hroom] at hvacant
    rw [Option.all_some]
    exact hvacant.trans (and_iff_right (Maps.mem_of_getElem? hroom))

/-- Whoever is in the default room leaves it as it was, but for a member. -/
theorem eq_of_move_out (h : directory.Intact) (hid : directory.occupants[id]? = some client)
    (hroom : directory.rooms[client.room]? = some room)
    (hdefault : client.room = directory.defaultRoom) (hne : client.room ≠ target)
    (hfound : directory.rooms[target]?.getD { name := target } = found)
    (hmove : directory.move id target create = .ok (there, move)) :
    there = { directory with
      rooms := (directory.rooms.insert client.room (room.remove id)).insert target (found.add id)
      occupants := directory.occupants.insert id { client with room := target } } := by
  obtain rfl := h.occupant_id hid
  have hstays : ¬(room.remove client.id).isDeserted = true := by
    rw [h.housed.isDeserted_remove hroom]
    exact fun hgone => hgone.1 hdefault
  rw [move_eq h hid hroom hne, roomsAfterMove, if_neg hstays, Maps.getElem?_insert_of_ne hne,
    hfound] at hmove
  split at hmove
  next => cases hmove
  next => exact (Prod.mk.inj (Except.ok.inj hmove)).1.symm

theorem client_of_move_out (h : directory.Intact) (hid : directory.occupants[id]? = some client)
    (hdefault : client.room = directory.defaultRoom) (htarget : target ≠ directory.defaultRoom)
    (hmove : directory.move id target create = .ok (there, move)) :
    there.defaultRoom = directory.defaultRoom ∧
      there.occupants[id]? = some { client with room := target } := by
  obtain ⟨room, hroom⟩ := h.room_getElem? hid
  rw [h.eq_of_move_out hid hroom hdefault (hdefault ▸ Ne.symm htarget) rfl hmove]
  exact ⟨rfl, ExtTreeMap.getElem?_insert_self⟩

theorem rooms_of_move_back (h : directory.Intact) (hid : directory.occupants[id]? = some client)
    (hroom : directory.rooms[client.room]? = some room) (hne : client.room ≠ target)
    (hdeserted : found.isDeserted = directory.rooms[target]?.all Room.isEmpty)
    (hfound : directory.rooms[target]?.getD { name := target } = found)
    (hthere : there.rooms =
      (directory.rooms.insert client.room (room.remove id)).insert target (found.add id)) :
    (if found.isDeserted then there.rooms.erase target else there.rooms.insert target found).insert
      client.room ((room.remove id).add id) = (directory.tidy target).rooms := by
  have hmember : id ∈ room.members := (h.housed.mem_members hroom id).2 (roomOf?_eq hid)
  rw [Room.add_remove hmember, hdeserted]
  apply ExtTreeMap.ext_getElem?
  intro name
  rw [getElem?_rooms_tidy, isVacant]
  by_cases hback : client.room = name
  · subst hback
    rw [ExtTreeMap.getElem?_insert_self, hroom, if_neg fun h => hne h.1.symm]
  rw [Maps.getElem?_insert_of_ne hback]
  by_cases hname : target = name
  · -- A room that was founded on the way is gone like one that stood empty.
    subst hname
    cases hbefore : directory.rooms[target]? with
    | none => simp
    | some before =>
      obtain rfl : before = found := by rwa [hbefore] at hfound
      cases hempty : before.isEmpty <;> simp [hempty]
  · rw [getElem?_vacated hname, hthere, Maps.getElem?_insert_of_ne hname,
      Maps.getElem?_insert_of_ne hback, if_neg fun h => hname h.1]

theorem move_back (h : directory.Intact) (hid : directory.occupants[id]? = some client)
    (hdefault : client.room = directory.defaultRoom) (htarget : target ≠ directory.defaultRoom)
    (hmove : directory.move id target create = .ok (there, move)) :
    there.move id directory.defaultRoom false = .ok (directory.tidy target,
      .moved target directory.defaultRoom false (directory.rooms[target]?.all Room.isEmpty)) := by
  have hne : client.room ≠ target := hdefault ▸ Ne.symm htarget
  obtain ⟨room, hroom⟩ := h.room_getElem? hid
  obtain rfl := h.occupant_id hid
  obtain ⟨found, hfound⟩ : ∃ found, directory.rooms[target]?.getD { name := target } = found := ⟨_, rfl⟩
  obtain ⟨-, -, hmembers⟩ := h.housed.of_getD hfound
  have hleft : (found.add client.id).remove client.id = found := by
    apply Room.remove_add
    rw [hmembers, roomOf?_eq hid, Option.some_inj]
    exact hne
  have hdeserted := h.isDeserted_of_getD htarget hfound
  -- The default room lacks a member on the way, and that is the one thing that coming back puts right.
  have hthere := h.eq_of_move_out hid hroom hdefault hne hfound hmove
  have hrooms : there.rooms = (directory.rooms.insert client.room (room.remove client.id)).insert target
      (found.add client.id) := by rw [hthere]
  have hclient : there.occupants[client.id]? = some { client with room := target } := by
    rw [hthere, ExtTreeMap.getElem?_insert_self]
  have htargetRoom : there.rooms[target]? = some (found.add client.id) := by
    rw [hrooms, ExtTreeMap.getElem?_insert_self]
  have hdefaultRoom : there.rooms[client.room]? = some (room.remove client.id) := by
    rw [hrooms, Maps.getElem?_insert_of_ne hne.symm, ExtTreeMap.getElem?_insert_self]
  have hhas : there.hasRoom client.room = true := hasRoom_iff.2 (Maps.mem_of_getElem? hdefaultRoom)
  have hafter := h.rooms_of_move_back hid hroom hne hdeserted hfound hrooms
  have hreturn := move_eq (h.move hmove) hclient htargetRoom hne.symm false
  rw [hhas, if_pos rfl, roomsAfterMove] at hreturn
  dsimp only at hreturn
  rw [hleft, getElem?_vacated hne.symm, hdefaultRoom, Option.getD_some, hafter] at hreturn
  have hsame : ({ there with
      rooms := (directory.tidy target).rooms
      occupants := there.occupants.insert client.id client } : Directory) = directory.tidy target := by
    rw [hthere]
    dsimp only
    rw [Maps.insert_insert, Maps.insert_of_getElem? hid, tidy]
    split <;> rfl
  rw [← hdefault, hreturn, hdeserted]
  exact congrArg (fun after => Except.ok (after, _)) hsame

end Intact

end ChatRooms.Directory
