import ChatRooms.Proofs.Directory.Operation
import Mathlib.Data.List.Nodup
import Mathlib.Data.List.Perm.Subperm

namespace ChatRooms.Directory

open Std

/-- Every entry is stored under its own identifier or name. -/
structure Filed (directory : Directory) : Prop where
  occupant_id {id : ClientId} {occupant : Occupant} :
    directory.occupants[id]? = some occupant → occupant.id = id
  room_name {name : RoomName} {room : Room} : directory.rooms[name]? = some room → room.name = name

/-- The three maps tell one story. -/
structure InStep (directory : Directory) : Prop where
  defaultRoom_mem : directory.defaultRoom ∈ directory.rooms
  /-- No entry of the index is stale, and none is for somebody who is not there. -/
  indexed : Indexed directory.nicknames directory.nicknameOf?
  eq_of_nickname_eq {id other : ClientId} {nickname : String} :
    directory.nicknameOf? id = some nickname → directory.nicknameOf? other = some nickname →
      id = other
  room_mem {id : ClientId} {name : RoomName} :
    directory.roomOf? id = some name → name ∈ directory.rooms
  mem_members {name : RoomName} {room : Room} :
    directory.rooms[name]? = some room → ∀ id, id ∈ room.members ↔ directory.roomOf? id = some name

variable {directory directory' : Directory} {id : ClientId} {occupant : Occupant} {name : RoomName}
  {room : Room} {nickname : String}

def nicknameEntries (directory : Directory) : List (String × ClientId) :=
  directory.occupants.toList.map fun (id, occupant) => (occupant.nickname, id)

theorem mem_nicknameEntries :
    (nickname, id) ∈ directory.nicknameEntries ↔ directory.nicknameOf? id = some nickname := by
  simp [nicknameEntries, nicknameOf?, ExtTreeMap.mem_toList_iff_getElem?_eq_some]

theorem nodup_nicknameEntries : directory.nicknameEntries.Nodup := by
  have hids : directory.nicknameEntries.map Prod.snd = directory.occupants.keys := by
    rw [nicknameEntries, List.map_map, ← ExtTreeMap.map_fst_toList_eq_keys]
    rfl
  apply List.Nodup.of_map Prod.snd
  rw [hids]
  exact ExtTreeMap.nodup_keys

theorem length_nicknameEntries : directory.nicknameEntries.length = directory.occupants.size := by
  rw [nicknameEntries, List.length_map, ExtTreeMap.length_toList]

theorem Indexed.size_eq (h : Indexed directory.nicknames directory.nicknameOf?) :
    directory.nicknames.size = directory.occupants.size := by
  have hentries : directory.nicknames.toList.Nodup :=
    ExtTreeMap.distinct_keys_toList.imp fun hne heq => hne (by simp [heq])
  have hsame : directory.nicknames.toList.Perm directory.nicknameEntries := by
    rw [List.perm_ext_iff_of_nodup hentries nodup_nicknameEntries]
    rintro ⟨nickname, id⟩
    rw [ExtTreeMap.mem_toList_iff_getElem?_eq_some, h, mem_nicknameEntries]
  rw [← ExtTreeMap.length_toList, hsame.length_eq, length_nicknameEntries]

/-- An index of that size in which every client is found has no place left for anything else. -/
theorem indexed_of_size_eq (hsize : directory.nicknames.size = directory.occupants.size)
    (hfound : ∀ id nickname, directory.nicknameOf? id = some nickname →
      directory.nicknames[nickname]? = some id) :
    Indexed directory.nicknames directory.nicknameOf? := by
  have hsubset : directory.nicknameEntries ⊆ directory.nicknames.toList := by
    rintro ⟨nickname, id⟩ hmem
    rw [ExtTreeMap.mem_toList_iff_getElem?_eq_some]
    exact hfound id nickname (mem_nicknameEntries.1 hmem)
  -- The clients' entries are all different and all there, so they are all that is there.
  have hlength : directory.nicknames.toList.length ≤ directory.nicknameEntries.length := by
    rw [ExtTreeMap.length_toList, length_nicknameEntries, hsize]
  have hsame : directory.nicknameEntries.Perm directory.nicknames.toList :=
    (List.subperm_of_subset nodup_nicknameEntries hsubset).perm_of_length_le hlength
  intro nickname id
  rw [← mem_nicknameEntries, hsame.mem_iff, ExtTreeMap.mem_toList_iff_getElem?_eq_some]

theorem occupantViolation_eq_none_iff : directory.occupantViolation occupant = none ↔
    directory.nicknames[occupant.nickname]? = some occupant.id ∧
      ∃ room, directory.rooms[occupant.room]? = some room ∧ occupant.id ∈ room.members := by
  unfold occupantViolation
  split
  next hlost => exact iff_of_false nofun fun hfound => hlost hfound.1
  next hindexed =>
    rw [not_not] at hindexed
    simp [hindexed, Option.any_eq_true, Room.contains]

theorem roomViolation_eq_none_iff : directory.roomViolation room = none ↔
    ∀ id ∈ room.members, directory.roomOf? id = some room.name := by
  simp [roomViolation, memberViolation, roomOf?, Option.any_eq_true]

theorem audit_eq_none_iff : directory.audit = none ↔
    directory.defaultRoom ∈ directory.rooms ∧
    directory.nicknames.size = directory.occupants.size ∧
    (∀ (id : ClientId) (occupant : Occupant), directory.occupants[id]? = some occupant →
      directory.occupantViolation occupant = none) ∧
    ∀ (name : RoomName) (room : Room), directory.rooms[name]? = some room →
      directory.roomViolation room = none := by
  unfold audit
  rw [← hasRoom_iff]
  split
  next hmissing => exact iff_of_false nofun fun h => by simp [h.1] at hmissing
  next hdefault =>
    split
    next hsize => exact iff_of_false nofun fun h => hsize h.2.1
    next hsize =>
      simp_all [ExtTreeMap.mem_toList_iff_getElem?_eq_some]

namespace Filed

theorem amend (h : directory.Filed) {change : Occupant → Occupant}
    (hamend : directory.amend id change = .ok directory')
    (hkeeps : ∀ occupant, (change occupant).id = occupant.id) : directory'.Filed := by
  unfold Directory.amend at hamend
  split at hamend
  next => cases hamend
  next occupant hid =>
    obtain rfl := Except.ok.inj hamend
    refine ⟨fun {other found} hother => ?_, h.room_name⟩
    rw [ExtTreeMap.getElem?_insert] at hother
    split at hother
    next heq =>
      obtain rfl := Std.compare_eq_iff_eq.1 heq
      obtain rfl := Option.some.inj hother
      rw [hkeeps, h.occupant_id hid]
    next => exact h.occupant_id hother

theorem audit_eq_none (h : directory.Filed) (hstep : directory.InStep) : directory.audit = none := by
  refine audit_eq_none_iff.2 ⟨hstep.defaultRoom_mem, hstep.indexed.size_eq, ?_, ?_⟩
  · intro id occupant hid
    obtain ⟨room, hroom⟩ := Maps.mem_iff_exists.1 (hstep.room_mem (roomOf?_eq hid))
    rw [occupantViolation_eq_none_iff, h.occupant_id hid]
    exact ⟨(hstep.indexed _ _).2 (nicknameOf?_eq hid), room, hroom,
      (hstep.mem_members hroom id).2 (roomOf?_eq hid)⟩
  · intro name room hroom
    rw [roomViolation_eq_none_iff, h.room_name hroom]
    exact fun id hmem => (hstep.mem_members hroom id).1 hmem

/-- Membership is looked at from both sides: no client is missing in its room, and none is in another. -/
theorem inStep (h : directory.Filed) (haudit : directory.audit = none) : directory.InStep := by
  obtain ⟨hdefault, hsize, hoccupants, hrooms⟩ := audit_eq_none_iff.1 haudit
  have hfound {id : ClientId} {occupant : Occupant} (hid : directory.occupants[id]? = some occupant) :
      directory.nicknames[occupant.nickname]? = some id ∧
        ∃ room, directory.rooms[occupant.room]? = some room ∧ id ∈ room.members := by
    have hfound := occupantViolation_eq_none_iff.1 (hoccupants id occupant hid)
    rwa [h.occupant_id hid] at hfound
  have hindexed : Indexed directory.nicknames directory.nicknameOf? := by
    apply indexed_of_size_eq hsize
    intro id nickname hname
    obtain ⟨occupant, hid, rfl⟩ := Option.map_eq_some_iff.1 hname
    exact (hfound hid).1
  -- The look at the clients says who is in a room, the look at the rooms that nobody else is.
  refine ⟨hdefault, hindexed, hindexed.eq_of_name_eq, fun {id name} hplace => ?_,
    fun {name room} hroom id => ⟨fun hmem => ?_, fun hplace => ?_⟩⟩
  · obtain ⟨occupant, hid, rfl⟩ := Option.map_eq_some_iff.1 hplace
    obtain ⟨-, room, hroom, -⟩ := hfound hid
    exact Maps.mem_of_getElem? hroom
  · rw [← h.room_name hroom]
    exact roomViolation_eq_none_iff.1 (hrooms name room hroom) id hmem
  · obtain ⟨occupant, hid, rfl⟩ := Option.map_eq_some_iff.1 hplace
    obtain ⟨-, found, hfoundRoom, hmem⟩ := hfound hid
    rwa [Option.some.inj (hroom.symm.trans hfoundRoom)]

end Filed

namespace Intact

theorem filed (h : directory.Intact) : directory.Filed :=
  ⟨h.occupant_id, h.housed.room_name⟩

theorem inStep (h : directory.Intact) : directory.InStep :=
  ⟨h.housed.defaultRoom_mem, h.indexed, h.indexed.eq_of_name_eq, h.housed.mem_of_place,
    h.housed.mem_members⟩

theorem audit_eq_none (h : directory.Intact) : directory.audit = none :=
  h.filed.audit_eq_none h.inStep

end Intact

/-- The audit finds nothing exactly if there is nothing to find. -/
theorem Filed.audit_eq_none_iff_inStep (h : directory.Filed) :
    directory.audit = none ↔ directory.InStep :=
  ⟨h.inStep, h.audit_eq_none⟩

/-- Bob's nickname is overwritten with Ann's. There are as many nicknames as clients still, but one entry
of the index is stale, and the audit finds out. -/
theorem audit_eq_none_iff_inStep_overwritten :
    let general : RoomName := ⟨"general", by decide⟩
    let both := (((new general 2).step (.register 1 "ann" none)).1.step (.register 2 "bob" none)).1
    both.InStep ∧ ∃ overwritten,
      both.amend 2 (fun bob => { bob with nickname := "ann" }) = .ok overwritten ∧
      overwritten.Filed ∧ overwritten.nicknames.size = overwritten.occupants.size ∧
      overwritten.audit = some (.nicknameNotIndexed "ann") ∧ ¬overwritten.InStep := by
  intro general both
  have hreached : Reached general 2 both :=
    .step (.step .new (by show 1 ∉ _; decide)) (by show 2 ∉ _; decide)
  have hfiled : both.Filed := hreached.intact.filed
  have hclean : both.audit = none := by decide
  let bob : Occupant := { id := 2, nickname := "bob", room := general, presence := .active }
  let overwritten : Directory :=
    { both with occupants := both.occupants.insert 2 { bob with nickname := "ann" } }
  have hbob : both.occupants[(2 : ClientId)]? = some bob := by decide
  have hamend : both.amend 2 (fun bob => { bob with nickname := "ann" }) = .ok overwritten := by
    rw [amend, hbob]
  have hfiled' : overwritten.Filed := hfiled.amend hamend fun _ => rfl
  have haudit : overwritten.audit = some (.nicknameNotIndexed "ann") := by decide
  refine ⟨hfiled.audit_eq_none_iff_inStep.1 hclean, overwritten, hamend, hfiled', by decide, haudit,
    fun hstep => ?_⟩
  rw [hfiled'.audit_eq_none_iff_inStep.2 hstep] at haudit
  cases haudit

end ChatRooms.Directory
