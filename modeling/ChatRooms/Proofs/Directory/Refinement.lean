import ChatRooms.Proofs.Directory.Roll
import Mathlib.Data.List.Basic

namespace ChatRooms.Directory

open Std

variable {directory directory' : Directory} {id : ClientId} {occupant : Occupant}
  {name target : RoomName} {room : Room} {nickname : String} {peer : Option SocketAddress}

theorem eq_of_ordered {α : Type} [Ord α] [TransOrd α] [LawfulEqOrd α] {l l' : List α}
    (hl : l.Pairwise (compare · · = .lt)) (hl' : l'.Pairwise (compare · · = .lt))
    (hmem : ∀ a, a ∈ l ↔ a ∈ l') : l = l' := by
  have hnodup {m : List α} (hm : m.Pairwise (compare · · = .lt)) : m.Nodup :=
    hm.imp fun hlt heq => by simp [heq] at hlt
  have hperm : l.Perm l' := (List.perm_ext_iff_of_nodup (hnodup hl) (hnodup hl')).2 hmem
  apply hperm.eq_of_pairwise _ hl hl'
  intro a b _ _ hab hba
  exact absurd hba (OrientedCmp.not_lt_of_lt hab)

def lodgers (directory : Directory) (name : RoomName) : List (ClientId × Occupant) :=
  directory.occupants.toList.filter fun (_, occupant) => occupant.room = name

theorem mem_lodgers : (id, occupant) ∈ directory.lodgers name ↔
    directory.occupants[id]? = some occupant ∧ occupant.room = name := by
  simp [lodgers]

theorem roll_rooms_toList : directory.roll.rooms.toList = directory.rooms.keys := by
  apply eq_of_ordered ExtTreeSet.ordered_toList ExtTreeMap.ordered_keys
  intro name
  rw [ExtTreeSet.mem_toList, ExtTreeMap.mem_keys, mem_roll_rooms]

theorem roll_rooms_size : directory.roll.rooms.size = directory.rooms.size := by
  rw [← ExtTreeSet.length_toList, roll_rooms_toList, ExtTreeMap.length_keys]

theorem roll_entries_getElem? (i : ClientId) :
    directory.roll.entries[i]? = directory.occupants[i]?.map Occupant.entry := by
  rw [roll, ExtTreeMap.getElem?_map]

theorem roll_entries_size : directory.roll.entries.size = directory.occupants.size := by
  rw [roll, ← ExtTreeMap.length_toList, ExtTreeMap.toList_map, List.length_map,
    ExtTreeMap.length_toList]

theorem roll_insert_entry (directory : Directory) (id : ClientId) (changed : Occupant)
    (nicknames : ExtTreeMap String ClientId) :
    ({ directory with
      occupants := directory.occupants.insert id changed
      nicknames } : Directory).roll =
      { directory.roll with entries := directory.roll.entries.insert id changed.entry } := by
  apply roll_eq rfl rfl
  · intro i
    simp only [ExtTreeMap.getElem?_insert, roll_entries_getElem?]
    split <;> rfl
  · intro other
    exact mem_roll_rooms.symm

theorem roll_addRoom : (directory.addRoom name).map roll = directory.roll.addRoom name := by
  have hhas : directory.hasRoom name = true ↔ name ∈ directory.roll.rooms := by
    rw [hasRoom_iff, mem_roll_rooms]
  unfold Directory.addRoom Roll.addRoom roomCount
  rw [← roll_rooms_size]
  by_cases hname : name ∈ directory.roll.rooms
  · rw [if_pos (hhas.2 hname), if_pos hname]
    rfl
  · rw [if_neg (hhas.not.2 hname), if_neg hname]
    by_cases hlimit : directory.maxRooms ≤ directory.roll.rooms.size
    · rw [if_pos hlimit]
      exact (if_pos hlimit).symm
    · rw [if_neg hlimit, if_neg (by exact hlimit)]
      apply congrArg Except.ok
      apply roll_eq rfl rfl
      · intro i
        exact (roll_entries_getElem? i).symm
      · intro other
        simp [mem_roll_rooms]

theorem roll_hangUp :
    (directory.hangUp id).map roll = directory.roll.hangUp id := by
  rw [Directory.hangUp, Directory.amend, Roll.hangUp, roll_entries_getElem?]
  cases hid : directory.occupants[id]? with
  | none => rfl
  | some occupant =>
    have hchanged := roll_insert_entry directory id occupant.hangUp directory.nicknames
    exact congrArg Except.ok hchanged

namespace Intact

theorem members_toList (h : directory.Intact) (hroom : directory.rooms[name]? = some room) :
    room.members.toList = (directory.lodgers name).map Prod.fst := by
  -- Both are in the order of the identifiers.
  apply eq_of_ordered ExtTreeSet.ordered_toList
  · rw [List.pairwise_map]
    exact ExtTreeMap.ordered_keys_toList.filter _
  · intro id
    rw [ExtTreeSet.mem_toList, h.housed.mem_members hroom, roomOf?, Option.map_eq_some_iff,
      List.mem_map]
    constructor
    · rintro ⟨occupant, hid, hname⟩
      exact ⟨(id, occupant), mem_lodgers.2 ⟨hid, hname⟩, rfl⟩
    · rintro ⟨⟨_, occupant⟩, hmem, rfl⟩
      exact ⟨occupant, mem_lodgers.1 hmem⟩

theorem lodgers_eq_nil (h : directory.Intact) (hroom : directory.rooms[name]? = none) :
    directory.lodgers name = [] := by
  rw [List.eq_nil_iff_forall_not_mem]
  rintro ⟨id, occupant⟩ hmem
  obtain ⟨hid, rfl⟩ := mem_lodgers.1 hmem
  obtain ⟨room, hsome⟩ := h.room_getElem? hid
  rw [hroom] at hsome
  cases hsome

theorem members_eq_lodgers (h : directory.Intact) (name : RoomName) :
    directory.members name = (directory.lodgers name).map Prod.snd := by
  unfold members
  cases hroom : directory.rooms[name]? with
  | none => simp [h.lodgers_eq_nil hroom]
  | some room =>
    dsimp only
    rw [h.members_toList hroom, List.filterMap_map, ← List.filterMap_eq_map]
    apply List.filterMap_congr
    rintro ⟨id, occupant⟩ hmem
    simp [(mem_lodgers.1 hmem).1]

theorem roll_members (h : directory.Intact) (name : RoomName) :
    directory.roll.members name = (directory.lodgers name).map Prod.snd := by
  unfold Roll.members roll lodgers
  rw [ExtTreeMap.toList_map, List.filter_map, List.map_map]
  apply List.map_congr_left
  rintro ⟨id, occupant⟩ hmem
  obtain ⟨hid, -⟩ := mem_lodgers.1 hmem
  simp [Occupant.entry, Entry.occupant, ← h.occupant_id hid]

theorem members_eq (h : directory.Intact) (name : RoomName) :
    directory.members name = directory.roll.members name := by
  rw [h.members_eq_lodgers, h.roll_members]

theorem size_eq (h : directory.Intact) (hroom : directory.rooms[name]? = some room) :
    room.size = (directory.roll.members name).length := by
  rw [h.roll_members, Room.size, ← ExtTreeSet.length_toList, h.members_toList hroom,
    List.length_map, List.length_map]

theorem mem_roll_members (h : directory.Intact) :
    occupant ∈ directory.roll.members name ↔
      directory.occupants[occupant.id]? = some occupant ∧ occupant.room = name := by
  rw [h.roll_members, List.mem_map]
  constructor
  · rintro ⟨⟨id, occupant⟩, hmem, rfl⟩
    obtain ⟨hid, hname⟩ := mem_lodgers.1 hmem
    obtain rfl := h.occupant_id hid
    exact ⟨hid, hname⟩
  · rintro ⟨hid, hname⟩
    exact ⟨(occupant.id, occupant), mem_lodgers.2 ⟨hid, hname⟩, rfl⟩

theorem hasNickname_eq (h : directory.Intact) (nickname : String) :
    directory.hasNickname nickname = directory.roll.isTaken nickname := by
  rw [Bool.eq_iff_iff, hasNickname, ExtTreeMap.contains_iff_mem, Maps.mem_iff_exists]
  simp only [h.indexed nickname, nicknameOf?, Roll.isTaken, roll, ExtTreeMap.toList_map,
    List.any_map, List.any_eq_true, Option.map_eq_some_iff]
  constructor
  · rintro ⟨id, occupant, hid, hname⟩
    exact ⟨(id, occupant), ExtTreeMap.mem_toList_iff_getElem?_eq_some.2 hid, decide_eq_true hname⟩
  · rintro ⟨⟨id, occupant⟩, hmem, hname⟩
    exact ⟨id, occupant, ExtTreeMap.mem_toList_iff_getElem?_eq_some.1 hmem,
      of_decide_eq_true hname⟩

theorem any_other_eq (h : directory.Intact) (id : ClientId) (nickname : String) :
    directory.nicknames[nickname]?.any (· != id) = directory.roll.isTakenBesides id nickname := by
  rw [Bool.eq_iff_iff, Option.any_eq_true]
  simp only [h.indexed nickname, nicknameOf?, Roll.isTakenBesides, roll, ExtTreeMap.toList_map,
    List.any_map, List.any_eq_true, Option.map_eq_some_iff]
  constructor
  · rintro ⟨other, ⟨occupant, hother, hname⟩, hne⟩
    refine ⟨(other, occupant), ExtTreeMap.mem_toList_iff_getElem?_eq_some.2 hother, ?_⟩
    simpa [Occupant.entry, hname] using hne
  · rintro ⟨⟨other, occupant⟩, hmem, hname⟩
    simp only [Function.comp_apply, Occupant.entry, Bool.and_eq_true, decide_eq_true_eq] at hname
    exact ⟨other, ⟨occupant, ExtTreeMap.mem_toList_iff_getElem?_eq_some.1 hmem, hname.1⟩, hname.2⟩

theorem findByNickname?_eq_some (h : directory.Intact) :
    directory.findByNickname? nickname = some occupant ↔
      directory.occupants[occupant.id]? = some occupant ∧ occupant.nickname = nickname := by
  rw [findByNickname?, Option.bind_eq_some_iff]
  simp only [h.indexed nickname, nicknameOf?, Option.map_eq_some_iff]
  constructor
  · rintro ⟨id, ⟨found, hfound, hname⟩, hid⟩
    obtain rfl := Option.some.inj (hfound.symm.trans hid)
    obtain rfl := h.occupant_id hid
    exact ⟨hid, hname⟩
  · rintro ⟨hid, hname⟩
    exact ⟨occupant.id, ⟨occupant, hid, hname⟩, hid⟩

theorem nicknameOf?_eq_iff (h : directory.Intact) {other : ClientId}
    (hfound : directory.findByNickname? nickname = some occupant) :
    directory.nicknameOf? other = some nickname ↔ other = occupant.id := by
  obtain ⟨hid, hname⟩ := h.findByNickname?_eq_some.1 hfound
  have hoccupant : directory.nicknameOf? occupant.id = some nickname := by
    rw [nicknameOf?_eq hid, hname]
  exact ⟨fun hother => h.indexed.eq_of_name_eq hother hoccupant, fun hother => hother ▸ hoccupant⟩

theorem findByNickname?_eq (h : directory.Intact) (nickname : String) :
    directory.findByNickname? nickname = directory.roll.findByNickname? nickname := by
  unfold Roll.findByNickname?
  cases hfind : List.find? _ directory.roll.entries.toList with
  | none =>
    rw [Option.map_none, Option.eq_none_iff_forall_ne_some]
    intro occupant hfound
    obtain ⟨hid, hname⟩ := h.findByNickname?_eq_some.1 hfound
    have hmem : (occupant.id, occupant.entry) ∈ directory.roll.entries.toList := by
      rw [ExtTreeMap.mem_toList_iff_getElem?_eq_some, roll, ExtTreeMap.getElem?_map, hid]
      rfl
    -- Whoever the index leads to is in the roll too.
    have hnot := List.find?_eq_none.1 hfind _ hmem
    exact hnot (decide_eq_true hname)
  | some found =>
    obtain ⟨id, entry⟩ := found
    have hname : entry.nickname = nickname := by simpa using List.find?_some hfind
    have hmem := ExtTreeMap.mem_toList_iff_getElem?_eq_some.1 (List.mem_of_find?_eq_some hfind)
    rw [roll, ExtTreeMap.getElem?_map, Option.map_eq_some_iff] at hmem
    obtain ⟨occupant, hid, rfl⟩ := hmem
    obtain rfl := h.occupant_id hid
    exact h.findByNickname?_eq_some.2 ⟨hid, hname⟩

theorem goesWith_iff (h : directory.Intact) (id : ClientId) (name : RoomName) :
    directory.roll.goesWith id name = true ↔ name ≠ directory.defaultRoom ∧
      ∀ other, directory.roomOf? other = some name → other = id := by
  rw [Roll.goesWith, Bool.and_eq_true, bne_iff_ne, List.all_eq_true]
  apply and_congr_right
  intro _
  constructor
  · intro hall other hother
    obtain ⟨occupant, hocc, hname⟩ := Option.map_eq_some_iff.1 hother
    obtain rfl := h.occupant_id hocc
    exact of_decide_eq_true (hall occupant (h.mem_roll_members.2 ⟨hocc, hname⟩))
  · intro hall occupant hmem
    obtain ⟨hocc, rfl⟩ := h.mem_roll_members.1 hmem
    exact decide_eq_true (hall occupant.id (roomOf?_eq hocc))

theorem isDeserted_eq (h : directory.Intact) (hroom : directory.rooms[name]? = some room) :
    (room.remove id).isDeserted = directory.roll.goesWith id name := by
  rw [Bool.eq_iff_iff, h.housed.isDeserted_remove hroom, h.goesWith_iff]

/-- The place that a move is promised is the one that leaving the old room makes. -/
theorem freesItsRoom_eq (h : directory.Intact) (hid : directory.occupants[id]? = some occupant) :
    directory.freesItsRoom occupant.room = directory.roll.goesWith id occupant.room := by
  obtain ⟨room, hroom⟩ := h.room_getElem? hid
  have hmem := (h.housed.mem_members hroom id).2 (roomOf?_eq hid)
  have hdefault : (occupant.room != directory.defaultRoom) = !room.isDefault := by
    rw [Bool.eq_iff_iff, bne_iff_ne, Bool.not_eq_true', ne_eq, ← h.housed.isDefault_iff hroom,
      Bool.not_eq_true]
  have hsize : (room.size == 1) = (room.remove id).isEmpty := by
    -- The client is in the room, so a room of one is a room that it leaves empty.
    have hpos : room.members.size ≠ 0 := by
      rw [ne_eq, ← ExtTreeSet.eq_empty_iff_size_eq_zero]
      rintro hempty
      simp [hempty] at hmem
    rw [Room.isEmpty, ExtTreeSet.isEmpty_eq_size_beq_zero, Room.remove, ExtTreeSet.size_erase,
      ExtTreeSet.contains_iff_mem.2 hmem, Room.size, Bool.eq_iff_iff, beq_iff_eq, beq_iff_eq]
    simp only [if_true]
    omega
  rw [← h.isDeserted_eq hroom, freesItsRoom, hroom, Room.isDeserted, Option.any_some, hdefault,
    hsize, Bool.and_comm]
  rfl

theorem roomSummaries_eq (h : directory.Intact) :
    directory.roomSummaries = directory.roll.roomSummaries := by
  rw [roomSummaries, Roll.roomSummaries, roll_rooms_toList, ← ExtTreeMap.map_fst_toList_eq_keys,
    List.map_map]
  apply List.map_congr_left
  rintro ⟨name, room⟩ hmem
  have hroom := ExtTreeMap.mem_toList_iff_getElem?_eq_some.1 hmem
  simp [h.size_eq hroom, h.housed.room_name hroom]

theorem nicknamesIn_eq (h : directory.Intact) (name : RoomName) :
    directory.nicknamesIn name = directory.roll.nicknamesIn name := by
  rw [nicknamesIn, Roll.nicknamesIn, h.members_eq]

theorem roll_register (h : directory.Intact) :
    (directory.register id nickname peer).map roll = directory.roll.register id nickname peer := by
  obtain ⟨room, hroom⟩ := h.defaultRoom_getElem?
  rw [register_eq hroom, Roll.register, h.hasNickname_eq]
  split
  next => rfl
  next =>
    apply congrArg Except.ok
    apply roll_eq rfl rfl
    · intro i
      simp only [ExtTreeMap.getElem?_insert, roll_entries_getElem?]
      split <;> rfl
    · intro name
      have := h.housed.defaultRoom_mem
      simp only [ExtTreeMap.mem_insert, Std.compare_eq_iff_eq, mem_roll_rooms]
      grind

theorem roll_removeRoom (h : directory.Intact) :
    (directory.removeRoom name).map roll = directory.roll.removeRoom name := by
  unfold Directory.removeRoom Roll.removeRoom
  by_cases hdefault : name = directory.defaultRoom
  · rw [if_pos hdefault, if_pos (by exact hdefault)]
    rfl
  · rw [if_neg hdefault, if_neg (by exact hdefault)]
    cases hroom : directory.rooms[name]? with
    | none =>
      have hnot : name ∉ directory.roll.rooms := by simpa [mem_roll_rooms] using hroom
      rw [if_pos hnot]
      rfl
    | some room =>
      have hmem : name ∈ directory.roll.rooms := mem_roll_rooms.2 (Maps.mem_iff_exists.2 ⟨room, hroom⟩)
      have hempty : room.isEmpty = true ↔ directory.roll.members name = [] := by
        rw [← List.length_eq_zero_iff, ← h.size_eq hroom, Room.isEmpty,
          ExtTreeSet.isEmpty_eq_size_beq_zero, beq_iff_eq, Room.size]
      rw [if_neg (not_not.2 hmem)]
      dsimp only
      by_cases hnil : directory.roll.members name = []
      · rw [if_pos (hempty.2 hnil), if_neg (not_not.2 hnil)]
        apply congrArg Except.ok
        apply roll_eq rfl rfl
        · intro i
          exact (roll_entries_getElem? i).symm
        · intro other
          simp [mem_roll_rooms]
      · rw [if_neg (hempty.not.2 hnil), if_pos hnil]
        rfl

theorem mem_without (h : directory.Intact) (hroom : directory.rooms[name]? = some room)
    (other : RoomName) :
    other ∈ (if (room.remove id).isDeserted then directory.rooms.erase name
      else directory.rooms.insert name (room.remove id)) ↔
      other ∈ directory.roll.without id name := by
  have hmem : name ∈ directory.rooms := Maps.mem_iff_exists.2 ⟨room, hroom⟩
  rw [Roll.without, ← h.isDeserted_eq hroom]
  split
  next => simp [mem_roll_rooms]
  next =>
    simp only [ExtTreeMap.mem_insert, Std.compare_eq_iff_eq, mem_roll_rooms]
    grind

theorem roll_moved (h : directory.Intact) (hid : directory.occupants[id]? = some occupant)
    (hroom : directory.rooms[occupant.room]? = some room) :
    ({ directory with
      rooms := directory.roomsAfterMove occupant room target
      occupants := directory.occupants.insert id { occupant with room := target } } :
        Directory).roll =
      { directory.roll with
        entries := directory.roll.entries.insert id { occupant.entry with room := target }
        rooms := (directory.roll.without id occupant.room).insert target } := by
  obtain rfl := h.occupant_id hid
  apply roll_eq rfl rfl
  · intro i
    simp only [ExtTreeMap.getElem?_insert, roll_entries_getElem?]
    split <;> rfl
  · intro other
    rw [roomsAfterMove, ExtTreeMap.mem_insert, ExtTreeSet.mem_insert, h.mem_without hroom]

theorem mayEnter_eq (h : directory.Intact) (hid : directory.occupants[id]? = some occupant)
    (create : Bool) :
    (if directory.hasRoom target then .ok ()
      else directory.mayCreate occupant.room target create) =
      if target ∉ directory.roll.rooms ∧ create = false then .error (.roomNotFound target.text)
      else if target ∉ directory.roll.rooms ∧ directory.maxRooms ≤ directory.roll.rooms.size ∧
          directory.roll.goesWith id occupant.room = false then
        .error (.tooManyRooms directory.maxRooms)
      else .ok () := by
  rw [mayCreate, roomCount, h.freesItsRoom_eq hid, ← roll_rooms_size]
  by_cases htarget : target ∈ directory.roll.rooms
  · have hhas : directory.hasRoom target = true := hasRoom_iff.2 (mem_roll_rooms.1 htarget)
    simp [hhas, htarget]
  · have hhas : ¬directory.hasRoom target = true := by rwa [hasRoom_iff, ← mem_roll_rooms]
    cases create <;> simp [hhas, htarget]

theorem roll_move (h : directory.Intact) (create : Bool) :
    (directory.move id target create).map (fun after => (after.1.roll, after.2)) =
      (directory.roll.move id target create).mapError Stop.refused := by
  unfold Roll.move
  rw [roll_entries_getElem?]
  cases hid : directory.occupants[id]? with
  | none => simp [Directory.move, hid, Except.map, Except.mapError]
  | some occupant =>
    obtain ⟨room, hroom⟩ := h.room_getElem? hid
    by_cases hsame : occupant.room = target
    · simp [Directory.move, hid, hsame, Occupant.entry, Except.map, Except.mapError]
    · have hcreated : (!directory.hasRoom target) = decide (target ∉ directory.roll.rooms) := by
        rw [Bool.eq_iff_iff, Bool.not_eq_true', decide_eq_true_iff, ← Bool.not_eq_true, hasRoom_iff,
          mem_roll_rooms]
      rw [move_eq h hid hroom hsame, h.mayEnter_eq hid, Option.map_some, hcreated,
        h.isDeserted_eq hroom]
      dsimp only
      rw [if_neg (show ¬occupant.entry.room = target from hsame)]
      -- From here on both sides check the same things in the same order.
      by_cases hmissing : target ∉ directory.roll.rooms ∧ create = false
      · rw [if_pos hmissing, if_pos hmissing]
        rfl
      · rw [if_neg hmissing, if_neg hmissing]
        by_cases hfull : target ∉ directory.roll.rooms ∧
            directory.maxRooms ≤ directory.roll.rooms.size ∧
            directory.roll.goesWith id occupant.room = false
        · rw [if_pos hfull, if_pos (by exact hfull)]
          rfl
        · rw [if_neg hfull, if_neg (by exact hfull)]
          dsimp only [Except.map, Except.mapError]
          rw [h.roll_moved hid hroom]
          rfl

theorem roll_rename (h : directory.Intact) :
    (directory.rename id nickname).map (fun after => (after.1.roll, after.2)) =
      directory.roll.rename id nickname := by
  rw [Directory.rename, Roll.rename, h.any_other_eq, roll_entries_getElem?]
  split
  next => rfl
  next =>
    cases hid : directory.occupants[id]? with
    | none => rfl
    | some occupant =>
      dsimp only [Except.map, Option.map_some]
      rw [roll_insert_entry]
      rfl

theorem roll_remove (h : directory.Intact) :
    (directory.remove id).map (fun after => (after.1.roll, after.2)) =
      .ok (directory.roll.remove id) := by
  rw [Roll.remove, roll_entries_getElem?]
  cases hid : directory.occupants[id]? with
  | none =>
    rw [Directory.remove, hid]
    rfl
  | some occupant =>
    obtain ⟨room, hroom⟩ := h.room_getElem? hid
    obtain rfl := h.occupant_id hid
    rw [remove_eq hid hroom, h.isDeserted_eq hroom, Option.map_some]
    apply congrArg Except.ok
    apply Prod.ext
    · apply roll_eq rfl rfl
      · intro i
        simp only [ExtTreeMap.getElem?_erase, roll_entries_getElem?]
        split <;> rfl
      · intro other
        have hmem := @mem_without directory occupant.id _ room h hroom other
        rw [h.isDeserted_eq hroom] at hmem
        exact hmem
    · rfl

end Intact

end ChatRooms.Directory
