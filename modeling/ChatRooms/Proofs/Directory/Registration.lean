import ChatRooms.Proofs.Directory.Audit

namespace ChatRooms.Directory

open Std

/-- Everybody else is known as before, and where they were. -/
structure SparesOthers (id : ClientId) (before after : Directory) : Prop where
  defaultRoom : after.defaultRoom = before.defaultRoom
  maxRooms : after.maxRooms = before.maxRooms
  occupants {other : ClientId} : other ≠ id → after.occupants[other]? = before.occupants[other]?
  nicknames {other : ClientId} (nickname : String) : other ≠ id →
    (after.nicknames[nickname]? = some other ↔ before.nicknames[nickname]? = some other)
  mem_rooms (name : RoomName) : name ∈ after.rooms ↔ name ∈ before.rooms
  members {other : ClientId} (name : RoomName) : other ≠ id →
    (after.rooms[name]?.any fun room => room.contains other) =
      before.rooms[name]?.any fun room => room.contains other

variable {directory after : Directory} {id : ClientId} {occupant : Occupant} {name : RoomName}
  {room : Room} {nickname : String} {peer : Option SocketAddress}

theorem hasNickname_eq_false : directory.hasNickname nickname = false ↔
    directory.nicknames[nickname]? = none := by
  rw [hasNickname, ExtTreeMap.contains_eq_isSome_getElem?, Option.isSome_eq_false_iff,
    Option.isNone_iff_eq_none]

theorem contains_add {other : ClientId} :
    (room.add id).contains other = (decide (id = other) || room.contains other) := by
  rw [Room.contains, Room.add, ExtTreeSet.contains_insert, Room.contains, Bool.eq_iff_iff]
  simp

abbrev newcomer (directory : Directory) (id : ClientId) (nickname : String)
    (peer : Option SocketAddress) : Occupant :=
  { id, nickname, room := directory.defaultRoom, peer, presence := .active }

/-- A registration comes to three insertions. Here `room` is the default room as it was. -/
def enrolled (directory : Directory) (room : Room) (id : ClientId) (nickname : String)
    (peer : Option SocketAddress) : Directory :=
  { directory with
    rooms := directory.rooms.insert directory.defaultRoom (room.add id)
    nicknames := directory.nicknames.insert nickname id
    occupants := directory.occupants.insert id (directory.newcomer id nickname peer) }

theorem register_of_free (hroom : directory.rooms[directory.defaultRoom]? = some room)
    (hfree : directory.nicknames[nickname]? = none) :
    directory.register id nickname peer = .ok (directory.enrolled room id nickname peer) := by
  rw [register_eq hroom, hasNickname_eq_false.2 hfree]
  rfl

section Enrolled

variable (hroom : directory.rooms[directory.defaultRoom]? = some room)
  (hfree : directory.nicknames[nickname]? = none)

include hroom in
theorem getElem?_rooms_enrolled : (directory.enrolled room id nickname peer).rooms[name]? =
    directory.rooms[name]?.map fun found =>
      if name = directory.defaultRoom then found.add id else found := by
  rw [enrolled, ExtTreeMap.getElem?_insert]
  simp only [Std.compare_eq_iff_eq]
  split
  next heq =>
    subst heq
    rw [hroom, Option.map_some, if_pos rfl]
  next hne => simp only [if_neg (Ne.symm hne), Option.map_id']

theorem hasRoom_enrolled : (directory.enrolled room id nickname peer).hasRoom
    (directory.enrolled room id nickname peer).defaultRoom = true :=
  hasRoom_iff.2 ExtTreeMap.mem_insert_self

include hfree in
theorem size_nicknames_enrolled : (directory.enrolled room id nickname peer).nicknames.size =
    directory.nicknames.size + 1 := by
  have hnot : ¬ directory.nicknames.contains nickname = true := by
    rw [ExtTreeMap.contains_iff_mem]
    exact Maps.not_mem_of_getElem? hfree
  rw [enrolled, ExtTreeMap.size_insert, if_neg hnot]

include hroom hfree

theorem occupantViolation_enrolled (hbefore : directory.occupantViolation occupant = none) :
    (directory.enrolled room id nickname peer).occupantViolation occupant = none := by
  obtain ⟨hindexed, found, hfound, hmem⟩ := occupantViolation_eq_none_iff.1 hbefore
  have hother : nickname ≠ occupant.nickname := by
    rintro rfl
    rw [hfree] at hindexed
    cases hindexed
  rw [occupantViolation_eq_none_iff, getElem?_rooms_enrolled hroom, hfound]
  refine ⟨(Maps.getElem?_insert_of_ne hother).trans hindexed, _, rfl, ?_⟩
  split
  next => exact ExtTreeSet.mem_insert.2 (Or.inr hmem)
  next => exact hmem

theorem sparesOthers_enrolled :
    SparesOthers id directory (directory.enrolled room id nickname peer) where
  defaultRoom := rfl
  maxRooms := rfl
  occupants hother := Maps.getElem?_insert_of_ne (Ne.symm hother)
  nicknames {other} name hother := by
    rw [enrolled, ExtTreeMap.getElem?_insert]
    simp only [Std.compare_eq_iff_eq]
    split
    next heq =>
      subst heq
      rw [hfree]
      exact iff_of_false (fun heq => hother (Option.some.inj heq).symm) nofun
    next => rfl
  mem_rooms name := by
    rw [Maps.mem_iff_exists, Maps.mem_iff_exists, getElem?_rooms_enrolled hroom]
    cases directory.rooms[name]? <;> simp
  members {other} name hother := by
    rw [getElem?_rooms_enrolled hroom, Option.any_map]
    congr 1
    funext found
    show Room.contains (if _ then _ else _) other = _
    split
    next => rw [contains_add, decide_eq_false (Ne.symm hother), Bool.false_or]
    next => rfl

/-- No room has a stale member: only clients are members, and the newcomer was none. -/
theorem roomViolation_enrolled (hname : room.name = directory.defaultRoom)
    (hid : id ∉ directory.occupants) {found : Room} (hbefore : directory.roomViolation found = none)
    (hfound : directory.rooms[name]? = some found) :
    (directory.enrolled room id nickname peer).roomViolation
      (if name = directory.defaultRoom then found.add id else found) = none := by
  have hspares : SparesOthers id directory (directory.enrolled room id nickname peer) :=
    sparesOthers_enrolled hroom hfree
  have hstays : ∀ member ∈ found.members,
      (directory.enrolled room id nickname peer).roomOf? member = some found.name := by
    intro member hmem
    have hplaced := roomViolation_eq_none_iff.1 hbefore member hmem
    obtain ⟨occupant, hoccupant, hroomOf⟩ := Option.map_eq_some_iff.1 hplaced
    have hother : member ≠ id := fun heq => hid (heq ▸ Maps.mem_of_getElem? hoccupant)
    rw [roomOf?, hspares.occupants hother, hoccupant, Option.map_some, hroomOf]
  rw [roomViolation_eq_none_iff]
  split
  next heq =>
    subst heq
    obtain rfl := Option.some.inj (hroom.symm.trans hfound)
    intro member hmem
    rcases ExtTreeSet.mem_insert.1 hmem with heq | hmem
    · obtain rfl := Std.compare_eq_iff_eq.1 heq
      have hnewcomer : (directory.enrolled room id nickname peer).occupants[id]? =
          some (directory.newcomer id nickname peer) := ExtTreeMap.getElem?_insert_self
      exact (roomOf?_eq hnewcomer).trans (congrArg some hname.symm)
    · exact hstays member hmem
  next => exact hstays

theorem audit_enrolled_of_not_mem (haudit : directory.audit = none)
    (hname : room.name = directory.defaultRoom) (hid : id ∉ directory.occupants) :
    (directory.enrolled room id nickname peer).audit = none := by
  obtain ⟨-, hsize, hoccupants, hrooms⟩ := audit_eq_none_iff.1 haudit
  refine audit_eq_none_iff.2 ⟨hasRoom_iff.1 hasRoom_enrolled, ?_, fun other occupant hother => ?_,
    fun name found hfound => ?_⟩
  · rw [size_nicknames_enrolled hfree, hsize, enrolled, ExtTreeMap.size_insert,
      if_neg (mt ExtTreeMap.contains_iff_mem.1 hid)]
  · rw [enrolled, ExtTreeMap.getElem?_insert] at hother
    split at hother
    next =>
      obtain rfl := Option.some.inj hother
      rw [occupantViolation_eq_none_iff]
      exact ⟨ExtTreeMap.getElem?_insert_self, _, ExtTreeMap.getElem?_insert_self,
        ExtTreeSet.mem_insert_self⟩
    next => exact occupantViolation_enrolled hroom hfree (hoccupants other occupant hother)
  · rw [getElem?_rooms_enrolled hroom] at hfound
    obtain ⟨before, hbefore, rfl⟩ := Option.map_eq_some_iff.1 hfound
    exact roomViolation_enrolled hroom hfree hname hid (hrooms name before hbefore) hbefore

omit hroom in
theorem audit_enrolled_of_mem (haudit : directory.audit = none) (hid : id ∈ directory.occupants) :
    (directory.enrolled room id nickname peer).audit = some .indexOutOfStep := by
  obtain ⟨-, hsize, -⟩ := audit_eq_none_iff.1 haudit
  have hout : (directory.enrolled room id nickname peer).nicknames.size ≠
      (directory.enrolled room id nickname peer).occupants.size := by
    rw [size_nicknames_enrolled hfree, hsize, enrolled, ExtTreeMap.size_insert,
      if_pos (ExtTreeMap.contains_iff_mem.2 hid)]
    exact Nat.succ_ne_self _
  rw [audit, hasRoom_enrolled, Bool.not_true, if_neg Bool.false_ne_true, if_pos hout]

end Enrolled

/-- A registration that is refused changes nothing. One that is not spares all others, and what it
leaves is in step unless the identifier was in use: then its old nickname stays taken, it stays in its
old room, and the index is out of step. -/
theorem register_audit_eq (haudit : directory.audit = none)
    (hname : ∀ room, directory.rooms[directory.defaultRoom]? = some room →
      room.name = directory.defaultRoom)
    (id : ClientId) (nickname : String) (peer : Option SocketAddress) :
    (directory.hasNickname nickname = true ∧ directory.step (.register id nickname peer) =
      (directory, .error (.refused (.duplicateNickname nickname)))) ∨
    ∃ after, directory.hasNickname nickname = false ∧
      directory.step (.register id nickname peer) = (after, .ok (.registered
        { id, nickname, room := directory.defaultRoom, peer, presence := .active })) ∧
      SparesOthers id directory after ∧
      (id ∉ directory.occupants → after.audit = none) ∧
      ∀ old, directory.occupants[id]? = some old → after.audit = some .indexOutOfStep ∧
        after.hasNickname old.nickname = true ∧
        (after.rooms[old.room]?.any fun room => room.contains old.id) = true := by
  obtain ⟨hdefaultRoom, -, hoccupants, -⟩ := audit_eq_none_iff.1 haudit
  obtain ⟨room, hroom⟩ := Maps.mem_iff_exists.1 hdefaultRoom
  cases hfree : directory.hasNickname nickname with
  | true =>
    refine Or.inl ⟨rfl, ?_⟩
    rw [step, perform, register_eq hroom, if_pos hfree]
    rfl
  | false =>
    rw [hasNickname_eq_false] at hfree
    have hregister : directory.register id nickname peer =
        .ok (directory.enrolled room id nickname peer) := register_of_free hroom hfree
    refine Or.inr ⟨directory.enrolled room id nickname peer, rfl, ?_,
      sparesOthers_enrolled hroom hfree,
      audit_enrolled_of_not_mem hroom hfree haudit (hname room hroom), fun old hold => ?_⟩
    · rw [step, perform, hregister]
      dsimp only
      rw [occupant_of_register hregister]
      rfl
    · -- What was in step about the old entry still is, though the entry is gone.
      have hbefore : (directory.enrolled room id nickname peer).occupantViolation old = none :=
        occupantViolation_enrolled hroom hfree (hoccupants id old hold)
      obtain ⟨hindexed, found, hfound, hmem⟩ := occupantViolation_eq_none_iff.1 hbefore
      refine ⟨audit_enrolled_of_mem hfree haudit (Maps.mem_of_getElem? hold), ?_, ?_⟩
      · rw [hasNickname, ExtTreeMap.contains_eq_isSome_getElem?, hindexed]
        rfl
      · rw [hfound]
        exact ExtTreeSet.contains_iff_mem.2 hmem

/-- Ann is registered again, under another nickname, while she is in a room of her own. Both nicknames
are hers, and she is in both rooms. -/
theorem register_audit_of_comeback :
    let general : RoomName := ⟨"general", by decide⟩
    let dev : RoomName := ⟨"dev", by decide⟩
    let before := (((new general 4).step (.register 1 "ann" none)).1.step (.move 1 dev true)).1
    let after := (before.step (.register 1 "bob" none)).1
    before.audit = none ∧ after.audit = some .indexOutOfStep ∧
      after.nicknames.toList = [("ann", 1), ("bob", 1)] ∧ after.size = 1 ∧
      after.roomSummaries.map (fun (room, count) => (room.text, count)) =
        [("dev", 1), ("general", 1)] := by
  decide

/-- A new client comes in beside Ann, and Ann herself cannot without harm. -/
theorem register_audit_eq_two_ways :
    let general : RoomName := ⟨"general", by decide⟩
    let before := ((new general 4).step (.register 1 "ann" none)).1
    before.audit = none ∧ (before.step (.register 2 "bob" none)).1.audit = none ∧
      (before.step (.register 1 "bob" none)).1.audit = some .indexOutOfStep := by
  intro general before
  have haudit : before.audit = none := by decide
  have hname : ∀ room, before.rooms[before.defaultRoom]? = some room →
      room.name = before.defaultRoom := by
    intro room hroom
    have hfound : before.rooms[before.defaultRoom]?.all fun room => room.name = before.defaultRoom := by
      decide
    rw [hroom, Option.all_some, decide_eq_true_iff] at hfound
    exact hfound
  have hfree : before.hasNickname "bob" ≠ true := by decide
  refine ⟨haudit, ?_, ?_⟩
  · obtain ⟨htaken, -⟩ | ⟨after, -, hstep, -, hnew, -⟩ := register_audit_eq haudit hname 2 "bob" none
    · exact absurd htaken hfree
    · rw [hstep]
      exact hnew (by decide)
  · obtain ⟨htaken, -⟩ | ⟨after, -, hstep, -, -, hold⟩ := register_audit_eq haudit hname 1 "bob" none
    · exact absurd htaken hfree
    · rw [hstep]
      obtain ⟨ann, hann⟩ := Maps.mem_iff_exists.1 (show 1 ∈ before.occupants by decide)
      exact (hold ann hann).1

end ChatRooms.Directory
