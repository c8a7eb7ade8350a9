import ChatRooms.Proofs.Directory.Members
import ChatRooms.Proofs.Directory.Vacancy

namespace ChatRooms.Directory

open Std

def removeAll (directory : Directory) : List ClientId → Except Defect (Directory × List Departure)
  | [] => .ok (directory, [])
  | id :: ids =>
    match directory.remove id with
    | .error defect => .error defect
    | .ok (after, departure) =>
      match after.removeAll ids with
      | .error defect => .error defect
      | .ok (last, departures) => .ok (last, departure.toList ++ departures)

/-- What is left of the directory without those who are gone. -/
def without (directory : Directory) (gone : ClientId → Bool) : Directory :=
  { directory with
    occupants := directory.occupants.filter fun id _ => !gone id
    rooms := directory.rooms.filterMap fun _ room => room.remnant? gone
    nicknames := directory.nicknames.filter fun _ id => !gone id }

/-- What is left when clients have gone: everything that is known of the others, and their rooms, with those
that nobody was in anyway. -/
structure RidOf (before : Directory) (ids : List ClientId) (after : Directory) : Prop where
  defaultRoom : after.defaultRoom = before.defaultRoom
  maxRooms : after.maxRooms = before.maxRooms
  occupants (id : ClientId) :
    after.occupants[id]? = if id ∈ ids then none else before.occupants[id]?
  nicknames (nickname : String) (id : ClientId) : after.nicknames[nickname]? = some id ↔
    before.nicknames[nickname]? = some id ∧ id ∉ ids
  mem_rooms (name : RoomName) : name ∈ after.rooms ↔ name = before.defaultRoom ∨
    (∃ id, id ∉ ids ∧ before.roomOf? id = some name) ∨ before.isVacant name = true
  members {name : RoomName} {room : Room} : after.rooms[name]? = some room →
    ∃ found, before.rooms[name]? = some found ∧ room.name = found.name ∧
      room.isDefault = found.isDefault ∧ ∀ id, id ∈ room.members ↔ id ∈ found.members ∧ id ∉ ids

variable {directory : Directory} {id : ClientId} {occupant : Occupant} {gone gone' : ClientId → Bool}
  {name : RoomName} {room : Room} {nickname : String}

theorem getElem?_occupants_without : (directory.without gone).occupants[id]? =
    if gone id then none else directory.occupants[id]? := by
  rw [without, ExtTreeMap.getElem?_filter']
  cases directory.occupants[id]? <;> cases gone id <;> rfl

theorem getElem?_nicknames_without : (directory.without gone).nicknames[nickname]? =
    directory.nicknames[nickname]?.filter fun id => !gone id := by
  rw [without, ExtTreeMap.getElem?_filter']

theorem getElem?_rooms_without : (directory.without gone).rooms[name]? =
    directory.rooms[name]?.bind fun room => room.remnant? gone := by
  rw [without, ExtTreeMap.getElem?_filterMap']

theorem eq_without {directory' : Directory}
    (hdefault : directory'.defaultRoom = directory.defaultRoom)
    (hmax : directory'.maxRooms = directory.maxRooms)
    (hoccupants : ∀ id : ClientId, directory'.occupants[id]? =
      if gone id then none else directory.occupants[id]?)
    (hrooms : ∀ name : RoomName, directory'.rooms[name]? =
      directory.rooms[name]?.bind fun room => room.remnant? gone)
    (hnicknames : ∀ nickname : String, directory'.nicknames[nickname]? =
      directory.nicknames[nickname]?.filter fun id => !gone id) :
    directory' = directory.without gone := by
  have h₁ : directory'.occupants = (directory.without gone).occupants := by
    apply ExtTreeMap.ext_getElem?
    intro id
    rw [hoccupants, getElem?_occupants_without]
  have h₂ : directory'.rooms = (directory.without gone).rooms := by
    apply ExtTreeMap.ext_getElem?
    intro name
    rw [hrooms, getElem?_rooms_without]
  have h₃ : directory'.nicknames = (directory.without gone).nicknames := by
    apply ExtTreeMap.ext_getElem?
    intro nickname
    rw [hnicknames, getElem?_nicknames_without]
  obtain ⟨defaultRoom, maxRooms, occupants, rooms, nicknames⟩ := directory'
  subst hdefault hmax h₁ h₂ h₃
  rfl

theorem without_none (directory : Directory) : directory.without (fun _ => false) = directory := by
  symm
  apply eq_without rfl rfl
  · intro id
    rfl
  · intro name
    cases directory.rooms[name]? with
    | none => rfl
    | some room =>
      have hnobody : ∀ id ∈ room.members, false = false := fun _ _ => rfl
      rw [Option.bind_some, Room.remnant?_of_forall hnobody]
  · intro nickname
    cases directory.nicknames[nickname]? <;> rfl

theorem without_without (directory : Directory) (gone gone' : ClientId → Bool) :
    (directory.without gone).without gone' = directory.without fun id => gone id || gone' id := by
  refine eq_without (by rfl) (by rfl) ?_ ?_ ?_
  · intro id
    rw [getElem?_occupants_without, getElem?_occupants_without]
    cases gone id <;> simp
  · intro name
    rw [getElem?_rooms_without, getElem?_rooms_without, Option.bind_assoc]
    simp only [Room.remnant?_remnant?]
  · intro nickname
    rw [getElem?_nicknames_without, getElem?_nicknames_without]
    cases directory.nicknames[nickname]? with
    | none => rfl
    | some id => cases hgone : gone id <;> simp [Option.filter, hgone]

namespace Intact

/-- One removal. Whether the room goes along is up to those who are still in it. -/
theorem remove_eq_without (h : directory.Intact) (hid : directory.occupants[id]? = some occupant)
    (hroom : directory.rooms[occupant.room]? = some room) :
    directory.remove id = .ok (directory.without (· == id),
      some { occupant := occupant.hangUp, vacated := (room.remove id).isDeserted }) := by
  rw [remove_eq hid hroom]
  refine congrArg (fun after => Except.ok (after, _)) (eq_without rfl rfl ?_ ?_ ?_)
  · intro other
    rw [ExtTreeMap.getElem?_erase]
    simp only [Std.compare_eq_iff_eq, beq_iff_eq, @eq_comm _ id]
  · intro name
    by_cases hname : occupant.room = name
    · subst hname
      have hmem : id ∈ room.members := (h.housed.mem_members hroom id).2 (roomOf?_eq hid)
      rw [hroom, Option.bind_some, Room.remnant?_singleton hmem]
      cases (room.remove id).isDeserted <;> simp
    · -- Nobody is in two rooms, so that no other room is touched.
      rw [getElem?_vacated hname]
      cases hother : directory.rooms[name]? with
      | none => rfl
      | some other =>
        have hstay : ∀ member ∈ other.members, (member == id) = false := by
          intro member hmem
          rw [beq_eq_false_iff_ne]
          rintro rfl
          have hplace := (h.housed.mem_members hother member).1 hmem
          exact hname (Option.some.inj ((roomOf?_eq hid).symm.trans hplace))
        rw [Option.bind_some, Room.remnant?_of_forall hstay]
  · intro nickname
    have hindexed := h.indexed nickname id
    have hname := nicknameOf?_eq hid
    rw [ExtTreeMap.getElem?_erase]
    simp only [Std.compare_eq_iff_eq]
    cases hfound : directory.nicknames[nickname]? <;> grind

theorem removeAll_eq (h : directory.Intact) {order : List ClientId} (hnodup : order.Nodup)
    (hregistered : ∀ id ∈ order, id ∈ directory.occupants) :
    ∃ departures, directory.removeAll order = .ok (directory.without order.contains, departures) ∧
      departures.map (fun departure => some departure.occupant) =
        order.map (fun id => directory.occupants[id]?.map Occupant.hangUp) ∧
      (directory.without order.contains).roomCount + departures.countP Departure.vacated =
        directory.roomCount := by
  -- What the first removal leaves is intact again, and the others are still in it.
  induction order generalizing directory with
  | nil =>
    have hnobody : ([] : List ClientId).contains = fun _ => false := rfl
    rw [hnobody, without_none]
    exact ⟨[], rfl, rfl, rfl⟩
  | cons id ids ih =>
    obtain ⟨hid, hnodup⟩ := List.nodup_cons.1 hnodup
    obtain ⟨occupant, hoccupant⟩ := Maps.mem_iff_exists.1 (hregistered id List.mem_cons_self)
    obtain ⟨room, hroom⟩ := h.room_getElem? hoccupant
    have hremove := h.remove_eq_without hoccupant hroom
    have hothers : ∀ other ∈ ids, (directory.without (· == id)).occupants[other]? =
        directory.occupants[other]? := by
      intro other hother
      rw [getElem?_occupants_without, if_neg]
      rintro heq
      exact hid (beq_iff_eq.1 heq ▸ hother)
    obtain ⟨departures, hrest, hwho, hcount⟩ := ih (h.remove hremove) hnodup fun other hother => by
      rw [Maps.mem_iff_exists, hothers other hother, ← Maps.mem_iff_exists]
      exact hregistered other (List.mem_cons_of_mem id hother)
    rw [without_without] at hrest hcount
    have hgone : (id :: ids).contains = fun other => other == id || ids.contains other := by
      funext other
      rw [List.contains_cons]
    rw [hgone]
    let departure : Departure :=
      { occupant := occupant.hangUp, vacated := (room.remove id).isDeserted }
    refine ⟨departure :: departures, ?_, ?_, ?_⟩
    · rw [removeAll, hremove]
      dsimp only
      rw [hrest]
      rfl
    · rw [List.map_cons, List.map_cons, hwho, hoccupant]
      congr 1
      apply List.map_congr_left
      intro other hother
      rw [hothers other hother]
    · obtain ⟨-, hsize⟩ := h.size_of_remove hremove
      have hflag : (if departure.vacated then 1 else 0) = departure.vacated.toNat := by
        cases departure.vacated <;> rfl
      rw [List.countP_cons, hflag, ← hsize, ← hcount, Nat.add_assoc]

/-- A room stays for what it is, for who is still in it, or for not having been in use. -/
theorem outlives_iff (h : directory.Intact) (hroom : directory.rooms[name]? = some room) :
    room.outlives gone = true ↔ name = directory.defaultRoom ∨
      (∃ id, gone id = false ∧ directory.roomOf? id = some name) ∨
        directory.isVacant name = true := by
  have hvacant : directory.isVacant name = room.isEmpty := by rw [isVacant, hroom, Option.any_some]
  rw [Room.outlives_iff, h.housed.isDefault_iff hroom, hvacant, or_comm (a := room.isEmpty = true)]
  simp only [h.housed.mem_members hroom, and_comm]

theorem mem_rooms_without (h : directory.Intact) : name ∈ (directory.without gone).rooms ↔
    name = directory.defaultRoom ∨ (∃ id, gone id = false ∧ directory.roomOf? id = some name) ∨
      directory.isVacant name = true := by
  rw [Maps.mem_iff_exists, getElem?_rooms_without]
  constructor
  · rintro ⟨left, hleft⟩
    obtain ⟨room, hroom, hremnant⟩ := Option.bind_eq_some_iff.1 hleft
    obtain ⟨hstays, -⟩ := Option.ite_none_right_eq_some.1 hremnant
    exact (h.outlives_iff hroom).1 hstays
  · intro hreason
    have hmem : name ∈ directory.rooms := by
      obtain rfl | ⟨id, -, hplace⟩ | hvacant := hreason
      · exact h.housed.defaultRoom_mem
      · exact h.housed.mem_of_place hplace
      · exact (h.isVacant_iff.1 hvacant).1
    obtain ⟨room, hroom⟩ := Maps.mem_iff_exists.1 hmem
    rw [hroom, Option.bind_some, Room.remnant?, if_pos ((h.outlives_iff hroom).2 hreason)]
    exact ⟨_, rfl⟩

theorem ridOf_without (h : directory.Intact) (ids : List ClientId) :
    directory.RidOf ids (directory.without ids.contains) where
  defaultRoom := rfl
  maxRooms := rfl
  occupants id := by simp [getElem?_occupants_without]
  nicknames nickname id := by
    rw [getElem?_nicknames_without, Option.filter_eq_some_iff]
    simp
  mem_rooms name := by
    rw [h.mem_rooms_without]
    simp
  members {name left} hleft := by
    rw [getElem?_rooms_without] at hleft
    obtain ⟨room, hroom, hremnant⟩ := Option.bind_eq_some_iff.1 hleft
    obtain ⟨-, hleft⟩ := Option.ite_none_right_eq_some.1 hremnant
    obtain rfl := Option.some.inj hleft
    exact ⟨room, hroom, rfl, rfl, fun id => by simp [Room.mem_members_without]⟩

theorem nobody_left (h : directory.Intact) {ids : List ClientId} {after : Directory}
    (hrid : directory.RidOf ids after) (hall : ∀ id ∈ directory.occupants, id ∈ ids) :
    after.occupants = ∅ ∧ after.nicknames = ∅ ∧
      ∀ name, name ∈ after.rooms ↔ name = directory.defaultRoom ∨ directory.isVacant name = true := by
  have hplaced : ∀ {α : Type} (f : Occupant → α) (id : ClientId) (a : α), id ∉ ids →
      directory.occupants[id]?.map f ≠ some a := by
    intro α f id a hid hsome
    obtain ⟨occupant, hoccupant, -⟩ := Option.map_eq_some_iff.1 hsome
    exact hid (hall id (Maps.mem_of_getElem? hoccupant))
  refine ⟨?_, ?_, fun name => ?_⟩
  · apply ExtTreeMap.ext_getElem?
    intro id
    rw [hrid.occupants, ExtTreeMap.getElem?_empty]
    split
    next => rfl
    next hid => exact ExtTreeMap.getElem?_eq_none (mt (hall id) hid)
  · apply ExtTreeMap.ext_getElem?
    intro nickname
    rw [ExtTreeMap.getElem?_empty, Option.eq_none_iff_forall_ne_some]
    intro id hfound
    obtain ⟨hbefore, hid⟩ := (hrid.nicknames nickname id).1 hfound
    exact hplaced _ id nickname hid ((h.indexed nickname id).1 hbefore)
  · rw [hrid.mem_rooms]
    apply or_congr_right
    rw [or_iff_right]
    rintro ⟨id, hid, hplace⟩
    exact hplaced _ id name hid hplace

/-- In whichever order the clients go, the same is left, and the same number of them take a room along. -/
theorem removeAll_perm (h : directory.Intact) {ids : List ClientId} (hnodup : ids.Nodup)
    (hregistered : ∀ id ∈ ids, id ∈ directory.occupants) :
    ∃ after, directory.RidOf ids after ∧
      (∀ order : List ClientId, order.Perm ids → ∃ departures,
        directory.removeAll order = .ok (after, departures) ∧
        departures.map (fun departure => some departure.occupant) =
          order.map (fun id => directory.occupants[id]?.map Occupant.hangUp) ∧
        departures.countP Departure.vacated =
          (directory.rooms.keys.filter (· ∉ after.rooms)).length) ∧
      ((∀ id ∈ directory.occupants, id ∈ ids) →
        after.occupants = ∅ ∧ after.nicknames = ∅ ∧
        ∀ name, name ∈ after.rooms ↔ name = directory.defaultRoom ∨ directory.isVacant name = true) := by
  have hrid := h.ridOf_without ids
  refine ⟨directory.without ids.contains, hrid, fun order hperm => ?_, h.nobody_left hrid⟩
  -- The order enters only by who is in it.
  have hgone : order.contains = ids.contains := by
    funext id
    rw [Bool.eq_iff_iff, List.contains_iff_mem, List.contains_iff_mem, hperm.mem_iff]
  obtain ⟨departures, hrun, hwho, hcount⟩ := h.removeAll_eq (hperm.nodup_iff.2 hnodup)
    fun id hmem => hregistered id (hperm.mem_iff.1 hmem)
  rw [hgone] at hrun hcount
  have hsubset : ∀ name ∈ (directory.without ids.contains).rooms, name ∈ directory.rooms := by
    intro name hname
    obtain ⟨room, hroom⟩ := Maps.mem_iff_exists.1 hname
    obtain ⟨found, hfound, -⟩ := hrid.members hroom
    exact Maps.mem_of_getElem? hfound
  have hsize := Maps.size_add_length_filter hsubset
  refine ⟨departures, hrun, hwho, ?_⟩
  rw [roomCount, roomCount] at hcount
  omega

end Intact

/-- Bob and Eve are taken from their room. Whoever goes last takes it along, and the room that nobody was
in stays. -/
theorem removeAll_perm_two_ways :
    let general : RoomName := ⟨"general", by decide⟩
    let dev : RoomName := ⟨"dev", by decide⟩
    let ops : RoomName := ⟨"ops", by decide⟩
    let directory := (((((((new general 3).step (.register 1 "ann" none)).1.step
      (.register 2 "bob" none)).1.step (.register 3 "eve" none)).1.step (.move 2 dev true)).1.step
      (.move 3 dev false)).1.step (.addRoom ops)).1
    let flags (departures : List Departure) :=
      departures.map fun departure => (departure.occupant.nickname, departure.vacated)
    ∃ after bobFirst eveFirst, directory.removeAll [2, 3] = .ok (after, bobFirst) ∧
      flags bobFirst = [("bob", false), ("eve", true)] ∧
      directory.removeAll [3, 2] = .ok (after, eveFirst) ∧
      flags eveFirst = [("eve", false), ("bob", true)] ∧ after.rooms.keys = [general, ops] := by
  intro general dev ops directory flags
  have hreached : Reached general 3 directory :=
    .step (.step (.step (.step (.step (.step .new (by show 1 ∉ _; decide)) (by show 2 ∉ _; decide))
      (by show 3 ∉ _; decide)) trivial) trivial) trivial
  have hregistered : ∀ id ∈ ([2, 3] : List ClientId), id ∈ directory.occupants := by decide
  obtain ⟨after, -, hruns, -⟩ := hreached.intact.removeAll_perm (by decide) hregistered
  obtain ⟨bobFirst, hbob, -⟩ := hruns [2, 3] (.refl _)
  obtain ⟨eveFirst, heve, -⟩ := hruns [3, 2] (.swap _ _ _)
  have hbobFlags : (directory.removeAll [2, 3]).toOption.map (fun run => flags run.2) =
      some [("bob", false), ("eve", true)] := by decide
  have heveFlags : (directory.removeAll [3, 2]).toOption.map (fun run => flags run.2) =
      some [("eve", false), ("bob", true)] := by decide
  have hrooms : (directory.removeAll [2, 3]).toOption.map (fun run => run.1.rooms.keys) =
      some [general, ops] := by decide
  rw [hbob] at hbobFlags hrooms
  rw [heve] at heveFlags
  exact ⟨after, bobFirst, eveFirst, hbob, Option.some.inj hbobFlags, heve, Option.some.inj heveFlags,
    Option.some.inj hrooms⟩

end ChatRooms.Directory
