import ChatRooms.Proofs.Directory.Operation

namespace ChatRooms.Directory

open Std

/-- The client's room goes with it: nobody else is in there, and it is not the default one. -/
def IsAlone (directory : Directory) (client : Occupant) : Prop :=
  client.room ≠ directory.defaultRoom ∧ directory.members client.room = [client]

instance (directory : Directory) (client : Occupant) : Decidable (directory.IsAlone client) :=
  inferInstanceAs (Decidable (_ ∧ _))

/-- How many rooms there are when the client has gone from its room to a new one. -/
def roomCountAfter (directory : Directory) (client : Occupant) : Nat :=
  if directory.IsAlone client then directory.roomCount else directory.roomCount + 1

/-- The limit is the same as before, and has been kept if it was kept before. -/
structure Observes (after before : Directory) : Prop where
  maxRooms : after.maxRooms = before.maxRooms
  roomCount : before.roomCount ≤ before.maxRooms → after.roomCount ≤ before.maxRooms

variable {directory directory' : Directory} {id : ClientId} {client : Occupant}
  {name target origin : RoomName} {nickname old : String} {peer : Option SocketAddress}
  {create created vacated : Bool} {room : Room} {defaultRoom : RoomName} {maxRooms : Nat}

theorem addRoom_eq_of_absent (habsent : directory.hasRoom name = false) :
    directory.addRoom name =
      if directory.maxRooms ≤ directory.roomCount then .error (.tooManyRooms directory.maxRooms)
      else .ok { directory with rooms := directory.rooms.insert name { name } } := by
  rw [addRoom, habsent]
  rfl

theorem size_insert_of_absent (habsent : directory.hasRoom name = false) :
    (directory.rooms.insert name room).size = directory.roomCount + 1 := by
  rw [ExtTreeMap.size_insert, if_neg (by rw [← hasRoom, habsent]; exact Bool.false_ne_true), roomCount]

theorem mem_vacated (hmem : name ∈ directory.rooms) (removed : Bool) (other : RoomName) :
    other ∈ (if removed then directory.rooms.erase name else directory.rooms.insert name room) ↔
      other ∈ directory.rooms ∧ ¬(removed = true ∧ other = name) := by
  cases removed with
  | true =>
    simp only [if_true, ExtTreeMap.mem_erase, ne_eq, Std.compare_eq_iff_eq, true_and]
    rw [and_comm, eq_comm]
  | false =>
    simp only [Bool.false_eq_true, if_false, ExtTreeMap.mem_insert, Std.compare_eq_iff_eq, false_and,
      not_false_eq_true, and_true, or_iff_right_iff_imp]
    rintro rfl
    exact hmem

theorem size_vacated (hmem : name ∈ directory.rooms) (removed : Bool) :
    (if removed then directory.rooms.erase name else directory.rooms.insert name room).size +
      removed.toNat = directory.rooms.size := by
  cases removed with
  | true =>
    have hpos : directory.rooms.size ≠ 0 := by
      rw [ne_eq, ← ExtTreeMap.eq_empty_iff_size_eq_zero]
      rintro hempty
      simp [hempty] at hmem
    rw [if_pos rfl, ExtTreeMap.size_erase, if_pos (ExtTreeMap.contains_iff_mem.2 hmem), Bool.toNat_true]
    omega
  | false => simp [ExtTreeMap.size_insert, hmem]

namespace Intact

theorem freesItsRoom_iff (h : directory.Intact) (hid : directory.occupants[id]? = some client) :
    directory.freesItsRoom client.room = true ↔ directory.IsAlone client := by
  obtain ⟨room, hroom⟩ := h.room_getElem? hid
  obtain rfl := h.occupant_id hid
  have hmem : client ∈ directory.members client.room := by
    rw [h.members_eq, h.mem_roll_members]
    exact ⟨hid, rfl⟩
  have halone : (directory.members client.room).length = 1 ↔
      directory.members client.room = [client] := by
    rw [List.length_eq_one_iff]
    constructor
    · rintro ⟨other, hother⟩
      rw [hother, List.mem_singleton] at hmem
      rw [hother, hmem]
    · exact fun hsingle => ⟨client, hsingle⟩
  rw [freesItsRoom, hroom, Option.any_some, Bool.and_eq_true, bne_iff_ne, beq_iff_eq,
    h.size_eq hroom, ← h.members_eq, halone, IsAlone]

theorem isDeserted_iff (h : directory.Intact) (hid : directory.occupants[id]? = some client)
    (hroom : directory.rooms[client.room]? = some room) :
    (room.remove id).isDeserted = directory.freesItsRoom client.room := by
  rw [h.isDeserted_eq hroom, h.freesItsRoom_eq hid]

theorem vacate_eq (h : directory.Intact) (hid : directory.occupants[id]? = some client) :
    ∃ after, directory.vacate id client.room = .ok (after, directory.freesItsRoom client.room) ∧
      ∀ name, name ∈ after.rooms ↔ name ∈ directory.rooms ∧
        ¬(directory.freesItsRoom client.room = true ∧ name = client.room) := by
  obtain ⟨room, hroom⟩ := h.room_getElem? hid
  rw [vacate_of_getElem? hroom, h.isDeserted_iff hid hroom]
  exact ⟨_, rfl, mem_vacated (Maps.mem_of_getElem? hroom) _⟩

theorem ne_of_absent (h : directory.Intact) (hid : directory.occupants[id]? = some client)
    (habsent : directory.hasRoom target = false) : client.room ≠ target := by
  obtain ⟨room, hroom⟩ := h.room_getElem? hid
  rintro rfl
  rw [hasRoom_iff.2 (Maps.mem_of_getElem? hroom)] at habsent
  cases habsent

theorem size_roomsAfterMove (h : directory.Intact) (hid : directory.occupants[id]? = some client)
    (hroom : directory.rooms[client.room]? = some room) (hne : client.room ≠ target) :
    (directory.roomsAfterMove client room target).size +
      (directory.freesItsRoom client.room).toNat =
        directory.roomCount + (!directory.hasRoom target).toNat := by
  have hmem := Maps.mem_of_getElem? hroom
  obtain rfl := h.occupant_id hid
  rw [roomsAfterMove, h.isDeserted_iff hid hroom, roomCount]
  have hsize := @size_vacated directory client.room (room.remove client.id) hmem
    (directory.freesItsRoom client.room)
  have htarget : (if directory.freesItsRoom client.room then
      directory.rooms.erase client.room
      else directory.rooms.insert client.room (room.remove client.id)).contains target = true ↔
        directory.hasRoom target = true := by
    rw [ExtTreeMap.contains_iff_mem, mem_vacated hmem, hasRoom_iff]
    exact and_iff_left fun hgone => hne hgone.2.symm
  rw [ExtTreeMap.size_insert]
  simp only [htarget]
  cases directory.hasRoom target with
  | true =>
    simp only [if_true, Bool.not_true, Bool.toNat_false, Nat.add_zero]
    exact hsize
  | false =>
    simp only [Bool.false_eq_true, if_false, Bool.not_false, Bool.toNat_true]
    omega

theorem mem_roomsAfterMove (h : directory.Intact) (hid : directory.occupants[id]? = some client)
    (hroom : directory.rooms[client.room]? = some room) :
    name ∈ directory.roomsAfterMove client room target ↔
      name = target ∨ name ∈ directory.rooms ∧ ¬(directory.IsAlone client ∧ name = client.room) := by
  obtain rfl := h.occupant_id hid
  rw [roomsAfterMove, ExtTreeMap.mem_insert, Std.compare_eq_iff_eq, h.isDeserted_iff hid hroom,
    mem_vacated (Maps.mem_of_getElem? hroom), h.freesItsRoom_iff hid, eq_comm]

/-- A move to a room that does not exist is refused when there would be too many. -/
theorem move_eq_of_absent (h : directory.Intact) (hid : directory.occupants[id]? = some client)
    (hroom : directory.rooms[client.room]? = some room) (habsent : directory.hasRoom target = false) :
    directory.move id target true =
      if directory.maxRooms ≤ directory.roomCount ∧ ¬directory.IsAlone client then
        .error (.refused (.tooManyRooms directory.maxRooms))
      else .ok ({ directory with
        rooms := directory.roomsAfterMove client room target
        occupants := directory.occupants.insert id { client with room := target } },
        .moved client.room target true (directory.freesItsRoom client.room)) := by
  rw [move_eq h hid hroom (h.ne_of_absent hid habsent), habsent, h.isDeserted_iff hid hroom, mayCreate]
  simp only [Bool.false_eq_true, if_false, Bool.not_true, Bool.not_eq_true', ← Bool.not_eq_true,
    h.freesItsRoom_iff hid]
  by_cases hfull : directory.maxRooms ≤ directory.roomCount ∧ ¬directory.IsAlone client
  · rw [if_pos hfull, if_pos hfull]
  · rw [if_neg hfull, if_neg hfull]
    rfl

theorem lt_roomCountAfter_iff (hle : directory.roomCount ≤ directory.maxRooms) :
    directory.maxRooms < directory.roomCountAfter client ↔
      directory.maxRooms ≤ directory.roomCount ∧ ¬directory.IsAlone client := by
  by_cases halone : directory.IsAlone client
  · simp only [roomCountAfter, halone, if_true, not_true, and_false, iff_false]
    omega
  · simp only [roomCountAfter, halone, if_false, not_false_eq_true, and_true]
    omega

theorem size_roomsAfterMove_of_absent (h : directory.Intact)
    (hid : directory.occupants[id]? = some client)
    (hroom : directory.rooms[client.room]? = some room) (habsent : directory.hasRoom target = false)
    (hne : client.room ≠ target) :
    (directory.roomsAfterMove client room target).size = directory.roomCountAfter client := by
  have hsize := h.size_roomsAfterMove hid hroom hne
  have hfrees := h.freesItsRoom_iff hid
  rw [habsent, Bool.not_false, Bool.toNat_true] at hsize
  unfold roomCountAfter
  split
  next halone =>
    rw [hfrees.2 halone, Bool.toNat_true] at hsize
    exact Nat.succ.inj hsize
  next hkept =>
    rw [Bool.eq_false_iff.2 (mt hfrees.1 hkept), Bool.toNat_false] at hsize
    exact hsize

/-- Whether a client gets its new room depends on how many rooms there would then be. -/
theorem move_absent (h : directory.Intact) (hid : directory.occupants[id]? = some client)
    (hle : directory.roomCount ≤ directory.maxRooms) (habsent : directory.hasRoom target = false) :
    (directory.move id target true = .error (.refused (.tooManyRooms directory.maxRooms)) ↔
      directory.maxRooms < directory.roomCountAfter client) ∧
    (directory.roomCountAfter client ≤ directory.maxRooms → ∃ after,
      directory.move id target true =
        .ok (after, .moved client.room target true (directory.IsAlone client)) ∧
      after.roomCount = directory.roomCountAfter client ∧
      ∀ name, name ∈ after.rooms ↔ name = target ∨
        name ∈ directory.rooms ∧ ¬(directory.IsAlone client ∧ name = client.room)) := by
  obtain ⟨room, hroom⟩ := h.room_getElem? hid
  have hfrees : directory.freesItsRoom client.room = decide (directory.IsAlone client) :=
    Bool.eq_iff_iff.2 ((h.freesItsRoom_iff hid).trans decide_eq_true_iff.symm)
  rw [← Nat.not_lt, lt_roomCountAfter_iff hle, h.move_eq_of_absent hid hroom habsent, hfrees]
  split
  next hfull => exact ⟨iff_of_true rfl hfull, fun hfits => absurd hfull hfits⟩
  next hfits =>
    refine ⟨iff_of_false (by rintro ⟨⟩) hfits, fun _ => ⟨_, rfl, ?_, fun name => ?_⟩⟩
    · exact h.size_roomsAfterMove_of_absent hid hroom habsent (h.ne_of_absent hid habsent)
    · exact h.mem_roomsAfterMove hid hroom

theorem size_of_move (h : directory.Intact)
    (hmove : directory.move id target create =
      .ok (directory', .moved origin target created vacated)) :
    directory'.maxRooms = directory.maxRooms ∧
      directory'.roomCount + vacated.toNat = directory.roomCount + created.toNat ∧
      (created = true → directory.maxRooms ≤ directory.roomCount → vacated = true) := by
  obtain ⟨client, hid, rfl, -, hne, -⟩ := h.occupants_of_move hmove
  obtain ⟨room, hroom⟩ := h.room_getElem? hid
  have hsize := h.size_roomsAfterMove hid hroom hne
  rw [move_eq h hid hroom hne, h.isDeserted_iff hid hroom] at hmove
  split at hmove
  next => cases hmove
  next hmay =>
    obtain ⟨rfl, hmoved⟩ := Prod.mk.inj (Except.ok.inj hmove)
    obtain ⟨-, -, rfl, rfl⟩ := Move.moved.inj hmoved
    refine ⟨rfl, hsize, fun hcreated hfull => ?_⟩
    -- Otherwise there would have been a refusal.
    by_contra hkept
    rw [Bool.not_eq_true'] at hcreated
    simp [hcreated, mayCreate, hfull, hkept] at hmay
    split at hmay <;> cases hmay

theorem size_of_remove (h : directory.Intact) {departure : Departure}
    (hremove : directory.remove id = .ok (directory', some departure)) :
    directory'.maxRooms = directory.maxRooms ∧
      directory'.roomCount + departure.vacated.toNat = directory.roomCount := by
  obtain ⟨client, hid, -⟩ := h.occupants_of_remove hremove
  obtain ⟨room, hroom⟩ := h.room_getElem? hid
  rw [remove_eq hid hroom] at hremove
  obtain ⟨rfl, hdeparture⟩ := Prod.mk.inj (Except.ok.inj hremove)
  obtain rfl := Option.some.inj hdeparture
  exact ⟨rfl, size_vacated (Maps.mem_of_getElem? hroom) _⟩

end Intact

namespace Observes

theorem of_eq (hmax : directory'.maxRooms = directory.maxRooms)
    (hcount : directory'.roomCount ≤ directory.roomCount) : directory'.Observes directory :=
  ⟨hmax, fun hle => hcount.trans hle⟩

theorem refl (directory : Directory) : directory.Observes directory :=
  of_eq rfl (Nat.le_refl _)

theorem register (h : directory.Intact) (hregister : directory.register id nickname peer = .ok directory') :
    directory'.Observes directory := by
  obtain ⟨room, hroom⟩ := h.defaultRoom_getElem?
  rw [register_eq hroom] at hregister
  split at hregister
  next => cases hregister
  next =>
    obtain rfl := Except.ok.inj hregister
    refine of_eq rfl (Nat.le_of_eq ?_)
    rw [Directory.roomCount, ExtTreeMap.size_insert,
      if_pos (ExtTreeMap.contains_iff_mem.2 h.housed.defaultRoom_mem), Directory.roomCount]

theorem addRoom (hadd : directory.addRoom name = .ok directory') : directory'.Observes directory := by
  cases habsent : directory.hasRoom name with
  | true => simp [Directory.addRoom, habsent] at hadd
  | false =>
    rw [addRoom_eq_of_absent habsent] at hadd
    split at hadd
    next => cases hadd
    next hplace =>
      obtain rfl := Except.ok.inj hadd
      refine ⟨rfl, fun _ => ?_⟩
      rw [Directory.roomCount, size_insert_of_absent habsent]
      omega

theorem removeRoom (hremove : directory.removeRoom name = .ok directory') :
    directory'.Observes directory := by
  unfold Directory.removeRoom at hremove
  split at hremove
  next => cases hremove
  next =>
    split at hremove
    next => cases hremove
    next =>
      split at hremove
      next =>
        obtain rfl := Except.ok.inj hremove
        exact of_eq rfl ExtTreeMap.size_erase_le
      next => cases hremove

theorem move (h : directory.Intact) {move : Move}
    (hmove : directory.move id target create = .ok (directory', move)) :
    directory'.Observes directory := by
  cases move with
  | unchanged =>
    obtain rfl := eq_of_move_unchanged hmove
    exact refl directory'
  | moved origin destination created vacated =>
    obtain ⟨-, -, -, rfl, -⟩ := h.occupants_of_move hmove
    obtain ⟨hmax, hsize, hplace⟩ := h.size_of_move hmove
    refine ⟨hmax, fun hle => ?_⟩
    cases created with
    | false => simp only [Bool.toNat_false] at hsize; omega
    | true =>
      by_cases hfull : directory.maxRooms ≤ directory.roomCount
      · rw [hplace rfl hfull] at hsize
        simp only [Bool.toNat_true] at hsize
        omega
      · simp only [Bool.toNat_true] at hsize
        omega

theorem remove (h : directory.Intact) {departure : Option Departure}
    (hremove : directory.remove id = .ok (directory', departure)) :
    directory'.Observes directory := by
  cases departure with
  | none =>
    obtain ⟨rfl, -⟩ := eq_of_remove_none hremove
    exact refl directory'
  | some departure =>
    obtain ⟨hmax, hsize⟩ := h.size_of_remove hremove
    exact of_eq hmax (by omega)

theorem rename (hrename : directory.rename id nickname = .ok (directory', old)) :
    directory'.Observes directory := by
  unfold Directory.rename at hrename
  split at hrename
  next => cases hrename
  next =>
    split at hrename
    next => cases hrename
    next =>
      obtain ⟨rfl, -⟩ := Prod.mk.inj (Except.ok.inj hrename)
      exact of_eq rfl (Nat.le_refl _)

theorem hangUp (hquit : directory.hangUp id = .ok directory') : directory'.Observes directory := by
  unfold Directory.hangUp amend at hquit
  split at hquit
  next => cases hquit
  next =>
    obtain rfl := Except.ok.inj hquit
    exact of_eq rfl (Nat.le_refl _)

end Observes

theorem Intact.observes_step (h : directory.Intact) (operation : Operation) :
    (directory.step operation).1.Observes directory := by
  apply conclude_fst (P := fun after => after.Observes directory) (.refl directory)
  intro after reply hperform
  cases operation with
  | register id nickname peer =>
    rw [Directory.perform] at hperform
    cases hregister : directory.register id nickname peer with
    | error refusal => simp [hregister] at hperform
    | ok found =>
      simp only [hregister, occupant_of_register hregister, Except.ok.injEq,
        Prod.mk.injEq] at hperform
      exact hperform.1 ▸ .register h hregister
  | addRoom room => exact .addRoom (silent_eq_ok hperform)
  | removeRoom room => exact .removeRoom (silent_eq_ok hperform)
  | move id target create =>
    obtain ⟨move, hmove⟩ := answering_eq_ok hperform
    exact .move h hmove
  | rename id nickname =>
    obtain ⟨old, hrename⟩ := answering_eq_ok hperform
    exact .rename hrename
  | remove id =>
    obtain ⟨departure, hremove⟩ := answering_eq_ok hperform
    exact .remove h hremove
  | hangUp id => exact .hangUp (silent_eq_ok hperform)
  | findByNickname | isTaken | hasRoom | members | nicknamesIn | roomSummaries | size | roomCount =>
    cases hperform
    exact .refl directory

theorem Reached.roomCount_le (h : Reached defaultRoom maxRooms directory) (hpos : 1 ≤ maxRooms) :
    directory.maxRooms = maxRooms ∧ directory.roomCount ≤ maxRooms := by
  induction h with
  | new =>
    refine ⟨rfl, ?_⟩
    rw [roomCount, Directory.new, ExtTreeMap.size_insert]
    simpa using hpos
  | @step directory operation before _ ih =>
    obtain ⟨rfl, hle⟩ := ih
    have hobserves := before.intact.observes_step operation
    exact ⟨hobserves.maxRooms, hobserves.roomCount hle⟩

/-- There are never more rooms than allowed. A new one is refused exactly if there would then be too
many of them, counting that the room that a client leaves may go; and that is the room that goes. -/
theorem Reached.room_limit (h : Reached defaultRoom maxRooms directory) (hpos : 1 ≤ maxRooms) :
    directory.roomCount ≤ maxRooms ∧
    (∀ room, directory.hasRoom room = false →
      (directory.addRoom room = .error (.tooManyRooms maxRooms) ↔ directory.roomCount = maxRooms) ∧
      (directory.roomCount < maxRooms → ∃ after, directory.addRoom room = .ok after ∧
        after.roomCount = directory.roomCount + 1)) ∧
    ∀ id client, directory.occupants[id]? = some client →
      (∃ after, directory.vacate id client.room = .ok (after, directory.freesItsRoom client.room) ∧
        ∀ name, name ∈ after.rooms ↔ name ∈ directory.rooms ∧
          ¬(directory.freesItsRoom client.room = true ∧ name = client.room)) ∧
      ∀ target, directory.hasRoom target = false →
        (directory.move id target true = .error (.refused (.tooManyRooms maxRooms)) ↔
          maxRooms < directory.roomCountAfter client) ∧
        (directory.roomCountAfter client ≤ maxRooms → ∃ after,
          directory.move id target true = .ok (after, .moved client.room target true
            (directory.IsAlone client)) ∧
          after.roomCount = directory.roomCountAfter client ∧
          ∀ name, name ∈ after.rooms ↔ name = target ∨
            name ∈ directory.rooms ∧ ¬(directory.IsAlone client ∧ name = client.room)) := by
  obtain ⟨rfl, hle⟩ := h.roomCount_le hpos
  have hintact := h.intact
  refine ⟨hle, fun room habsent => ?_, fun id client hid =>
    ⟨hintact.vacate_eq hid, fun target habsent => ?_⟩⟩
  · rw [addRoom_eq_of_absent habsent]
    by_cases hfull : directory.maxRooms ≤ directory.roomCount
    · rw [if_pos hfull]
      exact ⟨iff_of_true rfl (hle.antisymm hfull), fun hfits => absurd hfits (by omega)⟩
    · rw [if_neg hfull]
      refine ⟨iff_of_false (by rintro ⟨⟩) (by omega), fun _ => ⟨_, rfl, ?_⟩⟩
      exact size_insert_of_absent habsent
  · exact hintact.move_absent hid hle habsent

/-- Two rooms are allowed, and Bob is alone in one of them. He may found another, Ann may not. -/
theorem room_limit_makes_way :
    let general : RoomName := ⟨"general", by decide⟩
    let dev : RoomName := ⟨"dev", by decide⟩
    let ops : RoomName := ⟨"ops", by decide⟩
    let directory := ((((new general 2).step (.register 1 "ann" none)).1.step
      (.register 2 "bob" none)).1.step (.move 2 dev true)).1
    directory.roomCount = 2 ∧ directory.addRoom ops = .error (.tooManyRooms 2) ∧
      directory.move 1 ops true = .error (.refused (.tooManyRooms 2)) ∧
      ∃ after, directory.move 2 ops true = .ok (after, .moved dev ops true true) ∧
        after.roomCount = 2 := by
  intro general dev ops directory
  have hreached : Reached general 2 directory :=
    .step (.step (.step .new (by show 1 ∉ _; decide)) (by show 2 ∉ _; decide)) trivial
  let ann : Occupant := { id := 1, nickname := "ann", room := general, presence := .active }
  let bob : Occupant := { id := 2, nickname := "bob", room := dev, presence := .active }
  have hann : directory.occupants[(1 : ClientId)]? = some ann := by decide
  have hbob : directory.occupants[(2 : ClientId)]? = some bob := by decide
  have habsent : directory.hasRoom ops = false := by decide
  have hfull : directory.roomCount = 2 := by decide
  have hcrowd : 2 < directory.roomCountAfter ann := by decide
  have hplace : directory.roomCountAfter bob = 2 := by decide
  have halone : directory.IsAlone bob := by decide
  obtain ⟨-, hadd, hmove⟩ := hreached.room_limit (by decide)
  obtain ⟨after, hmoved, hcount, -⟩ := ((hmove 2 bob hbob).2 ops habsent).2 (Nat.le_of_eq hplace)
  rw [decide_eq_true halone] at hmoved
  exact ⟨hfull, (hadd ops habsent).1.2 hfull, ((hmove 1 ann hann).2 ops habsent).1.2 hcrowd, after,
    hmoved, hcount.trans hplace⟩

end ChatRooms.Directory
