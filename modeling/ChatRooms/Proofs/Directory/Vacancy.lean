import ChatRooms.Proofs.Directory.RoomLimit

namespace ChatRooms.Directory

open Std Function

def isVacant (directory : Directory) (name : RoomName) : Bool :=
  directory.rooms[name]?.any Room.isEmpty

def IsLastIn (directory : Directory) (id : ClientId) (name : RoomName) : Prop :=
  ∀ other, directory.roomOf? other = some name ↔ other = id

/-- How the rooms have changed: nothing but `founded` has become vacant, and nothing but `gone` has
gone. -/
structure Rehouses (before after : Directory) (founded gone : Option RoomName) : Prop where
  defaultRoom : after.defaultRoom = before.defaultRoom
  vacant {name : RoomName} : name ≠ before.defaultRoom → after.isVacant name = true →
    before.isVacant name = true ∨ founded = some name
  not_mem {name : RoomName} : name ∈ before.rooms → (name ∉ after.rooms ↔ gone = some name)

variable {directory directory' : Directory} {id : ClientId} {occupant : Occupant}
  {name target origin : RoomName} {nickname old : String} {peer : Option SocketAddress}
  {create created vacated : Bool} {departure : Departure}

theorem roomOf?_of_insert (h : directory'.occupants = directory.occupants.insert id occupant) :
    directory'.roomOf? = update directory.roomOf? id (some occupant.room) := by
  unfold roomOf?
  rw [h, map_getElem?_insert]

theorem roomOf?_of_erase (h : directory'.occupants = directory.occupants.erase id) :
    directory'.roomOf? = update directory.roomOf? id none := by
  unfold roomOf?
  rw [h, map_getElem?_erase]

theorem Intact.isVacant_iff (h : directory.Intact) :
    directory.isVacant name = true ↔ name ∈ directory.rooms ∧ ∀ id, directory.roomOf? id ≠ some name := by
  rw [isVacant, Option.any_eq_true, Maps.mem_iff_exists]
  constructor
  · rintro ⟨room, hroom, hempty⟩
    refine ⟨⟨room, hroom⟩, fun id hid => ?_⟩
    rw [← h.housed.mem_members hroom, ExtTreeSet.isEmpty_iff.1 hempty] at hid
    exact ExtTreeSet.not_mem_empty hid
  · rintro ⟨⟨room, hroom⟩, hnobody⟩
    refine ⟨room, hroom, ?_⟩
    rw [Room.isEmpty, ExtTreeSet.isEmpty_iff, ExtTreeSet.eq_empty_iff_forall_not_mem]
    exact fun id hid => hnobody id ((h.housed.mem_members hroom id).1 hid)

theorem Intact.exists_roomOf?_of_not_isVacant (h : directory.Intact) (hmem : name ∈ directory.rooms)
    (hvacant : directory.isVacant name ≠ true) : ∃ id, directory.roomOf? id = some name := by
  by_contra hnobody
  exact hvacant (h.isVacant_iff.2 ⟨hmem, not_exists.1 hnobody⟩)

namespace Rehouses

theorem refl (directory : Directory) : directory.Rehouses directory none none where
  defaultRoom := rfl
  vacant _ hvacant := Or.inl hvacant
  not_mem hmem := iff_of_false (not_not_intro hmem) nofun

theorem of_eq (h : directory.Intact) (h' : directory'.Intact)
    (hdefault : directory'.defaultRoom = directory.defaultRoom)
    (hrooms : ∀ name, name ∈ directory'.rooms ↔ name ∈ directory.rooms)
    (hplace : ∀ id name, name ≠ directory.defaultRoom → directory.roomOf? id = some name →
      directory'.roomOf? id = some name) : directory.Rehouses directory' none none where
  defaultRoom := hdefault
  vacant {name} hname hvacant := by
    obtain ⟨hmem, hnobody⟩ := h'.isVacant_iff.1 hvacant
    exact Or.inl (h.isVacant_iff.2
      ⟨(hrooms name).1 hmem, fun id hid => hnobody id (hplace id name hname hid)⟩)
  not_mem {name} hmem := iff_of_false (not_not_intro ((hrooms name).2 hmem)) nofun

theorem register (h : directory.Intact) (hid : id ∉ directory.occupants)
    (hregister : directory.register id nickname peer = .ok directory') :
    directory.Rehouses directory' none none := by
  have hnobody : directory.roomOf? id = none := by
    rw [roomOf?, ExtTreeMap.getElem?_eq_none hid, Option.map_none]
  obtain ⟨hdefault, hoccupants⟩ := occupants_of_register hregister
  refine of_eq h (h.register hid hregister) hdefault (fun name => ?_) fun other name _ hother => ?_
  · obtain ⟨room, hroom⟩ := h.defaultRoom_getElem?
    rw [register_eq hroom] at hregister
    split at hregister
    next => cases hregister
    next =>
      obtain rfl := Except.ok.inj hregister
      rw [ExtTreeMap.mem_insert, Std.compare_eq_iff_eq, or_iff_right_iff_imp]
      rintro rfl
      exact h.housed.defaultRoom_mem
  · have hne : other ≠ id := by
      rintro rfl
      rw [hnobody] at hother
      cases hother
    rw [roomOf?_of_insert hoccupants, update_of_ne hne, hother]

theorem addRoom (hadd : directory.addRoom name = .ok directory') :
    directory.Rehouses directory' (some name) none ∧ name ∉ directory.rooms := by
  cases habsent : directory.hasRoom name with
  | true => simp [Directory.addRoom, habsent] at hadd
  | false =>
    have hnew : name ∉ directory.rooms := fun hmem => by
      rw [hasRoom_iff.2 hmem] at habsent
      cases habsent
    rw [addRoom_eq_of_absent habsent] at hadd
    split at hadd
    next => cases hadd
    next =>
      obtain rfl := Except.ok.inj hadd
      refine ⟨⟨rfl, fun {other} _ hvacant => ?_, fun {other} hmem => ?_⟩, hnew⟩
      · by_cases hother : name = other
        · exact Or.inr (congrArg some hother)
        · rw [isVacant, Maps.getElem?_insert_of_ne hother] at hvacant
          exact Or.inl hvacant
      · refine iff_of_false (not_not_intro ?_) (by simp)
        exact ExtTreeMap.mem_insert.2 (Or.inr hmem)

theorem removeRoom (hremove : directory.removeRoom name = .ok directory') :
    directory.Rehouses directory' none (some name) ∧ name ≠ directory.defaultRoom ∧
      directory.isVacant name = true := by
  unfold Directory.removeRoom at hremove
  split at hremove
  next => cases hremove
  next hname =>
    cases hroom : directory.rooms[name]? with
    | none => simp [hroom] at hremove
    | some room =>
      rw [hroom] at hremove
      dsimp only at hremove
      split at hremove
      next hempty =>
        obtain rfl := Except.ok.inj hremove
        refine ⟨⟨rfl, fun {other} _ hvacant => ?_, fun {other} hmem => ?_⟩, hname, ?_⟩
        · rw [isVacant, ExtTreeMap.getElem?_erase] at hvacant
          split at hvacant
          next => cases hvacant
          next => exact Or.inl hvacant
        · rw [ExtTreeMap.mem_erase, ne_eq, Std.compare_eq_iff_eq, Option.some_inj]
          simp only [hmem, and_true, not_not]
        · rw [isVacant, hroom, Option.any_some, hempty]
      next => cases hremove

theorem rename (h : directory.Intact)
    (hrename : directory.rename id nickname = .ok (directory', old)) :
    directory.Rehouses directory' none none := by
  have h' := h.rename hrename
  obtain ⟨occupant, hid, -⟩ := occupants_of_rename hrename
  rw [rename_eq hid] at hrename
  split at hrename
  next => cases hrename
  next =>
    obtain ⟨rfl, -⟩ := Prod.mk.inj (Except.ok.inj hrename)
    refine of_eq h h' rfl (fun _ => Iff.rfl) fun other name _ hother => ?_
    rw [← hother]
    exact congrFun (map_getElem?_insert_of_eq Occupant.room hid (by rfl)) other

theorem hangUp (h : directory.Intact) (hhangUp : directory.hangUp id = .ok directory') :
    directory.Rehouses directory' none none := by
  have h' := h.hangUp hhangUp
  obtain ⟨occupant, hid, -⟩ := occupants_of_hangUp hhangUp
  rw [Intact.hangUp_eq hid] at hhangUp
  obtain rfl := Except.ok.inj hhangUp
  refine of_eq h h' rfl (fun _ => Iff.rfl) fun other name _ hother => ?_
  rw [← hother]
  exact congrFun (map_getElem?_insert_of_eq Occupant.room hid (by rfl)) other

theorem hangUpAll (h : directory.Intact) : directory.Rehouses directory.hangUpAll none none := by
  refine of_eq h h.hangUpAll rfl (fun _ => Iff.rfl) fun other name _ hother => ?_
  rw [← hother]
  exact congrFun (map_getElem?_hangUpAll Occupant.room fun _ => rfl) other

theorem of_leave (h : directory.Intact) (h' : directory'.Intact)
    (hdefault : directory'.defaultRoom = directory.defaultRoom)
    (hvacated : vacated = true ↔ origin ≠ directory.defaultRoom ∧
      ∀ other, directory.roomOf? other = some origin → other = id)
    (hplace : ∀ other, other ≠ id → directory'.roomOf? other = directory.roomOf? other)
    (hid : directory.roomOf? id = some origin)
    (hrooms : ∀ name, name ∈ directory'.rooms ↔ directory'.roomOf? id = some name ∨
      name ∈ directory.rooms ∧ ¬(vacated = true ∧ name = origin))
    (hleft : directory'.roomOf? id ≠ some origin) :
    directory.Rehouses directory' none (if vacated then some origin else none) where
  defaultRoom := hdefault
  vacant {name} hname hvacant := by
    obtain ⟨hmem, hnobody⟩ := h'.isVacant_iff.1 hvacant
    obtain hthere | ⟨hmem, hkept⟩ := (hrooms name).1 hmem
    · exact absurd hthere (hnobody id)
    refine Or.inl (h.isVacant_iff.2 ⟨hmem, fun other hother => ?_⟩)
    have hothers : ∀ other, directory.roomOf? other = some name → other = id := by
      intro other hother
      by_contra hne
      exact hnobody other ((hplace other hne).trans hother)
    obtain rfl := hothers other hother
    obtain rfl : name = origin := Option.some.inj (hother.symm.trans hid)
    exact hkept ⟨hvacated.2 ⟨hname, hothers⟩, rfl⟩
  not_mem {name} hmem := by
    rw [hrooms name, not_or, not_and_not_right]
    cases vacated with
    | false =>
      refine iff_of_false (fun hgone => ?_) nofun
      exact Bool.false_ne_true (hgone.2 hmem).1
    | true =>
      rw [if_pos rfl, Option.some_inj]
      constructor
      · exact fun hgone => (hgone.2 hmem).2.symm
      · rintro rfl
        exact ⟨hleft, fun _ => ⟨rfl, rfl⟩⟩

theorem isLastIn_of_vacated (hvacated : vacated = true ↔ origin ≠ directory.defaultRoom ∧
      ∀ other, directory.roomOf? other = some origin → other = id)
    (hid : directory.roomOf? id = some origin)
    (hgone : (if vacated then some origin else none) = some name) :
    name ≠ directory.defaultRoom ∧ directory.IsLastIn id name := by
  split at hgone
  next hvac =>
    obtain rfl := Option.some.inj hgone
    obtain ⟨hname, halone⟩ := hvacated.1 hvac
    refine ⟨hname, fun other => ⟨halone other, ?_⟩⟩
    rintro rfl
    exact hid
  next => cases hgone

theorem move {target' : RoomName} (h : directory.Intact)
    (hmove : directory.move id target create =
      .ok (directory', .moved origin target' created vacated)) :
    directory.Rehouses directory' none (if vacated then some origin else none) ∧
      (∀ name, (if vacated then some origin else none) = some name →
        name ≠ directory.defaultRoom ∧ directory.IsLastIn id name) ∧
      directory'.roomOf? id = some target ∧ origin ≠ target := by
  obtain ⟨client, hid, rfl, -, hne, hoccupants, hvacated⟩ := h.occupants_of_move hmove
  obtain ⟨room, hroom⟩ := h.room_getElem? hid
  have h' := h.move hmove
  have hplace := roomOf?_of_insert hoccupants
  have hthere : directory'.roomOf? id = some target := by rw [hplace, update_self]
  refine ⟨?_, fun _ => isLastIn_of_vacated hvacated (roomOf?_eq hid), hthere, hne⟩
  rw [move_eq h hid hroom hne] at hmove
  split at hmove
  next => cases hmove
  next =>
    obtain ⟨rfl, hmoved⟩ := Prod.mk.inj (Except.ok.inj hmove)
    obtain ⟨-, -, -, rfl⟩ := Move.moved.inj hmoved
    obtain rfl := h.occupant_id hid
    refine of_leave h h' rfl hvacated (fun other hother => ?_) (roomOf?_eq hid) (fun name => ?_) ?_
    · rw [hplace, update_of_ne hother]
    · rw [hthere, Option.some_inj, roomsAfterMove, ExtTreeMap.mem_insert, Std.compare_eq_iff_eq,
        mem_vacated (Maps.mem_of_getElem? hroom)]
    · rw [hthere, ne_eq, Option.some_inj]
      exact Ne.symm hne

theorem remove (h : directory.Intact)
    (hremove : directory.remove id = .ok (directory', some departure)) :
    directory.Rehouses directory' none
        (if departure.vacated then some departure.occupant.room else none) ∧
      (∀ name, (if departure.vacated then some departure.occupant.room else none) = some name →
        name ≠ directory.defaultRoom ∧ directory.IsLastIn id name) ∧
      id ∉ directory'.occupants := by
  obtain ⟨client, hid, hclient, hoccupants, hvacated⟩ := h.occupants_of_remove hremove
  obtain ⟨room, hroom⟩ := h.room_getElem? hid
  have h' := h.remove hremove
  have hplace := roomOf?_of_erase hoccupants
  have hnowhere : directory'.roomOf? id = none := by rw [hplace, update_self]
  have horigin : departure.occupant.room = client.room := by rw [hclient]; rfl
  rw [horigin]
  refine ⟨?_, fun _ => isLastIn_of_vacated hvacated (roomOf?_eq hid), ?_⟩
  · rw [remove_eq hid hroom] at hremove
    obtain ⟨rfl, hdeparture⟩ := Prod.mk.inj (Except.ok.inj hremove)
    obtain rfl := Option.some.inj hdeparture
    refine of_leave h h' rfl hvacated (fun other hother => ?_) (roomOf?_eq hid) (fun name => ?_) ?_
    · rw [hplace, update_of_ne hother]
    · rw [hnowhere, mem_vacated (Maps.mem_of_getElem? hroom)]
      simp only [reduceCtorEq, false_or]
    · rw [hnowhere]
      exact nofun
  · rw [hoccupants, ExtTreeMap.mem_erase]
    simp

end Rehouses

end ChatRooms.Directory
