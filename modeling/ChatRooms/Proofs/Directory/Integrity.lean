import ChatRooms.Directory.Audit
import ChatRooms.Proofs.Maps
import Mathlib.Logic.Function.Basic

namespace ChatRooms.Directory

open Std Function

def roomOf? (directory : Directory) (id : ClientId) : Option RoomName :=
  directory.occupants[id]?.map Occupant.room

def nicknameOf? (directory : Directory) (id : ClientId) : Option String :=
  directory.occupants[id]?.map Occupant.nickname

/-- The rooms hold exactly the clients that `place` puts there, and only the default room is marked
as such. -/
structure Housed (rooms : ExtTreeMap RoomName Room) (defaultRoom : RoomName)
    (place : ClientId → Option RoomName) : Prop where
  defaultRoom_mem : defaultRoom ∈ rooms
  room_name {name : RoomName} {room : Room} : rooms[name]? = some room → room.name = name
  isDefault_iff {name : RoomName} {room : Room} :
    rooms[name]? = some room → (room.isDefault = true ↔ name = defaultRoom)
  mem_of_place {id : ClientId} {name : RoomName} : place id = some name → name ∈ rooms
  mem_members {name : RoomName} {room : Room} :
    rooms[name]? = some room → ∀ id, id ∈ room.members ↔ place id = some name

/-- The index is the inverse of `name`. In particular no two clients have the same nickname. -/
def Indexed (nicknames : ExtTreeMap String ClientId) (name : ClientId → Option String) : Prop :=
  ∀ nickname id, nicknames[nickname]? = some id ↔ name id = some nickname

structure Intact (directory : Directory) : Prop where
  occupant_id {id : ClientId} {occupant : Occupant} :
    directory.occupants[id]? = some occupant → occupant.id = id
  housed : Housed directory.rooms directory.defaultRoom directory.roomOf?
  indexed : Indexed directory.nicknames directory.nicknameOf?

namespace Indexed

variable {nicknames : ExtTreeMap String ClientId} {name : ClientId → Option String}
  {id : ClientId} {nickname : String}

theorem eq_of_name_eq (h : Indexed nicknames name) {other : ClientId}
    (h₁ : name id = some nickname) (h₂ : name other = some nickname) : id = other := by
  rw [← h] at h₁ h₂
  exact Option.some.inj (h₁.symm.trans h₂)

theorem insert (h : Indexed nicknames name) (hid : name id = none)
    (hfree : nicknames[nickname]? = none) :
    Indexed (nicknames.insert nickname id) (update name id (some nickname)) := by
  intro n i
  have hn : name i ≠ some nickname := by rw [ne_eq, ← h, hfree]; simp
  have := h n i
  simp only [ExtTreeMap.getElem?_insert, Std.compare_eq_iff_eq, update_apply]
  grind

theorem erase (h : Indexed nicknames name) (hid : name id = some nickname) :
    Indexed (nicknames.erase nickname) (update name id none) := by
  intro n i
  have hi : name i = some nickname → i = id := fun hn => h.eq_of_name_eq hn hid
  have := h n i
  simp only [ExtTreeMap.getElem?_erase, Std.compare_eq_iff_eq, update_apply]
  grind

end Indexed

namespace Housed

variable {rooms : ExtTreeMap RoomName Room} {defaultRoom name : RoomName}
  {place : ClientId → Option RoomName} {id : ClientId} {room : Room}

theorem single (defaultRoom : RoomName) :
    Housed ((∅ : ExtTreeMap RoomName Room).insert defaultRoom
      { name := defaultRoom, isDefault := true }) defaultRoom fun _ => none where
  defaultRoom_mem := by simp
  room_name h := by simp only [ExtTreeMap.getElem?_insert] at h; grind
  isDefault_iff h := by simp only [ExtTreeMap.getElem?_insert] at h; grind
  mem_of_place h := by cases h
  mem_members h := by simp only [ExtTreeMap.getElem?_insert] at h; grind

/-- Any change to one room that keeps its name and mark, and suits where the clients are now. -/
theorem insert {place' : ClientId → Option RoomName} (h : Housed rooms defaultRoom place)
    (hname : room.name = name) (hdefault : room.isDefault = true ↔ name = defaultRoom)
    (hmem : ∀ id, id ∈ room.members ↔ place' id = some name)
    (hplace : ∀ id other, other ≠ name → (place' id = some other ↔ place id = some other)) :
    Housed (rooms.insert name room) defaultRoom place' where
  defaultRoom_mem := by simp [h.defaultRoom_mem]
  room_name {other found} hfound := by
    have := @h.room_name other found
    simp only [ExtTreeMap.getElem?_insert, Std.compare_eq_iff_eq] at hfound
    grind
  isDefault_iff {other found} hfound := by
    have := @h.isDefault_iff other found
    simp only [ExtTreeMap.getElem?_insert, Std.compare_eq_iff_eq] at hfound
    grind
  mem_of_place {id other} hid := by
    rw [ExtTreeMap.mem_insert, Std.compare_eq_iff_eq]
    by_cases hn : other = name
    · exact Or.inl hn.symm
    · exact Or.inr (h.mem_of_place ((hplace id other hn).1 hid))
  mem_members {other found} hfound id := by
    have := @h.mem_members other found
    simp only [ExtTreeMap.getElem?_insert, Std.compare_eq_iff_eq] at hfound
    grind

theorem of_getD (h : Housed rooms defaultRoom place) (hroom : rooms[name]?.getD { name } = room) :
    room.name = name ∧ (room.isDefault = true ↔ name = defaultRoom) ∧
      ∀ i, i ∈ room.members ↔ place i = some name := by
  cases hfound : rooms[name]? with
  | some found =>
    obtain rfl : found = room := by rwa [hfound] at hroom
    exact ⟨h.room_name hfound, h.isDefault_iff hfound, h.mem_members hfound⟩
  | none =>
    obtain rfl : { name } = room := by rwa [hfound] at hroom
    have hnew : name ∉ rooms := Maps.not_mem_of_getElem? hfound
    have hdefault : name ≠ defaultRoom := fun hn => hnew (hn ▸ h.defaultRoom_mem)
    have hplace : ∀ i, place i ≠ some name := fun i hi => hnew (h.mem_of_place hi)
    simp [hdefault, hplace]

theorem enter (h : Housed rooms defaultRoom place) (name : RoomName) (hid : place id = none) :
    Housed (rooms.insert name ((rooms[name]?.getD { name }).add id)) defaultRoom
      (update place id (some name)) := by
  obtain ⟨hname, hdefault, hmem⟩ := h.of_getD rfl
  apply h.insert
  · exact hname
  · exact hdefault
  · intro i
    have := hmem i
    simp only [Room.add, ExtTreeSet.mem_insert, Std.compare_eq_iff_eq, update_apply]
    grind
  · intro i other hother
    simp only [update_apply]
    grind

theorem leave (h : Housed rooms defaultRoom place) (hid : place id = some name)
    (hroom : rooms[name]? = some room) :
    Housed (rooms.insert name (room.remove id)) defaultRoom (update place id none) := by
  apply h.insert
  · show room.name = name
    exact h.room_name hroom
  · show room.isDefault = true ↔ name = defaultRoom
    exact h.isDefault_iff hroom
  · intro i
    have := h.mem_members hroom i
    simp only [Room.remove, ExtTreeSet.mem_erase, update_apply]
    grind
  · intro i other hother
    simp only [update_apply]
    grind

/-- A room that nobody is in can be removed, unless it is the default one. -/
theorem erase (h : Housed rooms defaultRoom place) (hname : name ≠ defaultRoom)
    (hempty : ∀ id, place id ≠ some name) : Housed (rooms.erase name) defaultRoom place where
  defaultRoom_mem := by simp [h.defaultRoom_mem, hname]
  room_name {other found} hfound := by
    have := @h.room_name other found
    simp only [ExtTreeMap.getElem?_erase, Std.compare_eq_iff_eq] at hfound
    grind
  isDefault_iff {other found} hfound := by
    have := @h.isDefault_iff other found
    simp only [ExtTreeMap.getElem?_erase, Std.compare_eq_iff_eq] at hfound
    grind
  mem_of_place {id other} hid := by
    rw [ExtTreeMap.mem_erase, ne_eq, Std.compare_eq_iff_eq]
    exact ⟨fun hn => hempty id (hn ▸ hid), h.mem_of_place hid⟩
  mem_members {other found} hfound id := by
    have := @h.mem_members other found
    simp only [ExtTreeMap.getElem?_erase, Std.compare_eq_iff_eq] at hfound
    grind

theorem found (h : Housed rooms defaultRoom place) (hname : name ∉ rooms) :
    Housed (rooms.insert name { name }) defaultRoom place := by
  apply h.insert
  · rfl
  · have : name ≠ defaultRoom := fun hn => hname (hn ▸ h.defaultRoom_mem)
    simpa using this
  · intro i
    have : place i ≠ some name := fun hi => hname (h.mem_of_place hi)
    simpa using this
  · intro i other _
    rfl

theorem isDeserted_remove (h : Housed rooms defaultRoom place) (hroom : rooms[name]? = some room) :
    (room.remove id).isDeserted = true ↔
      name ≠ defaultRoom ∧ ∀ other, place other = some name → other = id := by
  have hdefault := h.isDefault_iff hroom
  have hempty : (room.remove id).isEmpty = true ↔ ∀ other, place other = some name → other = id := by
    rw [Room.isEmpty, ExtTreeSet.isEmpty_iff, ExtTreeSet.eq_empty_iff_forall_not_mem]
    apply forall_congr'
    intro other
    rw [← h.mem_members hroom, Room.remove, ExtTreeSet.mem_erase, ne_eq, Std.compare_eq_iff_eq]
    grind
  rw [Room.isDeserted, Bool.and_eq_true, hempty, Bool.not_eq_true', ← Bool.not_eq_true]
  show _ ∧ ¬room.isDefault = true ↔ _
  rw [hdefault, and_comm]

/-- Leaving a room removes it if nobody stays behind, unless it is the default one. -/
theorem vacate (h : Housed rooms defaultRoom place) (hid : place id = some name)
    (hroom : rooms[name]? = some room) :
    Housed (if (room.remove id).isDeserted then rooms.erase name
      else rooms.insert name (room.remove id)) defaultRoom (update place id none) := by
  have hleft := h.leave hid hroom
  split
  next hdeserted =>
    obtain ⟨hname, halone⟩ := (h.isDeserted_remove hroom).1 hdeserted
    -- As if the room had first been left and then, being empty, removed.
    rw [← Maps.erase_insert rooms name (room.remove id)]
    apply hleft.erase hname
    intro other
    simp only [update_apply]
    grind
  next => exact hleft

end Housed

variable {directory directory' : Directory} {id : ClientId} {occupant : Occupant}
  {name target : RoomName} {room : Room} {nickname : String} {peer : Option SocketAddress}

theorem map_getElem?_insert {α : Type} (f : Occupant → α)
    (occupants : ExtTreeMap ClientId Occupant) :
    (fun i => (occupants.insert id occupant)[i]?.map f) =
      update (fun i => occupants[i]?.map f) id (some (f occupant)) := by
  funext i
  simp only [ExtTreeMap.getElem?_insert, Std.compare_eq_iff_eq, update_apply]
  grind

theorem map_getElem?_insert_of_eq {α : Type} (f : Occupant → α)
    {occupants : ExtTreeMap ClientId Occupant} {old : Occupant} (hid : occupants[id]? = some old)
    (hsame : f occupant = f old) :
    (fun i => (occupants.insert id occupant)[i]?.map f) =
      fun i : ClientId => occupants[i]?.map f := by
  rw [map_getElem?_insert, hsame, ← Option.map_some, ← hid]
  exact update_eq_self id fun i : ClientId => occupants[i]?.map f

theorem map_getElem?_hangUpAll {α : Type} (f : Occupant → α)
    (hsame : ∀ occupant : Occupant, f occupant.hangUp = f occupant) :
    (fun i : ClientId => directory.hangUpAll.occupants[i]?.map f) =
      fun i : ClientId => directory.occupants[i]?.map f := by
  funext i
  simp only [hangUpAll, ExtTreeMap.getElem?_map, Option.map_map]
  congr 1
  funext occupant
  exact hsame occupant

theorem map_getElem?_erase {α : Type} (f : Occupant → α)
    (occupants : ExtTreeMap ClientId Occupant) :
    (fun i => (occupants.erase id)[i]?.map f) = update (fun i => occupants[i]?.map f) id none := by
  funext i
  simp only [ExtTreeMap.getElem?_erase, Std.compare_eq_iff_eq, update_apply]
  grind

theorem roomOf?_eq (hid : directory.occupants[id]? = some occupant) :
    directory.roomOf? id = some occupant.room := by
  rw [roomOf?, hid, Option.map_some]

theorem nicknameOf?_eq (hid : directory.occupants[id]? = some occupant) :
    directory.nicknameOf? id = some occupant.nickname := by
  rw [nicknameOf?, hid, Option.map_some]

theorem hasRoom_iff : directory.hasRoom name = true ↔ name ∈ directory.rooms := by
  rw [hasRoom, ExtTreeMap.contains_iff_mem]

theorem intact_new (defaultRoom : RoomName) (maxRooms : Nat) :
    (new defaultRoom maxRooms).Intact where
  occupant_id h := by simp [new] at h
  housed := Housed.single defaultRoom
  indexed nickname id := by simp [new, nicknameOf?]

namespace Intact

theorem defaultRoom_getElem? (h : directory.Intact) :
    ∃ room, directory.rooms[directory.defaultRoom]? = some room :=
  Maps.mem_iff_exists.1 h.housed.defaultRoom_mem

theorem room_getElem? (h : directory.Intact) (hid : directory.occupants[id]? = some occupant) :
    ∃ room, directory.rooms[occupant.room]? = some room := by
  have hplace : directory.roomOf? id = some occupant.room := by
    rw [roomOf?, hid, Option.map_some]
  exact Maps.mem_iff_exists.1 (h.housed.mem_of_place hplace)

theorem occupant_id_insert (h : directory.Intact) (hid : occupant.id = id) {i : ClientId}
    {found : Occupant} (hfound : (directory.occupants.insert id occupant)[i]? = some found) :
    found.id = i := by
  have := @h.occupant_id i found
  simp only [ExtTreeMap.getElem?_insert, Std.compare_eq_iff_eq] at hfound
  grind

end Intact

theorem enter_of_getElem? (hroom : directory.rooms[name]? = some room) :
    directory.enter id name =
      { directory with rooms := directory.rooms.insert name (room.add id) } := by
  rw [enter, hroom]

theorem vacate_of_getElem? (hroom : directory.rooms[name]? = some room) :
    directory.vacate id name = .ok
      ({ directory with
        rooms := if (room.remove id).isDeserted then directory.rooms.erase name
          else directory.rooms.insert name (room.remove id) }, (room.remove id).isDeserted) := by
  rw [Directory.vacate, hroom]
  cases hd : (room.remove id).isDeserted <;> simp [hd]

theorem register_eq (hroom : directory.rooms[directory.defaultRoom]? = some room) :
    directory.register id nickname peer =
      if directory.hasNickname nickname then .error (.duplicateNickname nickname)
      else .ok { directory with
        rooms := directory.rooms.insert directory.defaultRoom (room.add id)
        nicknames := directory.nicknames.insert nickname id
        occupants := directory.occupants.insert id
          { id, nickname, room := directory.defaultRoom, peer, presence := .active } } := by
  unfold register
  dsimp only
  rw [enter_of_getElem? hroom]

/-- The rooms after a client has gone from its room to another. -/
def roomsAfterMove (directory : Directory) (occupant : Occupant) (room : Room)
    (target : RoomName) : ExtTreeMap RoomName Room :=
  let rooms :=
    if (room.remove occupant.id).isDeserted then directory.rooms.erase occupant.room
    else directory.rooms.insert occupant.room (room.remove occupant.id)
  rooms.insert target ((rooms[target]?.getD { name := target }).add occupant.id)

theorem getElem?_vacated (hne : name ≠ target) (removed : Bool) :
    (if removed then directory.rooms.erase name else directory.rooms.insert name room)[target]? =
      directory.rooms[target]? := by
  cases removed <;> simp [ExtTreeMap.getElem?_erase, ExtTreeMap.getElem?_insert, hne]

theorem move_eq (h : directory.Intact) (hid : directory.occupants[id]? = some occupant)
    (hroom : directory.rooms[occupant.room]? = some room) (hne : occupant.room ≠ target)
    (create : Bool) :
    directory.move id target create =
      match if directory.hasRoom target then .ok ()
        else directory.mayCreate occupant.room target create with
      | .error refusal => .error (.refused refusal)
      | .ok () => .ok ({ directory with
          rooms := directory.roomsAfterMove occupant room target
          occupants := directory.occupants.insert id { occupant with room := target } },
          .moved occupant.room target (!directory.hasRoom target)
            (room.remove id).isDeserted) := by
  obtain rfl := h.occupant_id hid
  unfold move
  simp only [hid, if_neg hne, vacate_of_getElem? hroom]
  cases htarget : directory.hasRoom target with
  | true =>
    obtain ⟨found, hfound⟩ := Maps.mem_iff_exists.1 (hasRoom_iff.1 htarget)
    -- The two rooms differ, so that leaving the one does not touch the other.
    simp [roomsAfterMove, enter, getElem?_vacated hne, hfound]
  | false =>
    have hnone : directory.rooms[target]? = none :=
      ExtTreeMap.getElem?_eq_none_of_contains_eq_false htarget
    cases hcreate : directory.mayCreate occupant.room target create with
    | error refusal => simp
    | ok =>
      simp [roomsAfterMove, enter, getElem?_vacated hne, hnone, Maps.insert_insert]

theorem rename_eq (hid : directory.occupants[id]? = some occupant) :
    directory.rename id nickname =
      if directory.nicknames[nickname]?.any (· != id) then .error (.duplicateNickname nickname)
      else .ok ({ directory with
        occupants := directory.occupants.insert id { occupant with nickname }
        nicknames := (directory.nicknames.erase occupant.nickname).insert nickname id },
        occupant.nickname) := by
  rw [rename, hid]

theorem remove_eq (hid : directory.occupants[id]? = some occupant)
    (hroom : directory.rooms[occupant.room]? = some room) :
    directory.remove id = .ok ({ directory with
      occupants := directory.occupants.erase id
      nicknames := directory.nicknames.erase occupant.nickname
      rooms := if (room.remove id).isDeserted then directory.rooms.erase occupant.room
        else directory.rooms.insert occupant.room (room.remove id) },
      some { occupant := occupant.hangUp, vacated := (room.remove id).isDeserted }) := by
  have hvacate : ({ directory with
      occupants := directory.occupants.erase id
      nicknames := directory.nicknames.erase occupant.nickname } : Directory).vacate id
        occupant.room = _ := vacate_of_getElem? hroom
  rw [remove, hid]
  dsimp only
  rw [hvacate]

namespace Intact

theorem register (h : directory.Intact) (hid : id ∉ directory.occupants)
    (hr : directory.register id nickname peer = .ok directory') : directory'.Intact := by
  obtain ⟨room, hroom⟩ := h.defaultRoom_getElem?
  have hnone : directory.occupants[id]? = none := by simpa using hid
  rw [register_eq hroom] at hr
  split at hr
  next => cases hr
  next hfree =>
    obtain rfl := Except.ok.inj hr
    refine ⟨fun hi => h.occupant_id_insert (by rfl) hi, ?_, ?_⟩
    · have hplace : directory.roomOf? id = none := by rw [roomOf?, hnone, Option.map_none]
      have henter := h.housed.enter directory.defaultRoom hplace
      unfold roomOf?
      rw [map_getElem?_insert]
      rwa [hroom] at henter
    · unfold nicknameOf?
      rw [map_getElem?_insert]
      apply h.indexed.insert
      · rw [nicknameOf?, hnone, Option.map_none]
      · simpa [hasNickname] using hfree

theorem addRoom (h : directory.Intact) (ha : directory.addRoom name = .ok directory') :
    directory'.Intact := by
  unfold Directory.addRoom at ha
  split at ha
  next => cases ha
  next hnew =>
    split at ha
    next => cases ha
    next =>
      obtain rfl := Except.ok.inj ha
      exact ⟨h.occupant_id, h.housed.found (by rwa [hasRoom_iff] at hnew), h.indexed⟩

theorem removeRoom (h : directory.Intact) (hr : directory.removeRoom name = .ok directory') :
    directory'.Intact := by
  unfold Directory.removeRoom at hr
  split at hr
  next => cases hr
  next hname =>
    cases hroom : directory.rooms[name]? with
    | none => simp [hroom] at hr
    | some room =>
      rw [hroom] at hr
      dsimp only at hr
      split at hr
      next hempty =>
        obtain rfl := Except.ok.inj hr
        refine ⟨h.occupant_id, h.housed.erase hname ?_, h.indexed⟩
        intro i hi
        rw [← h.housed.mem_members hroom, ExtTreeSet.isEmpty_iff.1 hempty] at hi
        simp at hi
      next => cases hr

theorem move (h : directory.Intact) {create : Bool} {move : Move}
    (hm : directory.move id target create = .ok (directory', move)) : directory'.Intact := by
  cases hid : directory.occupants[id]? with
  | none => simp [Directory.move, hid] at hm
  | some occupant =>
    obtain ⟨room, hroom⟩ := h.room_getElem? hid
    have hplace := roomOf?_eq hid
    by_cases hne : occupant.room = target
    · simp only [Directory.move, hid, if_pos hne, Except.ok.injEq, Prod.mk.injEq] at hm
      exact hm.1 ▸ h
    · rw [move_eq h hid hroom hne] at hm
      split at hm
      next => cases hm
      next =>
        obtain ⟨rfl, -⟩ := Prod.mk.inj (Except.ok.inj hm)
        obtain rfl := h.occupant_id hid
        refine ⟨fun hi => h.occupant_id_insert (by rfl) hi, ?_, ?_⟩
        -- Between the two rooms the client is nowhere.
        · have hleft := h.housed.vacate hplace hroom
          have henter := hleft.enter target (update_self _ _ _)
          unfold roomOf?
          rw [map_getElem?_insert]
          rwa [update_idem] at henter
        · unfold nicknameOf?
          rw [map_getElem?_insert_of_eq Occupant.nickname hid (by rfl)]
          exact h.indexed

theorem rename (h : directory.Intact) {old : String}
    (hr : directory.rename id nickname = .ok (directory', old)) : directory'.Intact := by
  cases hid : directory.occupants[id]? with
  | none =>
    simp only [Directory.rename, hid] at hr
    split at hr <;> cases hr
  | some occupant =>
    rw [rename_eq hid] at hr
    split at hr
    next => cases hr
    next hfree =>
      obtain ⟨rfl, -⟩ := Prod.mk.inj (Except.ok.inj hr)
      have hname := nicknameOf?_eq hid
      have hkey := h.occupant_id hid
      refine ⟨fun hi => h.occupant_id_insert (by exact hkey) hi, ?_, ?_⟩
      · unfold roomOf?
        rw [map_getElem?_insert_of_eq Occupant.room hid (by rfl)]
        exact h.housed
      · unfold nicknameOf?
        rw [map_getElem?_insert]
        have herase := h.indexed.erase hname
        -- Nobody else had the new nickname, and if the client had it, it has just been erased.
        have hnone : (directory.nicknames.erase occupant.nickname)[nickname]? = none := by
          cases hholder : (directory.nicknames.erase occupant.nickname)[nickname]? with
          | none => rfl
          | some holder =>
            rw [herase, update_apply] at hholder
            split at hholder
            next => cases hholder
            next hother =>
              rw [← h.indexed] at hholder
              exact absurd (by simpa [hholder] using hother) hfree
        have hinsert := herase.insert (update_self _ _ _) hnone
        rwa [update_idem] at hinsert

theorem remove (h : directory.Intact) {departure : Option Departure}
    (hr : directory.remove id = .ok (directory', departure)) : directory'.Intact := by
  cases hid : directory.occupants[id]? with
  | none =>
    simp only [Directory.remove, hid, Except.ok.injEq, Prod.mk.injEq] at hr
    exact hr.1 ▸ h
  | some occupant =>
    obtain ⟨room, hroom⟩ := h.room_getElem? hid
    rw [remove_eq hid hroom] at hr
    obtain ⟨rfl, -⟩ := Prod.mk.inj (Except.ok.inj hr)
    refine ⟨?_, ?_, ?_⟩
    · intro i found hi
      have := @h.occupant_id i found
      simp only [ExtTreeMap.getElem?_erase] at hi
      grind
    · unfold roomOf?
      rw [map_getElem?_erase]
      exact h.housed.vacate (roomOf?_eq hid) hroom
    · unfold nicknameOf?
      rw [map_getElem?_erase]
      exact h.indexed.erase (nicknameOf?_eq hid)

theorem hangUp_eq (hid : directory.occupants[id]? = some occupant) :
    directory.hangUp id =
      .ok { directory with occupants := directory.occupants.insert id occupant.hangUp } := by
  rw [Directory.hangUp, amend, hid]

theorem hangUp (h : directory.Intact) (hr : directory.hangUp id = .ok directory') :
    directory'.Intact := by
  cases hid : directory.occupants[id]? with
  | none => simp [Directory.hangUp, amend, hid] at hr
  | some occupant =>
    rw [hangUp_eq hid] at hr
    obtain rfl := Except.ok.inj hr
    have hkey := h.occupant_id hid
    refine ⟨fun hi => h.occupant_id_insert (by exact hkey) hi, ?_, ?_⟩
    · unfold roomOf?
      rw [map_getElem?_insert_of_eq Occupant.room hid (by rfl)]
      exact h.housed
    · unfold nicknameOf?
      rw [map_getElem?_insert_of_eq Occupant.nickname hid (by rfl)]
      exact h.indexed

theorem hangUpAll (h : directory.Intact) : directory.hangUpAll.Intact := by
  refine ⟨?_, ?_, ?_⟩
  · intro i found hi
    simp only [Directory.hangUpAll, ExtTreeMap.getElem?_map, Option.map_eq_some_iff] at hi
    obtain ⟨occupant, hocc, rfl⟩ := hi
    have := h.occupant_id hocc
    exact this
  · unfold roomOf?
    rw [map_getElem?_hangUpAll Occupant.room fun _ => rfl]
    exact h.housed
  · unfold nicknameOf?
    rw [map_getElem?_hangUpAll Occupant.nickname fun _ => rfl]
    exact h.indexed

end Intact

end ChatRooms.Directory
