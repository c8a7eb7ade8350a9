import ChatRooms.Proofs.Directory.Houses
import ChatRooms.Proofs.Directory.Listing
import ChatRooms.Proofs.Hub.Hearing
import ChatRooms.Proofs.Hub.Nicknames
import ChatRooms.Proofs.Notice.Tidings

namespace ChatRooms

open Std

/-- What a member believes: its own nickname, and who is in its room. -/
structure Tracker where
  own : String
  roster : ExtTreeSet String

namespace Tracker

def note (tracker : Tracker) : Tidings → Tracker
  | .entered nickname => { tracker with roster := tracker.roster.insert nickname }
  | .gone nickname => { tracker with roster := tracker.roster.erase nickname }
  | .renamed old new => { tracker with roster := (tracker.roster.erase old).insert new }
  | .renamedSelf nickname =>
    { own := nickname, roster := (tracker.roster.erase tracker.own).insert nickname }
  | .nothing => tracker

def hear (room : RoomName) (tracker : Tracker) (line : String) : Tracker :=
  tracker.note (readTidings room line)

def replay (room : RoomName) (tracker : Tracker) (lines : List String) : Tracker :=
  lines.foldl (hear room) tracker

/-- What a client in the room would believe if it could look. -/
def of (directory : Directory) (room : RoomName) (own : String) : Tracker where
  own
  roster := ExtTreeSet.ofList (directory.nicknamesIn room)

end Tracker

/-- What a member believes is true. -/
structure Tracks (tracker : Tracker) (directory : Directory) (id : ClientId) (room : RoomName) :
    Prop where
  own : directory.nicknameOf? id = some tracker.own
  mem_roster (nickname : String) :
    nickname ∈ tracker.roster ↔ directory.Houses room nickname

namespace Tracks

variable {tracker : Tracker} {directory directory' : Directory} {id : ClientId} {room : RoomName}
  {notice : Notice} {notices : List Notice}

theorem of_directory {client : Occupant} (h : directory.Intact)
    (hid : directory.occupants[id]? = some client) (room : RoomName) :
    Tracks (.of directory room client.nickname) directory id room where
  own := Directory.nicknameOf?_eq hid
  mem_roster nickname := by
    rw [Tracker.of, ExtTreeSet.mem_ofList, List.contains_iff_mem, h.mem_nicknamesIn]
    rfl

theorem roster_toList (htracks : Tracks tracker directory id room) (h : directory.Intact) :
    tracker.roster.toList = directory.nicknamesIn room := by
  apply Directory.eq_of_ordered ExtTreeSet.ordered_toList (h.nicknamesIn_ordered room)
  intro nickname
  rw [ExtTreeSet.mem_toList, htracks.mem_roster, h.mem_nicknamesIn]
  rfl

theorem replay_quiet (hquiet : ∀ notice ∈ notices, notice.IsPlain ∧ notice.tidings room = .nothing) :
    tracker.replay room (notices.map Notice.line) = tracker := by
  induction notices with
  | nil => rfl
  | cons notice notices ih =>
    obtain ⟨hplain, hnothing⟩ := hquiet notice List.mem_cons_self
    have hhear : tracker.hear room notice.line = tracker := by
      rw [Tracker.hear, Notice.readTidings_line hplain, hnothing, Tracker.note]
    rw [List.map_cons, Tracker.replay, List.foldl_cons, hhear]
    exact ih fun other hother => hquiet other (List.mem_cons_of_mem notice hother)

theorem replay_one (hplain : notice.IsPlain) :
    tracker.replay room ([notice].map Notice.line) = tracker.note (notice.tidings room) := by
  rw [List.map_singleton, Tracker.replay, List.foldl_cons, List.foldl_nil, Tracker.hear,
    Notice.readTidings_line hplain]

theorem of_quiet (h : Tracks tracker directory id room)
    (hself : directory'.nicknameOf? id = directory.nicknameOf? id)
    (hhouses : ∀ nickname, directory'.Houses room nickname ↔ directory.Houses room nickname)
    (hquiet : ∀ notice ∈ notices, notice.IsPlain ∧ notice.tidings room = .nothing) :
    Tracks (tracker.replay room (notices.map Notice.line)) directory' id room := by
  rw [replay_quiet hquiet]
  exact ⟨hself ▸ h.own, fun nickname => by rw [h.mem_roster, hhouses]⟩

theorem of_occupants_eq (h : Tracks tracker directory id room)
    (heq : directory'.occupants = directory.occupants)
    (hquiet : ∀ notice ∈ notices, notice.IsPlain ∧ notice.tidings room = .nothing) :
    Tracks (tracker.replay room (notices.map Notice.line)) directory' id room := by
  apply h.of_quiet
  · rw [Directory.nicknameOf?, Directory.nicknameOf?, heq]
  · intro nickname
    rw [Directory.Houses, Directory.Houses, heq]
  · exact hquiet

theorem of_reply {other : ClientId} (h : Tracks tracker directory id room)
    (heq : directory'.occupants = directory.occupants) (hplain : notice.IsPlain)
    (hnothing : notice.tidings room = .nothing) :
    Tracks (tracker.replay room ((noticesFor id [.deliver other notice]).map Notice.line)) directory'
      id room := by
  apply h.of_occupants_eq heq
  intro found hfound
  obtain rfl := Hub.eq_of_mem_noticesFor hfound
  exact ⟨hplain, hnothing⟩

/-- The member's own nickname is still true if its entry has not changed. -/
theorem own_of_eq (h : Tracks tracker directory id room)
    (heq : directory'.occupants[id]? = directory.occupants[id]?) :
    directory'.nicknameOf? id = some tracker.own := by
  rw [← h.own, Directory.nicknameOf?, heq, Directory.nicknameOf?]

variable {client : Occupant} {hub : Hub}

theorem of_quit (htracks : Tracks tracker directory id room)
    (hclient : directory.occupants[client.id]? = some client) (hseat' : directory'.Seats id room)
    (hquit : directory.hangUp client.id = .ok directory') :
    Tracks (tracker.replay room ((noticesFor id [.deliver client.id .goodbye,
      .hangUp client.id]).map Notice.line)) directory' id room := by
  obtain ⟨occupant, hocc, heq⟩ := Directory.occupants_of_hangUp hquit
  obtain rfl := Option.some.inj (hclient.symm.trans hocc)
  -- Whoever quits is not heard any more, so it is somebody else.
  have hne : client.id ≠ id := by
    rintro rfl
    obtain ⟨member, hmember, hactive, -⟩ := hseat'
    rw [heq, ExtTreeMap.getElem?_insert_self] at hmember
    obtain rfl := Option.some.inj hmember
    cases hactive
  apply htracks.of_quiet
  · rw [Directory.nicknameOf?, heq, Maps.getElem?_insert_of_ne hne, Directory.nicknameOf?]
  · intro nickname
    exact Directory.houses_insert_of_eq hclient (by rfl) (by rfl) heq
  · intro notice hnotice
    rw [Hub.noticesFor_deliver_of_ne hne] at hnotice
    cases hnotice

theorem of_move {create created vacated : Bool} {target target' origin : RoomName}
    (htracks : Tracks tracker directory id room) (hintact : directory.Intact)
    (hnamed : directory.WellNamed) (hclient : directory.occupants[client.id]? = some client)
    (hseat : directory.Seats id room) (hseat' : directory'.Seats id room)
    (hmove : directory.move client.id target create =
      .ok (directory', .moved origin target' created vacated)) :
    Tracks (tracker.replay room ((noticesFor id
      ((if vacated then []
        else Hub.broadcast directory' origin (.left client.nickname origin) (some client.id)) ++
      Hub.broadcast directory' target' (.joined client.nickname target') (some client.id) ++
      [.deliver client.id (.moved target')])).map Notice.line)) directory' id room := by
  have hintact' := hintact.move hmove
  obtain ⟨occupant, hocc, rfl, rfl, hmoves, heq, hvacated⟩ := hintact.occupants_of_move hmove
  obtain rfl := Option.some.inj (hclient.symm.trans hocc)
  obtain ⟨member, hmember, hactive, rfl⟩ := hseat
  have hne : client.id ≠ id := by
    rintro rfl
    obtain rfl := Option.some.inj (hclient.symm.trans hmember)
    obtain ⟨after, hafter, -, hroom⟩ := hseat'
    rw [heq, ExtTreeMap.getElem?_insert_self] at hafter
    obtain rfl := Option.some.inj hafter
    exact hmoves hroom.symm
  have hkept : directory'.occupants[id]? = directory.occupants[id]? := by
    rw [heq, Maps.getElem?_insert_of_ne hne]
  have hmember' : directory'.occupants[id]? = some member := hkept.trans hmember
  have hspared : some id ≠ some client.id := fun h => hne (Option.some.inj h).symm
  have hown := htracks.own_of_eq hkept
  have hword : ' ' ∉ client.nickname.toList := space_not_mem_of_nameFlaw (hnamed _ _ hclient)
  have hhouses (nickname : String) : directory'.Houses member.room nickname ↔
      target' = member.room ∧ client.nickname = nickname ∨
        directory.HousesBesides client.id member.room nickname :=
    Directory.houses_insert heq
  rw [Hub.noticesFor_append, Hub.noticesFor_append, Hub.noticesFor_deliver_of_ne hne,
    Hub.noticesFor_nil, List.append_nil,
    Hub.noticesFor_broadcast_eq hintact' hmember' hactive hspared]
  by_cases horigin : client.room = member.room
  -- The member is still in the room that is left, so the others are told.
  · have hstays : vacated = false := by
      by_contra hgone
      have halone := (hvacated.1 (Bool.not_eq_false _ ▸ hgone)).2 id
      exact hne (halone (horigin ▸ Directory.roomOf?_eq hmember)).symm
    rw [hstays, if_neg Bool.false_ne_true, if_neg (horigin ▸ hmoves), List.append_nil,
      Hub.noticesFor_broadcast hintact' hmember' hactive horigin.symm hspared,
      replay_one (by exact hword), Notice.tidings, if_pos horigin, Tracker.note]
    refine ⟨hown, fun nickname => ?_⟩
    rw [hhouses, hintact.housesBesides_iff hclient, ← htracks.mem_roster, ExtTreeSet.mem_erase,
      ne_eq, Std.compare_eq_iff_eq]
    have hnot : target' ≠ member.room := Ne.symm (horigin ▸ hmoves)
    grind
  · have hleft : noticesFor id (if vacated then []
        else Hub.broadcast directory' client.room (.left client.nickname client.room)
          (some client.id)) = [] := by
      split
      next => rfl
      next => exact Hub.noticesFor_broadcast_of_ne hintact' hmember' (Ne.symm horigin)
    have hbesides (nickname : String) :
        directory.HousesBesides client.id member.room nickname ↔
          directory.Houses member.room nickname :=
      Directory.housesBesides_of_room_ne hclient horigin
    rw [hleft, List.nil_append]
    by_cases htarget : member.room = target'
    · rw [if_pos htarget, replay_one (by exact hword), Notice.tidings, if_pos htarget.symm,
        Tracker.note]
      refine ⟨hown, fun nickname => ?_⟩
      rw [hhouses, hbesides, ← htracks.mem_roster, ExtTreeSet.mem_insert, Std.compare_eq_iff_eq]
      grind
    · rw [if_neg htarget]
      refine ⟨hown, fun nickname => ?_⟩
      rw [hhouses, hbesides]
      exact (htracks.mem_roster nickname).trans (by grind)

theorem of_keepNickname (htracks : Tracks tracker directory id room)
    (hnamed : directory.WellNamed) (hclient : directory.occupants[client.id]? = some client)
    (hseat : directory.Seats id room) :
    Tracks (tracker.replay room ((noticesFor id
      [.deliver client.id (.nicknameSet client.nickname)]).map Notice.line)) directory id room := by
  by_cases hne : client.id = id
  · obtain ⟨member, hmember, -, hroom⟩ := hseat
    obtain rfl := hne
    obtain rfl := Option.some.inj (hclient.symm.trans hmember)
    have hword : ' ' ∉ client.nickname.toList := space_not_mem_of_nameFlaw (hnamed _ _ hclient)
    have hown := htracks.own
    rw [Directory.nicknameOf?_eq hclient] at hown
    have hin : directory.Houses room client.nickname := ⟨client.id, client, hclient, hroom, rfl⟩
    rw [Hub.noticesFor_deliver_self, Hub.noticesFor_nil, replay_one (by exact hword), Notice.tidings,
      Tracker.note]
    refine ⟨Directory.nicknameOf?_eq hclient, fun nickname => ?_⟩
    have hroster := htracks.mem_roster nickname
    rw [ExtTreeSet.mem_insert, ExtTreeSet.mem_erase, ne_eq, Std.compare_eq_iff_eq,
      Std.compare_eq_iff_eq]
    grind
  · apply htracks.of_occupants_eq rfl
    intro notice hnotice
    rw [Hub.noticesFor_deliver_of_ne hne] at hnotice
    cases hnotice

theorem of_nickname {nickname old : String} (htracks : Tracks tracker directory id room)
    (hintact : directory.Intact) (hnamed : directory.WellNamed) (hvalid : nameFlaw nickname = none)
    (hclient : directory.occupants[client.id]? = some client) (hseat : directory.Seats id room)
    (hrename : directory.rename client.id nickname = .ok (directory', old)) :
    Tracks (tracker.replay room ((noticesFor id (.deliver client.id (.nicknameSet nickname) ::
      Hub.broadcast directory' client.room (.renamed old nickname) (some client.id))).map
        Notice.line)) directory' id room := by
  have hintact' := hintact.rename hrename
  obtain ⟨occupant, hocc, rfl, heq⟩ := Directory.occupants_of_rename hrename
  obtain rfl := Option.some.inj (hclient.symm.trans hocc)
  obtain ⟨member, hmember, hactive, rfl⟩ := hseat
  have hold : ' ' ∉ client.nickname.toList := space_not_mem_of_nameFlaw (hnamed _ _ hclient)
  have hnew : ' ' ∉ nickname.toList := space_not_mem_of_nameFlaw hvalid
  have hhouses (name : String) : directory'.Houses member.room name ↔
      client.room = member.room ∧ nickname = name ∨
        directory.HousesBesides client.id member.room name :=
    Directory.houses_insert heq
  by_cases hne : client.id = id
  · obtain rfl := hne
    obtain rfl := Option.some.inj (hclient.symm.trans hmember)
    have hown := htracks.own
    rw [Directory.nicknameOf?_eq hclient] at hown
    have hafter : directory'.occupants[client.id]? = some { client with nickname } := by
      rw [heq, ExtTreeMap.getElem?_insert_self]
    rw [Hub.noticesFor_deliver_self, Hub.noticesFor_broadcast_spared hintact',
      replay_one (by exact hnew), Notice.tidings, Tracker.note]
    refine ⟨Directory.nicknameOf?_eq hafter, fun name => ?_⟩
    rw [hhouses, hintact.housesBesides_iff hclient, ← htracks.mem_roster, ExtTreeSet.mem_insert,
      ExtTreeSet.mem_erase, ne_eq, Std.compare_eq_iff_eq, Std.compare_eq_iff_eq]
    grind
  · have hkept : directory'.occupants[id]? = directory.occupants[id]? := by
      rw [heq, Maps.getElem?_insert_of_ne hne]
    have hmember' : directory'.occupants[id]? = some member := hkept.trans hmember
    have hspared : some id ≠ some client.id := fun h => hne (Option.some.inj h).symm
    have hown := htracks.own_of_eq hkept
    rw [Hub.noticesFor_deliver_of_ne hne,
      Hub.noticesFor_broadcast_eq hintact' hmember' hactive hspared]
    by_cases hroom : member.room = client.room
    · rw [if_pos hroom, replay_one (by exact ⟨hold, hnew⟩), Notice.tidings, Tracker.note]
      refine ⟨hown, fun name => ?_⟩
      rw [hhouses, hintact.housesBesides_iff hclient, ← htracks.mem_roster, ExtTreeSet.mem_insert,
        ExtTreeSet.mem_erase, ne_eq, Std.compare_eq_iff_eq, Std.compare_eq_iff_eq]
      grind
    · rw [if_neg hroom]
      refine ⟨hown, fun name => ?_⟩
      rw [hhouses, Directory.housesBesides_of_room_ne hclient (Ne.symm hroom)]
      exact (htracks.mem_roster name).trans (by grind)

theorem of_register {newcomer : ClientId} {nickname : String} {peer : Option SocketAddress}
    (htracks : Tracks tracker directory id room) (hintact : directory.Intact)
    (hvalid : nameFlaw nickname = none) (hnew : newcomer ∉ directory.occupants)
    (hseat : directory.Seats id room)
    (hregister : directory.register newcomer nickname peer = .ok directory') :
    Tracks (tracker.replay room ((noticesFor id (.attach newcomer ::
      .deliver newcomer (.welcome nickname directory'.defaultRoom) ::
        Hub.broadcast directory' directory'.defaultRoom (.connected nickname)
          (some newcomer))).map Notice.line)) directory' id room := by
  have hintact' := hintact.register hnew hregister
  obtain ⟨hdefault, heq⟩ := Directory.occupants_of_register hregister
  obtain ⟨member, hmember, hactive, rfl⟩ := hseat
  have hnone : directory.occupants[newcomer]? = none := by simpa using hnew
  have hne : newcomer ≠ id := by
    rintro rfl
    rw [hnone] at hmember
    cases hmember
  have hkept : directory'.occupants[id]? = directory.occupants[id]? := by
    rw [heq, Maps.getElem?_insert_of_ne hne]
  have hmember' : directory'.occupants[id]? = some member := hkept.trans hmember
  have hspared : some id ≠ some newcomer := fun h => hne (Option.some.inj h).symm
  have hown := htracks.own_of_eq hkept
  have hhouses (name : String) : directory'.Houses member.room name ↔
      directory'.defaultRoom = member.room ∧ nickname = name ∨
        directory.Houses member.room name := by
    rw [← Directory.housesBesides_of_none hnone, hdefault]
    exact Directory.houses_insert heq
  have hword : ' ' ∉ nickname.toList := space_not_mem_of_nameFlaw hvalid
  rw [Hub.noticesFor_attach, Hub.noticesFor_deliver_of_ne hne,
    Hub.noticesFor_broadcast_eq hintact' hmember' hactive hspared]
  by_cases hroom : member.room = directory'.defaultRoom
  · rw [if_pos hroom, replay_one (by exact hword), Notice.tidings, Tracker.note]
    refine ⟨hown, fun name => ?_⟩
    rw [hhouses, ← htracks.mem_roster, ExtTreeSet.mem_insert, Std.compare_eq_iff_eq]
    grind
  · rw [if_neg hroom]
    refine ⟨hown, fun name => ?_⟩
    rw [hhouses]
    exact (htracks.mem_roster name).trans (by grind)

theorem of_remove {other : ClientId} {departure : Departure}
    (htracks : Tracks tracker directory id room) (hintact : directory.Intact)
    (hnamed : directory.WellNamed) (hseat : directory.Seats id room)
    (hseat' : directory'.Seats id room)
    (hremove : directory.remove other = .ok (directory', some departure)) :
    Tracks (tracker.replay room ((noticesFor id (.detach other :: .hangUp other ::
      if departure.vacated then []
      else Hub.broadcast directory' departure.occupant.room
        (.disconnected departure.occupant.nickname) none)).map Notice.line)) directory' id room := by
  have hintact' := hintact.remove hremove
  obtain ⟨occupant, hocc, hdeparted, heq, hvacated⟩ := hintact.occupants_of_remove hremove
  obtain ⟨member, hmember, hactive, rfl⟩ := hseat
  have hne : other ≠ id := by
    rintro rfl
    obtain ⟨after, hafter, -⟩ := hseat'
    rw [heq, ExtTreeMap.getElem?_erase_self] at hafter
    cases hafter
  have hkept : directory'.occupants[id]? = directory.occupants[id]? := by
    rw [heq, Maps.getElem?_erase_of_ne hne]
  have hmember' : directory'.occupants[id]? = some member := hkept.trans hmember
  have hown := htracks.own_of_eq hkept
  have hword : ' ' ∉ occupant.nickname.toList := space_not_mem_of_nameFlaw (hnamed _ _ hocc)
  have hhouses (name : String) : directory'.Houses member.room name ↔
      directory.HousesBesides other member.room name := Directory.houses_erase heq
  rw [Hub.noticesFor_detach, Hub.noticesFor_hangUp, hdeparted]
  dsimp only [Occupant.hangUp]
  by_cases hroom : member.room = occupant.room
  -- A room with the member in it is not vacated.
  · have hstays : departure.vacated = false := by
      by_contra hgone
      have halone := (hvacated.1 (Bool.not_eq_false _ ▸ hgone)).2 id
      exact hne (halone (hroom ▸ Directory.roomOf?_eq hmember)).symm
    rw [hstays, if_neg Bool.false_ne_true,
      Hub.noticesFor_broadcast hintact' hmember' hactive hroom (by simp),
      replay_one (by exact hword), Notice.tidings, Tracker.note]
    refine ⟨hown, fun name => ?_⟩
    rw [hhouses, hintact.housesBesides_iff hocc, ← htracks.mem_roster, ExtTreeSet.mem_erase,
      ne_eq, Std.compare_eq_iff_eq]
    grind
  · have hsilent : noticesFor id (if departure.vacated then []
        else Hub.broadcast directory' occupant.room (.disconnected occupant.nickname) none) = [] := by
      split
      next => rfl
      next => exact Hub.noticesFor_broadcast_of_ne hintact' hmember' hroom
    rw [hsilent]
    refine ⟨hown, fun name => ?_⟩
    rw [hhouses, Directory.housesBesides_of_room_ne hocc (Ne.symm hroom)]
    exact htracks.mem_roster name

end Tracks

namespace Hub

variable {hub hub' : Hub} {client : Occupant} {request : Request} {event : Event}
  {effects : List Effect} {id : ClientId} {room : RoomName} {tracker : Tracker}

theorem Performs.tracks (hstep : Performs hub client request hub' effects)
    (hintact : hub.directory.Intact) (hnamed : hub.directory.WellNamed)
    (hvalid : ∀ name, request = .command (.nickname name) → nameFlaw name = none)
    (hclient : hub.directory.occupants[client.id]? = some client)
    (hseat : hub.directory.Seats id room) (hseat' : hub'.directory.Seats id room)
    (htracks : Tracks tracker hub.directory id room) :
    Tracks (tracker.replay room ((noticesFor id effects).map Notice.line)) hub'.directory id
      room := by
  cases hstep with
  | chat text =>
    apply htracks.of_occupants_eq rfl
    intro notice hnotice
    obtain ⟨_, _, _, _, _, heq⟩ := (mem_broadcast hintact).1 (mem_noticesFor.1 hnotice)
    obtain rfl := (Effect.deliver.inj heq).2
    exact ⟨trivial, rfl⟩
  | whisper hfound _ =>
    apply htracks.of_occupants_eq rfl
    intro notice hnotice
    have hmem := mem_noticesFor.1 hnotice
    simp only [List.mem_cons, List.not_mem_nil, or_false, Effect.deliver.injEq] at hmem
    obtain ⟨-, rfl⟩ | ⟨-, rfl⟩ := hmem <;> exact ⟨trivial, rfl⟩
  | add hadd => exact htracks.of_reply (Directory.occupants_of_addRoom hadd) trivial rfl
  | remove hremove => exact htracks.of_reply (Directory.occupants_of_removeRoom hremove) trivial rfl
  | stay _ hmove =>
    exact htracks.of_reply (congrArg _ (Directory.eq_of_move_unchanged hmove)) trivial rfl
  | list | users | help => exact htracks.of_reply rfl trivial rfl
  | move _ hmove => exact htracks.of_move hintact hnamed hclient hseat hseat' hmove
  | keepNickname => exact htracks.of_keepNickname hnamed hclient hseat
  | nickname hother hrename =>
    exact htracks.of_nickname hintact hnamed (hvalid _ rfl) hclient hseat hrename
  | quit hquit => exact htracks.of_quit hclient hseat' hquit

/-- While the client stays where it is, what it hears of each event keeps its belief true. -/
theorem Steps.tracks (hstep : Steps hub event hub' effects) (hintact : hub.directory.Intact)
    (hnamed : hub.directory.WellNamed) (hadmits : hub.Admits event)
    (hseat : hub.directory.Seats id room) (hseat' : hub'.directory.Seats id room)
    (htracks : Tracks tracker hub.directory id room) :
    Tracks (tracker.replay room ((noticesFor id effects).map Notice.line)) hub'.directory id
      room := by
  cases hstep with
  | ignore => exact htracks
  | refuse => exact htracks.of_reply rfl trivial rfl
  | perform hid _ hdecode hperform =>
    obtain rfl := hintact.occupant_id hid
    refine hperform.tracks hintact hnamed ?_ hid hseat hseat' htracks
    rintro name rfl
    exact Request.nameFlaw_of_decode hdecode
  | welcome hguest hregister =>
    obtain ⟨-, hlimit, -, -⟩ := nextGuest_spec hguest
    exact htracks.of_register hintact (nameFlaw_guestNickname hlimit) hadmits hseat hregister
  | turnAway => exact htracks
  | reclaim _ hremove => exact htracks.of_remove hintact hnamed hseat hseat' hremove
  | reclaimAgain _ hremove =>
    rw [(Directory.eq_of_remove_none hremove).1]
    exact htracks
  -- Nobody stays in a room when everything is closed.
  | shutdown =>
    obtain ⟨member, hmember, hactive, -⟩ := hseat'
    simp only [closeAll, Directory.hangUpAll, ExtTreeMap.getElem?_map,
      Option.map_eq_some_iff] at hmember
    obtain ⟨found, -, rfl⟩ := hmember
    cases hactive

end Hub

end ChatRooms
