import ChatRooms.Proofs.Directory.Vacancy
import ChatRooms.Proofs.Hub.Authors
import ChatRooms.Proofs.Hub.Entry

namespace ChatRooms.Hub

open Std

/-- A run, with the hub as it was before each event. -/
inductive History (settings : Settings) : List (Hub × Event) → Hub → Prop where
  | start {room : RoomName} (hroom : settings.defaultRoomName = .ok room) :
      History settings [] (.start settings room)
  | step {past : List (Hub × Event)} {hub hub' : Hub} {event : Event} {effects : List Effect}
      (before : History settings past hub) (hadmits : hub.Admits event)
      (hhandle : hub.handle event = .ok (hub', effects)) :
      History settings (past ++ [(hub, event)]) hub'

/-- The room did not exist before a client asked for it, and since then nobody has ever been in it. -/
inductive Founded (hub : Hub) (room : RoomName) : List (Hub × Event) → Prop where
  | intro {earlier later : List (Hub × Event)} {before : Hub} {event : Event} {client : Occupant}
      (hasks : before.Asks event client (.command (.add room)))
      (hnew : room ∉ before.directory.rooms)
      (hvacant : ∀ moment ∈ later, moment.1.directory.isVacant room = true)
      (hstill : hub.directory.isVacant room = true) :
      Founded hub room (earlier ++ (before, event) :: later)

/-- The event takes the last member out of the room: to another room, or out of the directory. -/
def LastLeaves (hub hub' : Hub) (event : Event) (room : RoomName) : Prop :=
  ∃ id, hub.directory.IsLastIn id room ∧
    ((∃ line target, event = .line id line ∧ target ≠ room ∧
        hub'.directory.roomOf? id = some target) ∨
      (event = .exited id ∨ event = .closed id) ∧ id ∉ hub'.directory.occupants)

/-- The event is a request to remove the room, and nobody is in it. -/
def Discards (hub : Hub) (event : Event) (room : RoomName) : Prop :=
  hub.directory.isVacant room = true ∧ ∃ client, hub.Asks event client (.command (.remove room))

variable {settings : Settings} {past : List (Hub × Event)} {hub hub' : Hub} {client : Occupant}
  {request : Request} {event : Event} {effects : List Effect} {room : RoomName}

theorem Performs.rehouses (hstep : Performs hub client request hub' effects)
    (hintact : hub.directory.Intact) :
    ∃ founded gone, hub.directory.Rehouses hub'.directory founded gone ∧
      (∀ room, founded = some room →
        request = .command (.add room) ∧ room ∉ hub.directory.rooms) ∧
      ∀ room, gone = some room → room ≠ hub.directory.defaultRoom ∧
        (hub.directory.isVacant room = true ∧ request = .command (.remove room) ∨
          hub.directory.IsLastIn client.id room ∧
            ∃ target, target ≠ room ∧ hub'.directory.roomOf? client.id = some target) := by
  cases hstep with
  | chat | whisper | list | users | keepNickname | help =>
    exact ⟨none, none, .refl _, nofun, nofun⟩
  | @add room _ hadd =>
    obtain ⟨hrehouses, hnew⟩ := Directory.Rehouses.addRoom hadd
    refine ⟨_, _, hrehouses, ?_, nofun⟩
    rintro _ ⟨⟩
    exact ⟨rfl, hnew⟩
  | @remove room _ hremove =>
    obtain ⟨hrehouses, hname, hvacant⟩ := Directory.Rehouses.removeRoom hremove
    refine ⟨_, _, hrehouses, nofun, ?_⟩
    rintro _ ⟨⟩
    exact ⟨hname, Or.inl ⟨hvacant, rfl⟩⟩
  | stay _ hmove =>
    obtain rfl := Directory.eq_of_move_unchanged hmove
    exact ⟨none, none, .refl _, nofun, nofun⟩
  | move _ hmove =>
    obtain ⟨hrehouses, hlast, hthere, hne⟩ := Directory.Rehouses.move hintact hmove
    refine ⟨_, _, hrehouses, nofun, fun room hgone => ?_⟩
    obtain ⟨hname, hlastIn⟩ := hlast room hgone
    refine ⟨hname, Or.inr ⟨hlastIn, _, ?_, hthere⟩⟩
    split at hgone
    next => exact Option.some.inj hgone ▸ hne.symm
    next => cases hgone
  | nickname _ hrename => exact ⟨none, none, .rename hintact hrename, nofun, nofun⟩
  | quit hquit => exact ⟨none, none, .hangUp hintact hquit, nofun, nofun⟩

theorem Steps.rehouses (hstep : Steps hub event hub' effects) (hintact : hub.directory.Intact)
    (hadmits : hub.Admits event) :
    ∃ founded gone, hub.directory.Rehouses hub'.directory founded gone ∧
      (∀ room, founded = some room →
        (∃ client, hub.Asks event client (.command (.add room))) ∧ room ∉ hub.directory.rooms) ∧
      ∀ room, gone = some room → room ≠ hub.directory.defaultRoom ∧
        (hub.LastLeaves hub' event room ∨ hub.Discards event room) := by
  cases hstep with
  | ignore | refuse | turnAway => exact ⟨none, none, .refl _, nofun, nofun⟩
  | perform hid hactive hdecode hperform =>
    obtain rfl := hintact.occupant_id hid
    obtain ⟨founded, gone, hrehouses, hfounded, hgone⟩ := hperform.rehouses hintact
    refine ⟨founded, gone, hrehouses, fun room hroom => ?_, fun room hroom => ?_⟩
    · obtain ⟨rfl, hnew⟩ := hfounded room hroom
      exact ⟨⟨_, _, rfl, hdecode, hid, hactive⟩, hnew⟩
    · obtain ⟨hname, ⟨hvacant, rfl⟩ | ⟨hlast, target, hne, hthere⟩⟩ := hgone room hroom
      · exact ⟨hname, Or.inr ⟨hvacant, _, _, rfl, hdecode, hid, hactive⟩⟩
      · exact ⟨hname, Or.inl ⟨_, hlast, Or.inl ⟨_, target, rfl, hne, hthere⟩⟩⟩
  | welcome _ hregister => exact ⟨none, none, .register hintact hadmits hregister, nofun, nofun⟩
  | reclaim hevent hremove =>
    obtain ⟨hrehouses, hlast, hgone⟩ := Directory.Rehouses.remove hintact hremove
    refine ⟨_, _, hrehouses, nofun, fun room hroom => ?_⟩
    obtain ⟨hname, hlastIn⟩ := hlast room hroom
    exact ⟨hname, Or.inl ⟨_, hlastIn, Or.inr ⟨hevent, hgone⟩⟩⟩
  | reclaimAgain _ hremove =>
    rw [(Directory.eq_of_remove_none hremove).1]
    exact ⟨none, none, .refl _, nofun, nofun⟩
  | shutdown => exact ⟨none, none, .hangUpAll hintact, nofun, nofun⟩

theorem Steps.defaultRoom_eq (hstep : Steps hub event hub' effects) (hintact : hub.directory.Intact)
    (hadmits : hub.Admits event) : hub'.directory.defaultRoom = hub.directory.defaultRoom := by
  obtain ⟨_, _, hrehouses, -⟩ := hstep.rehouses hintact hadmits
  exact hrehouses.defaultRoom

/-- A room that nobody is in was so before, or is new and has been asked for. -/
theorem Steps.vacant_before (hstep : Steps hub event hub' effects) (hintact : hub.directory.Intact)
    (hadmits : hub.Admits event) (hname : room ≠ hub.directory.defaultRoom)
    (hvacant : hub'.directory.isVacant room = true) :
    hub.directory.isVacant room = true ∨
      (∃ client, hub.Asks event client (.command (.add room))) ∧ room ∉ hub.directory.rooms := by
  obtain ⟨founded, _, hrehouses, hfounded, -⟩ := hstep.rehouses hintact hadmits
  exact (hrehouses.vacant hname hvacant).imp_right (hfounded room)

theorem Steps.exists_roomOf? (hstep : Steps hub event hub' effects) (hintact : hub.directory.Intact)
    (hadmits : hub.Admits event) (hname : room ≠ hub.directory.defaultRoom)
    (hinhabited : ∃ id, hub.directory.roomOf? id = some room) (hkept : room ∈ hub'.directory.rooms) :
    ∃ id, hub'.directory.roomOf? id = some room := by
  have hintact' := hstep.intact hintact hadmits
  refine hintact'.exists_roomOf?_of_not_isVacant hkept fun hvacant => ?_
  obtain ⟨id, hid⟩ := hinhabited
  rcases hstep.vacant_before hintact hadmits hname hvacant with hbefore | ⟨-, hnew⟩
  · exact (hintact.isVacant_iff.1 hbefore).2 id hid
  · exact hnew (hintact.housed.mem_of_place hid)

theorem LastLeaves.roomOf?_ne (hleaves : hub.LastLeaves hub' event room)
    (hstep : Steps hub event hub' effects) (hintact : hub.directory.Intact) (other : ClientId) :
    hub'.directory.roomOf? other ≠ some room := by
  obtain ⟨id, hlast, hevent⟩ := hleaves
  have hclient : event.client? = some id ∧ event ≠ .shutdown := by
    rcases hevent with ⟨_, _, rfl, -⟩ | ⟨rfl | rfl, -⟩ <;> exact ⟨rfl, nofun⟩
  intro hother
  by_cases hne : other = id
  · subst hne
    rcases hevent with ⟨_, target, -, htarget, hthere⟩ | ⟨-, hgone⟩
    · exact htarget (Option.some.inj (hthere.symm.trans hother))
    · rw [Directory.roomOf?, ExtTreeMap.getElem?_eq_none hgone] at hother
      cases hother
  · have hsame : hub'.directory.roomOf? other = hub.directory.roomOf? other := by
      unfold Directory.roomOf?
      rw [hstep.getElem?_of_ne hintact (by rw [hclient.1]; simpa using Ne.symm hne) hclient.2]
    exact hne ((hlast other).1 (hsame.symm.trans hother))

theorem LastLeaves.not_mem (hleaves : hub.LastLeaves hub' event room)
    (hstep : Steps hub event hub' effects) (hintact : hub.directory.Intact)
    (hadmits : hub.Admits event) (hname : room ≠ hub.directory.defaultRoom) :
    room ∉ hub'.directory.rooms := by
  intro hkept
  obtain ⟨id, hlast, -⟩ := id hleaves
  obtain ⟨other, hother⟩ :=
    hstep.exists_roomOf? hintact hadmits hname ⟨id, (hlast id).2 rfl⟩ hkept
  exact hleaves.roomOf?_ne hstep hintact other hother

theorem Discards.not_mem (hdiscards : hub.Discards event room)
    (hstep : Steps hub event hub' effects) (hname : room ≠ hub.directory.defaultRoom) :
    room ∉ hub'.directory.rooms := by
  obtain ⟨hvacant, client, line, rfl, hdecode, hid, hactive⟩ := hdiscards
  obtain ⟨found, hfound, hempty⟩ := (Option.any_eq_true _ _).1 hvacant
  have hremove : hub.directory.removeRoom room =
      .ok { hub.directory with rooms := hub.directory.rooms.erase room } := by
    rw [Directory.removeRoom, if_neg hname, hfound]
    exact if_pos hempty
  cases hstep with
  | ignore hsilent => exact absurd hactive (Bool.eq_false_iff.1 (hsilent client hid))
  | refuse hfound' _ hrefused =>
    obtain rfl := Option.some.inj (hfound'.symm.trans hid)
    rw [hdecode] at hrefused
    simp [orRefuse, bind, Except.bind, perform, command, confirm, hremove] at hrefused
  | perform hfound' _ hdecode' hperform =>
    obtain rfl := Except.ok.inj (hdecode'.symm.trans hdecode)
    cases hperform with
    | remove hremove' =>
      obtain rfl := Except.ok.inj (hremove'.symm.trans hremove)
      simp
    | stay hcommand | move hcommand => rcases hcommand with ⟨h, -⟩ | ⟨h, -⟩ <;> cases h
  | reclaim hevent | reclaimAgain hevent => simp at hevent

theorem Steps.not_mem_rooms_iff (hstep : Steps hub event hub' effects)
    (hintact : hub.directory.Intact) (hadmits : hub.Admits event)
    (hmem : room ∈ hub.directory.rooms) :
    room ∉ hub'.directory.rooms ↔ room ≠ hub.directory.defaultRoom ∧
      (hub.LastLeaves hub' event room ∨ hub.Discards event room) := by
  constructor
  · intro hgone
    obtain ⟨_, gone, hrehouses, -, hways⟩ := hstep.rehouses hintact hadmits
    exact hways room ((hrehouses.not_mem hmem).1 hgone)
  · rintro ⟨hname, hleaves | hdiscards⟩
    · exact hleaves.not_mem hstep hintact hadmits hname
    · exact hdiscards.not_mem hstep hname

theorem History.reachable (h : History settings past hub) : Reachable settings hub := by
  induction h with
  | start hroom => exact .start hroom
  | step _ hadmits hhandle ih => exact .step ih hadmits hhandle

theorem Reachable.exists_history (h : Reachable settings hub) : ∃ past, History settings past hub := by
  induction h with
  | start hroom => exact ⟨[], .start hroom⟩
  | step _ hadmits hhandle ih =>
    obtain ⟨past, hpast⟩ := ih
    exact ⟨_, .step hpast hadmits hhandle⟩

theorem Reachable.defaultRoomName_eq (h : Reachable settings hub) :
    settings.defaultRoomName = .ok hub.directory.defaultRoom := by
  induction h with
  | start hroom => exact hroom
  | step before hadmits hhandle ih =>
    rw [ih, (steps_of_handle hhandle).defaultRoom_eq before.intact hadmits]

theorem Founded.append (h : Founded hub room past) (hstill : hub'.directory.isVacant room = true) :
    Founded hub' room (past ++ [(hub, event)]) := by
  obtain ⟨hasks, hnew, hvacant, hbefore⟩ := h
  rw [List.append_assoc, List.cons_append]
  refine .intro hasks hnew (fun moment hmem => ?_) hstill
  rcases List.mem_append.1 hmem with hmem | hmem
  · exact hvacant moment hmem
  · obtain rfl := List.mem_singleton.1 hmem
    exact hbefore

theorem History.founded (h : History settings past hub) (hname : room ≠ hub.directory.defaultRoom)
    (hvacant : hub.directory.isVacant room = true) : Founded hub room past := by
  induction h with
  | start hroom =>
    have hother := ((Directory.intact_new _ _).isVacant_iff.1 hvacant).1
    simp only [Directory.new, ExtTreeMap.mem_insert, Std.compare_eq_iff_eq] at hother
    rcases hother with rfl | hother
    · exact absurd rfl hname
    · simp at hother
  | @step past hub hub' event effects before hadmits hhandle ih =>
    have hintact := before.reachable.intact
    have hstep := steps_of_handle hhandle
    rw [hstep.defaultRoom_eq hintact hadmits] at hname
    rcases hstep.vacant_before hintact hadmits hname hvacant with hbefore | ⟨⟨client, hasks⟩, hnew⟩
    · exact (ih hname hbefore).append hvacant
    · exact .intro hasks hnew (by simp) hvacant

/-- The life of every room: it is always there if it is the default one. Any other stands empty only while
nobody has come since it was asked for, goes in the step in which its last member does or which discards
it while it is empty, and in no other. -/
theorem History.room_lifetimes (h : History settings past hub) :
    settings.defaultRoomName = .ok hub.directory.defaultRoom ∧
    hub.directory.defaultRoom ∈ hub.directory.rooms ∧
    (∀ room, room ≠ hub.directory.defaultRoom → hub.directory.isVacant room = true →
      Founded hub room past) ∧
    ∀ event hub' effects, hub.Admits event → hub.handle event = .ok (hub', effects) →
      ∀ room ∈ hub.directory.rooms,
        (room ∉ hub'.directory.rooms ↔ room ≠ hub.directory.defaultRoom ∧
          (hub.LastLeaves hub' event room ∨ hub.Discards event room)) ∧
        (room ∉ hub'.directory.rooms → ∀ id, hub'.directory.roomOf? id ≠ some room) ∧
        (room ∈ hub'.directory.rooms → room ≠ hub.directory.defaultRoom →
          (∃ id, hub.directory.roomOf? id = some room) →
            ∃ id, hub'.directory.roomOf? id = some room) := by
  have hintact := h.reachable.intact
  refine ⟨h.reachable.defaultRoomName_eq, hintact.housed.defaultRoom_mem,
    fun room hname hvacant => h.founded hname hvacant, ?_⟩
  intro event hub' effects hadmits hhandle room hmem
  have hstep := steps_of_handle hhandle
  have hintact' := hstep.intact hintact hadmits
  refine ⟨hstep.not_mem_rooms_iff hintact hadmits hmem, fun hgone id hid => ?_, ?_⟩
  · exact hgone (hintact'.housed.mem_of_place hid)
  · exact fun hkept hname hinhabited =>
      hstep.exists_roomOf? hintact hadmits hname hinhabited hkept

set_option maxRecDepth 20000 in
/-- A room that is founded and entered, and goes with a client that has quit long before it is
reclaimed. -/
theorem room_lifetimes_of_quit_member :
    ∃ (dev : RoomName) (past past' : List (Hub × Event)) (hub hub' hub'' : Hub) (effects : List Effect),
      History {} past hub ∧ Founded hub dev past ∧ History {} past' hub' ∧
      hub'.handle (.closed 2) = .ok (hub'', effects) ∧ dev ∈ hub'.directory.rooms ∧
      hub'.LastLeaves hub'' (.closed 2) dev := by
  have run {past : List (Hub × Event)} {hub hub' : Hub} {effects : List Effect}
      (h : History {} past hub) (event : Event) (hadmits : hub.Admits event)
      (hhandle : hub.handle event = .ok (hub', effects)) :
      History {} (past ++ [(hub, event)]) hub' := .step h hadmits hhandle
  have h₀ : History {} [] (.start {} ⟨"general", by decide⟩) := .start rfl
  have h₁ := run h₀ (.register 1 none) (by decide) rfl
  have h₂ := run h₁ (.line 1 "CMD:add:dev:") trivial rfl
  have h₃ := run h₂ (.register 2 none) (by decide) rfl
  have h₄ := run h₃ (.line 2 "CMD:join:dev:") trivial rfl
  have h₅ := run h₄ (.line 2 "CMD:quit:") trivial rfl
  obtain ⟨-, -, hfounded, -⟩ := h₂.room_lifetimes
  obtain ⟨-, -, -, hstep⟩ := h₅.room_lifetimes
  have hgoes := hstep (.closed 2) _ _ trivial rfl ⟨"dev", by decide⟩ (by decide)
  obtain ⟨-, hleaves | ⟨-, _, _, hline, -⟩⟩ := hgoes.1.1 (by decide)
  · exact ⟨_, _, _, _, _, _, _, h₂, hfounded _ (by decide) (by decide), h₅, rfl, by decide, hleaves⟩
  · cases hline

end ChatRooms.Hub
