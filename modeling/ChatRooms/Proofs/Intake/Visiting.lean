import ChatRooms.Proofs.Directory.Change
import ChatRooms.Proofs.Hub.Integrity
import ChatRooms.Proofs.Intake.Rest

namespace ChatRooms.Hub

open Std

variable {hub hub' : Hub} {client : Occupant} {request : Request} {event : Event}
  {effects : List Effect} {id : ClientId} {mode : IntakeMode} {capacity : Nat}

theorem isOutward_of_mem_broadcast {directory : Directory} {room : RoomName} {notice : Notice}
    {spared : Option ClientId} {effect : Effect}
    (h : effect ∈ broadcast directory room notice spared) : effect.isOutward = true := by
  obtain ⟨member, -, rfl⟩ := List.mem_map.1 h
  rfl

theorem Performs.isOutward (hstep : Performs hub client request hub' effects) :
    ∀ effect ∈ effects, effect.isOutward = true := by
  intro effect hmem
  cases hstep with
  | chat => exact isOutward_of_mem_broadcast hmem
  | move =>
    simp only [List.mem_append, List.mem_singleton] at hmem
    rcases hmem with (hmem | hmem) | rfl
    · split at hmem
      next => cases hmem
      next => exact isOutward_of_mem_broadcast hmem
    · exact isOutward_of_mem_broadcast hmem
    · rfl
  | nickname =>
    rcases List.mem_cons.1 hmem with rfl | hmem
    · rfl
    · exact isOutward_of_mem_broadcast hmem
  | whisper | quit =>
    simp only [List.mem_cons, List.not_mem_nil, or_false] at hmem
    rcases hmem with rfl | rfl <;> rfl
  | add | remove | stay | list | users | keepNickname | help =>
    obtain rfl := List.mem_singleton.1 hmem
    rfl

theorem Performs.feeds (hstep : Performs hub client request hub' effects)
    (hintact : hub.directory.Intact) : hub'.directory.feeds = hub.directory.feeds := by
  have hinsert {directory' : Directory} {occupant occupant' : Occupant}
      (hfound : hub.directory.occupants[client.id]? = some occupant)
      (heq : directory'.occupants = hub.directory.occupants.insert client.id occupant') :
      directory'.feeds = hub.directory.feeds := by
    rw [Directory.feeds_of_insert heq, Directory.insert_feeds_of_mem (Maps.mem_of_getElem? hfound)]
  cases hstep with
  | chat | whisper | list | users | keepNickname | help => rfl
  | add hadd => exact Directory.feeds_congr fun id => by rw [Directory.occupants_of_addRoom hadd]
  | remove hremove =>
    exact Directory.feeds_congr fun id => by rw [Directory.occupants_of_removeRoom hremove]
  | stay _ hmove => exact congrArg Directory.feeds (Directory.eq_of_move_unchanged hmove)
  | move _ hmove =>
    obtain ⟨occupant, hfound, -, -, -, heq, -⟩ := hintact.occupants_of_move hmove
    exact hinsert hfound heq
  | nickname _ hrename =>
    obtain ⟨occupant, hfound, -, heq⟩ := Directory.occupants_of_rename hrename
    exact hinsert hfound heq
  | quit hquit =>
    obtain ⟨occupant, hfound, heq⟩ := Directory.occupants_of_hangUp hquit
    exact hinsert hfound heq

theorem Steps.mem_occupants (hstep : Steps hub event hub' effects)
    (hintact : hub.directory.Intact) (hid : id ∈ hub'.directory.occupants) :
    id ∈ hub.directory.occupants ∨ ∃ peer, event = .register id peer := by
  cases hstep with
  | ignore | refuse | turnAway => exact Or.inl hid
  | perform _ _ _ hperform =>
    rw [← Directory.mem_feeds, hperform.feeds hintact, Directory.mem_feeds] at hid
    exact Or.inl hid
  | @welcome newcomer peer _ _ _ hregister =>
    rw [(Directory.occupants_of_register hregister).2, ExtTreeMap.mem_insert,
      Std.compare_eq_iff_eq] at hid
    rcases hid with rfl | hid
    · exact Or.inr ⟨peer, rfl⟩
    · exact Or.inl hid
  | reclaim _ hremove =>
    obtain ⟨occupant, -, -, heq, -⟩ := hintact.occupants_of_remove hremove
    rw [heq, ExtTreeMap.mem_erase] at hid
    exact Or.inl hid.2
  | reclaimAgain _ hremove =>
    rw [(Directory.eq_of_remove_none hremove).1] at hid
    exact Or.inl hid
  | shutdown => exact Or.inl (ExtTreeMap.mem_map.1 hid)

/-- Only whoever is registered comes in, and only whoever is reclaimed goes. -/
theorem Steps.mem_occupants_iff (hstep : Steps hub event hub' effects)
    (hintact : hub.directory.Intact) : id ∈ hub'.directory.occupants ↔
      (∃ peer, event = .register id peer) ∨
        id ∈ hub.directory.occupants ∧ event ≠ .closed id ∧ event ≠ .exited id := by
  cases hstep with
  | ignore | refuse => simp
  | perform _ _ _ hperform =>
    rw [← Directory.mem_feeds, hperform.feeds hintact, Directory.mem_feeds]
    simp
  | @welcome newcomer peer _ _ _ hregister =>
    rw [(Directory.occupants_of_register hregister).2, ExtTreeMap.mem_insert,
      Std.compare_eq_iff_eq]
    simp
  | turnAway hguest hregister => exact absurd hregister (register_ne_error hguest)
  | reclaim hevent hremove =>
    obtain ⟨occupant, -, -, heq, -⟩ := hintact.occupants_of_remove hremove
    rw [heq, ExtTreeMap.mem_erase, ne_eq, Std.compare_eq_iff_eq]
    rcases hevent with rfl | rfl <;> simp [and_comm]
  | @reclaimAgain _ other _ hevent hremove =>
    obtain ⟨rfl, hother⟩ := Directory.eq_of_remove_none hremove
    have hne (hid : id ∈ hub.directory.occupants) : other ≠ id := by
      rintro rfl
      exact Maps.not_mem_of_getElem? hother hid
    rcases hevent with rfl | rfl <;> simpa using hne
  | shutdown =>
    show id ∈ hub.directory.occupants.map _ ↔ _
    rw [ExtTreeMap.mem_map]
    simp

theorem Steps.exists_of_closed (hstep : Steps hub (.closed id) hub' effects) :
    ∃ others, effects = .detach id :: others := by
  cases hstep with
  | reclaim hevent =>
    rcases hevent with hevent | hevent
    · cases hevent
    · cases hevent
      exact ⟨_, rfl⟩
  | reclaimAgain hevent =>
    rcases hevent with hevent | hevent
    · cases hevent
    · cases hevent
      exact ⟨_, rfl⟩

theorem Steps.foldl_absorb (hstep : Steps hub event hub' effects) (intake : Intake) :
    effects.foldl Intake.absorb intake = intake.follow event := by
  cases hstep with
  | ignore => rfl
  | refuse => rfl
  | perform _ _ _ hperform => exact Intake.foldl_absorb_of_isOutward hperform.isOutward
  | @welcome id _ guest directory _ _ =>
    rw [List.foldl_cons]
    apply Intake.foldl_absorb_of_isOutward
    intro effect hmem
    rcases List.mem_cons.1 hmem with rfl | hmem
    · rfl
    · exact isOutward_of_mem_broadcast hmem
  | turnAway hguest hregister => exact absurd hregister (register_ne_error hguest)
  | @reclaim _ id directory departure hevent _ =>
    have hrest : ∀ effect ∈ Effect.hangUp id ::
        if departure.vacated then []
        else broadcast directory departure.occupant.room
          (.disconnected departure.occupant.nickname) none, effect.isOutward = true := by
      intro effect hmem
      rcases List.mem_cons.1 hmem with rfl | hmem
      · rfl
      · split at hmem
        next => cases hmem
        next => exact isOutward_of_mem_broadcast hmem
    rw [List.foldl_cons, Intake.foldl_absorb_of_isOutward hrest]
    rcases hevent with rfl | rfl <;> rfl
  | reclaimAgain hevent _ => rcases hevent with rfl | rfl <;> rfl
  | shutdown =>
    apply Intake.foldl_absorb_of_isOutward
    intro effect hmem
    obtain ⟨⟨id, client⟩, -, hmem⟩ := List.mem_flatMap.1 hmem
    dsimp only at hmem
    split at hmem <;> simp only [List.mem_cons, List.not_mem_nil, or_false] at hmem
    · rcases hmem with rfl | rfl <;> rfl
    · rw [hmem]
      rfl

/-- The intake is at rest again after every event. A newcomer's feed has been offered before. -/
theorem Steps.atRest (hstep : Steps hub event hub' effects) (hintact : hub.directory.Intact)
    (hadmits : hub.Admits event) (mode : IntakeMode) (capacity : Nat) :
    effects.foldl Intake.absorb ((Intake.atRest mode capacity hub.directory).offerFor event) =
      Intake.atRest mode capacity hub'.directory := by
  rw [hstep.foldl_absorb]
  cases hstep with
  | ignore | refuse => rfl
  | perform _ _ _ hperform => exact (Intake.atRest_congr (hperform.feeds hintact)).symm
  | welcome _ hregister =>
    obtain ⟨-, heq⟩ := Directory.occupants_of_register hregister
    exact Intake.attach_offer_atRest (Directory.feeds_of_insert heq)
  | turnAway hguest hregister => exact absurd hregister (register_ne_error hguest)
  | reclaim hevent hremove =>
    obtain ⟨occupant, -, -, heq, -⟩ := hintact.occupants_of_remove hremove
    rcases hevent with rfl | rfl <;> exact Intake.detach_atRest (Directory.feeds_of_erase heq)
  | @reclaimAgain _ id _ hevent hremove =>
    obtain ⟨rfl, hid⟩ := Directory.eq_of_remove_none hremove
    have hnot : id ∉ hub.directory.occupants := Maps.not_mem_of_getElem? hid
    rcases hevent with rfl | rfl <;> exact Intake.detach_atRest_of_not_mem hnot
  | shutdown =>
    refine (Intake.atRest_congr (Directory.feeds_congr fun id => ?_)).symm
    exact ExtTreeMap.mem_map

end ChatRooms.Hub
