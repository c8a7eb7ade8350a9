import ChatRooms.Proofs.Hub.Hearing
import ChatRooms.Proofs.Hub.Nicknames
import ChatRooms.Proofs.Request.Wording

namespace ChatRooms

open Std

namespace Directory

variable {directory : Directory} {id : ClientId} {room target : RoomName} {nickname text : String}
  {refusal : Refusal}

theorem quotes_of_addRoom (h : directory.addRoom room = .error refusal) (hmem : text ∈ refusal.quotes) :
    text = room.text := by
  unfold addRoom at h
  split at h
  next =>
    obtain rfl := Except.error.inj h
    exact List.mem_singleton.1 hmem
  next =>
    split at h
    next =>
      obtain rfl := Except.error.inj h
      cases hmem
    next => cases h

theorem quotes_of_removeRoom (h : directory.removeRoom room = .error refusal)
    (hmem : text ∈ refusal.quotes) : text = room.text := by
  unfold removeRoom at h
  split at h
  next =>
    obtain rfl := Except.error.inj h
    exact List.mem_singleton.1 hmem
  next =>
    split at h
    next =>
      obtain rfl := Except.error.inj h
      exact List.mem_singleton.1 hmem
    next =>
      split at h
      next => cases h
      next =>
        obtain rfl := Except.error.inj h
        exact List.mem_singleton.1 hmem

theorem quotes_of_move {create : Bool} (h : directory.move id target create = .error (.refused refusal))
    (hmem : text ∈ refusal.quotes) : text = target.text := by
  unfold move at h
  split at h
  next =>
    obtain rfl := Stop.refused.inj (Except.error.inj h)
    cases hmem
  next occupant _ =>
    dsimp only at h
    split at h
    next => cases h
    next =>
      split at h
      next found hrefused =>
        obtain rfl := Stop.refused.inj (Except.error.inj h)
        split at hrefused
        next =>
          unfold mayCreate at hrefused
          split at hrefused
          next =>
            obtain rfl := Except.error.inj hrefused
            exact List.mem_singleton.1 hmem
          next =>
            split at hrefused
            next =>
              obtain rfl := Except.error.inj hrefused
              cases hmem
            next => cases hrefused
        next => cases hrefused
      next => split at h <;> cases h

theorem quotes_of_rename (h : directory.rename id nickname = .error refusal)
    (hmem : text ∈ refusal.quotes) : text = nickname := by
  unfold rename at h
  split at h
  next =>
    obtain rfl := Except.error.inj h
    exact List.mem_singleton.1 hmem
  next =>
    split at h
    next =>
      obtain rfl := Except.error.inj h
      cases hmem
    next => cases h

theorem quotes_of_hangUp (h : directory.hangUp id = .error refusal) : refusal.quotes = [] := by
  unfold hangUp amend at h
  split at h
  next =>
    obtain rfl := Except.error.inj h
    rfl
  next => cases h

theorem WellNamed.of_mem_nicknamesIn (h : directory.WellNamed) (hintact : directory.Intact)
    (hmem : nickname ∈ directory.nicknamesIn room) : nameFlaw nickname = none := by
  rw [nicknamesIn, (List.mergeSort_perm _ _).mem_iff, List.mem_map] at hmem
  obtain ⟨occupant, hoccupant, rfl⟩ := hmem
  exact h occupant.id occupant ((Hub.mem_members hintact).1 hoccupant).1

end Directory

namespace Hub

variable {hub hub' : Hub} {client : Occupant} {request : Request} {event : Event} {effects : List Effect}
  {id : ClientId} {target : RoomName} {notice : Notice} {text : String} {refusal : Refusal}

theorem orRefuse_eq_refused {α : Type} {x : Except Refusal α} :
    orRefuse x = .error (.refused refusal) ↔ x = .error refusal := by
  cases x <;> simp [orRefuse]

theorem quotes_of_move {create : Bool} (h : hub.move client target create = .error (.refused refusal))
    (hmem : text ∈ refusal.quotes) : nameFlaw text = none := by
  unfold Hub.move at h
  split at h
  next stop hmove =>
    obtain rfl := Except.error.inj h
    obtain rfl := Directory.quotes_of_move hmove hmem
    exact target.valid
  next => cases h
  next => cases h

theorem quotes_of_command {command : Command} (h : hub.command client command = .error (.refused refusal))
    (hmem : text ∈ refusal.quotes) : text ∈ (Request.command command).quotes ∨ nameFlaw text = none := by
  cases command with
  | add room =>
    cases hadd : hub.directory.addRoom room with
    | error found =>
      rw [command, hadd] at h
      obtain rfl := Stop.refused.inj (Except.error.inj h)
      obtain rfl := Directory.quotes_of_addRoom hadd hmem
      exact Or.inr room.valid
    | ok directory =>
      rw [command, hadd] at h
      cases h
  | remove room =>
    cases hremove : hub.directory.removeRoom room with
    | error found =>
      rw [command, hremove] at h
      obtain rfl := Stop.refused.inj (Except.error.inj h)
      obtain rfl := Directory.quotes_of_removeRoom hremove hmem
      exact Or.inr room.valid
    | ok directory =>
      rw [command, hremove] at h
      cases h
  | join room => exact Or.inr (quotes_of_move h hmem)
  -- Leaving the default room is refused with its name; otherwise it is a move there.
  | leave =>
    simp only [command] at h
    split at h
    next =>
      obtain rfl := Stop.refused.inj (Except.error.inj h)
      obtain rfl := List.mem_singleton.1 hmem
      exact Or.inr hub.directory.defaultRoom.valid
    next => exact Or.inr (quotes_of_move h hmem)
  | nickname name =>
    have hrename := orRefuse_eq_refused.1 h
    unfold Hub.rename at hrename
    split at hrename
    next => cases hrename
    next =>
      split at hrename
      next found hrefused =>
        obtain rfl := Except.error.inj hrename
        obtain rfl := Directory.quotes_of_rename hrefused hmem
        exact Or.inl List.mem_cons_self
      next => cases hrename
  | quit =>
    have hquit := orRefuse_eq_refused.1 h
    unfold Hub.quit at hquit
    split at hquit
    next found hrefused =>
      obtain rfl := Except.error.inj hquit
      rw [Directory.quotes_of_hangUp hrefused] at hmem
      cases hmem
    next => cases hquit
  | list | users | help => cases h

theorem quotes_of_perform (h : hub.perform client request = .error (.refused refusal))
    (hmem : text ∈ refusal.quotes) : text ∈ request.quotes ∨ nameFlaw text = none := by
  cases request with
  | chat text => cases h
  | whisper target body =>
    cases hfound : (hub.directory.findByNickname? target).filter Occupant.isActive with
    | none =>
      simp only [perform, Hub.whisper, hfound, orRefuse, bind, Except.bind, Except.error.injEq,
        Stop.refused.injEq] at h
      subst h
      obtain rfl := List.mem_singleton.1 hmem
      exact Or.inl List.mem_cons_self
    | some hearer => simp [perform, Hub.whisper, hfound, orRefuse, bind, Except.bind] at h
  | command command => exact quotes_of_command h hmem

theorem quotes_of_mem_broadcast {directory : Directory} {room : RoomName} {told : Notice}
    {spared : Option ClientId} (hmem : .deliver id notice ∈ broadcast directory room told spared) :
    notice.quotes = told.quotes := by
  obtain ⟨member, -, heq⟩ := List.mem_map.1 hmem
  rw [(Effect.deliver.inj heq).2]

/-- A request that is performed has only what was asked for quoted, and valid names. -/
theorem Performs.quotes (hstep : Performs hub client request hub' effects)
    (hintact : hub.directory.Intact) (hnamed : hub.directory.WellNamed)
    (hid : hub.directory.occupants[client.id]? = some client)
    (hsent : .deliver id notice ∈ effects) (hmem : text ∈ notice.quotes) :
    text ∈ request.quotes ∨ nameFlaw text = none := by
  have hclient : nameFlaw client.nickname = none := hnamed client.id client hid
  have hself {told : Notice} (hsent : Effect.deliver id notice ∈ [.deliver client.id told]) :
      text ∈ told.quotes := by
    rwa [(Effect.deliver.inj (List.mem_singleton.1 hsent)).2] at hmem
  have hbroadcast {directory : Directory} {room : RoomName} {told : Notice} {spared : Option ClientId}
      (hsent : .deliver id notice ∈ broadcast directory room told spared) : text ∈ told.quotes := by
    rwa [quotes_of_mem_broadcast hsent] at hmem
  cases hstep with
  | chat said =>
    have hquoted := hbroadcast hsent
    simp only [Notice.quotes, List.mem_cons, List.not_mem_nil, or_false] at hquoted
    rcases hquoted with rfl | rfl
    · exact Or.inr hclient
    · exact Or.inl List.mem_cons_self
  | @whisper target body hearer =>
    simp only [List.mem_cons, List.not_mem_nil, or_false, Effect.deliver.injEq] at hsent
    rcases hsent with ⟨-, rfl⟩ | ⟨-, rfl⟩
    · simp only [Notice.quotes, List.mem_cons, List.not_mem_nil, or_false] at hmem
      rcases hmem with rfl | rfl
      · exact Or.inr hclient
      · exact Or.inl (by simp [Request.quotes])
    · exact Or.inl hmem
  | add | remove | stay | list | help => cases hself hsent
  | users => exact Or.inr (hnamed.of_mem_nicknamesIn hintact (hself hsent))
  | move =>
    rcases List.mem_append.1 hsent with hsent | hsent
    · rcases List.mem_append.1 hsent with hsent | hsent
      · split at hsent
        next => cases hsent
        next =>
          obtain rfl := List.mem_singleton.1 (hbroadcast hsent)
          exact Or.inr hclient
      · obtain rfl := List.mem_singleton.1 (hbroadcast hsent)
        exact Or.inr hclient
    · cases hself hsent
  | keepNickname => exact Or.inl (hself hsent)
  | @nickname nickname old directory _ hrename =>
    obtain ⟨occupant, hoccupant, rfl, -⟩ := Directory.occupants_of_rename hrename
    rcases List.mem_cons.1 hsent with hsent | hsent
    · exact Or.inl (hself (List.mem_singleton.2 hsent))
    · have hquoted := hbroadcast hsent
      simp only [Notice.quotes, List.mem_cons, List.not_mem_nil, or_false] at hquoted
      rcases hquoted with rfl | rfl
      · exact Or.inr (hnamed client.id occupant hoccupant)
      · exact Or.inl List.mem_cons_self
  | quit =>
    simp only [List.mem_cons, List.not_mem_nil, or_false, Effect.deliver.injEq, reduceCtorEq] at hsent
    obtain ⟨-, rfl⟩ := hsent
    cases hmem

/-- What the hub sends is one line, unless what it was sent is not. -/
theorem Steps.isOneLine (hstep : Steps hub event hub' effects) (hintact : hub.directory.Intact)
    (hnamed : hub.directory.WellNamed) (hline : ∀ id line, event = .line id line → IsOneLine line)
    (hsent : .deliver id notice ∈ effects) : IsOneLine notice.line := by
  refine Notice.isOneLine_line fun text hmem => ?_
  cases hstep with
  | ignore => cases hsent
  -- A refusal quotes the line itself or a name that was checked.
  | @refuse sender line client refusal hid hactive hrefused =>
    have hline := hline _ _ rfl
    obtain rfl := (Effect.deliver.inj (List.mem_singleton.1 hsent)).2
    cases hdecode : Request.decode line with
    | error found =>
      rw [hdecode] at hrefused
      obtain rfl := Stop.refused.inj (Except.error.inj hrefused)
      exact (Request.isOneLine_of_decode hline).2 _ hdecode text hmem
    | ok request =>
      rw [hdecode] at hrefused
      rcases quotes_of_perform hrefused hmem with hrequest | hname
      · exact (Request.isOneLine_of_decode hline).1 _ hdecode text hrequest
      · exact isOneLine_of_nameFlaw hname
  | @perform sender line client request hub' effects hid hactive hdecode hperform =>
    obtain rfl := hintact.occupant_id hid
    rcases hperform.quotes hintact hnamed hid hsent hmem with hrequest | hname
    · exact (Request.isOneLine_of_decode (hline _ _ rfl)).1 _ hdecode text hrequest
    · exact isOneLine_of_nameFlaw hname
  | @welcome newcomer peer guest directory hguest hregister =>
    have hquotes : notice.quotes = [guestNickname guest] := by
      simp only [List.mem_cons, reduceCtorEq, false_or, Effect.deliver.injEq] at hsent
      rcases hsent with ⟨-, rfl⟩ | hsent
      · rfl
      · exact quotes_of_mem_broadcast hsent
    rw [hquotes] at hmem
    obtain rfl := List.mem_singleton.1 hmem
    exact isOneLine_of_nameFlaw (nameFlaw_guestNickname (nextGuest_spec hguest).2.1)
  | turnAway => simp at hsent
  -- The departed client is out of the directory after the step, so its name is looked up before it.
  | @reclaim event leaver directory departure hevent hremove =>
    obtain ⟨occupant, hoccupant, hdeparture, -⟩ := hintact.occupants_of_remove hremove
    simp only [List.mem_cons, reduceCtorEq, false_or] at hsent
    split at hsent
    next => cases hsent
    next =>
      rw [quotes_of_mem_broadcast hsent] at hmem
      obtain rfl := List.mem_singleton.1 hmem
      rw [hdeparture]
      exact isOneLine_of_nameFlaw (hnamed leaver occupant hoccupant)
  | reclaimAgain => simp at hsent
  | shutdown =>
    obtain ⟨⟨other, client⟩, -, hsent⟩ := List.mem_flatMap.1 hsent
    dsimp only at hsent
    split at hsent
    next =>
      simp only [List.mem_cons, Effect.deliver.injEq, reduceCtorEq, List.not_mem_nil, or_false] at hsent
      obtain ⟨-, rfl⟩ := hsent
      cases hmem
    next => simp at hsent

end Hub

end ChatRooms
