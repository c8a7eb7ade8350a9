import ChatRooms.Proofs.Exchange.Delivery
import ChatRooms.Proofs.Hub.Authors
import ChatRooms.Proofs.Hub.Entry
import ChatRooms.Proofs.Intake.Visiting

namespace ChatRooms

open Std

def Effect.isFor (id : ClientId) : Effect → Bool
  | deliver other _ => other = id
  | hangUp other => other = id
  | attach _ | detach _ => false

def Notice.isParting : Notice → Bool
  | goodbye | shuttingDown => true
  | _ => false

theorem Outbox.foldl_absorb_filter (id : ClientId) (effects : List Effect) (outbox : Outbox) :
    (effects.filter (Effect.isFor id)).foldl (absorb id) outbox =
      effects.foldl (absorb id) outbox := by
  induction effects generalizing outbox with
  | nil => rfl
  | cons effect effects ih =>
    rw [List.filter_cons, List.foldl_cons]
    split
    next => rw [List.foldl_cons, ih]
    next hother =>
      have hkept : outbox.absorb id effect = outbox := by
        cases effect <;> simp_all [Effect.isFor, absorb]
      rw [ih, hkept]

theorem noticesFor_filter (id : ClientId) (effects : List Effect) :
    noticesFor id (effects.filter (Effect.isFor id)) = noticesFor id effects := by
  rw [noticesFor, List.filterMap_filter, noticesFor]
  congr 1
  funext effect
  cases effect <;> simp [Effect.isFor, Effect.noticeFor]

namespace Hub

variable {hub hub' : Hub} {client client' : Occupant} {request : Request} {event : Event}
  {effects : List Effect} {id : ClientId} {notice : Notice}

theorem seats_of_mem_broadcast {directory : Directory} {room : RoomName} {told : Notice}
    {spared : Option ClientId} (h : directory.Intact)
    (hmem : .deliver id notice ∈ broadcast directory room told spared) : directory.Seats id room := by
  obtain ⟨member, hmember, hroom, hactive, -, heq⟩ := (mem_broadcast h).1 hmem
  obtain ⟨rfl, rfl⟩ := Effect.deliver.inj heq
  exact ⟨member, hmember, hactive, hroom⟩

/-- Whoever is told something in answer to a request has a seat before it or after it. -/
theorem Performs.exists_seat (hstep : Performs hub client request hub' effects)
    (hintact : hub.directory.Intact) (hid : hub.directory.occupants[client.id]? = some client)
    (hactive : client.isActive = true) (hmem : .deliver id notice ∈ effects) :
    ∃ room, hub.directory.Seats id room ∨ hub'.directory.Seats id room := by
  have hself {told : Notice} (hmem : Effect.deliver id notice ∈ [.deliver client.id told]) :
      ∃ room, hub.directory.Seats id room ∨ hub'.directory.Seats id room := by
    obtain ⟨rfl, -⟩ := Effect.deliver.inj (List.mem_singleton.1 hmem)
    exact ⟨client.room, Or.inl ⟨client, hid, hactive, rfl⟩⟩
  have hintact' := hstep.intact hintact
  cases hstep with
  | chat => exact ⟨_, Or.inl (seats_of_mem_broadcast hintact hmem)⟩
  | @whisper target body hearer hfound hheard =>
    rcases List.mem_cons.1 hmem with hmem | hmem
    · obtain ⟨rfl, -⟩ := Effect.deliver.inj hmem
      obtain ⟨other, -, hother⟩ := Option.bind_eq_some_iff.1 hfound
      obtain rfl := hintact.occupant_id hother
      exact ⟨hearer.room, Or.inl ⟨hearer, hother, hheard, rfl⟩⟩
    · exact hself hmem
  | move =>
    rcases List.mem_append.1 hmem with hmem | hmem
    · rcases List.mem_append.1 hmem with hmem | hmem
      · split at hmem
        next => cases hmem
        next => exact ⟨_, Or.inr (seats_of_mem_broadcast hintact' hmem)⟩
      · exact ⟨_, Or.inr (seats_of_mem_broadcast hintact' hmem)⟩
    · exact hself hmem
  | nickname =>
    rcases List.mem_cons.1 hmem with hmem | hmem
    · exact hself (List.mem_singleton.2 hmem)
    · exact ⟨_, Or.inr (seats_of_mem_broadcast hintact' hmem)⟩
  | quit =>
    rcases List.mem_cons.1 hmem with hmem | hmem
    · exact hself (List.mem_singleton.2 hmem)
    · simp at hmem
  | add | remove | stay | list | users | keepNickname | help => exact hself hmem

theorem Steps.exists_seat (hstep : Steps hub event hub' effects) (hintact : hub.directory.Intact)
    (hadmits : hub.Admits event) (hmem : .deliver id notice ∈ effects) :
    (∃ room, hub.directory.Seats id room) ∨ ∃ peer, event = .register id peer := by
  have hintact' := hstep.intact hintact hadmits
  -- Whoever hears of a step has a seat before it, except a newcomer, who gets one in it.
  have hafter {room : RoomName} (hseat : hub'.directory.Seats id room) :
      (∃ room, hub.directory.Seats id room) ∨ ∃ peer, event = .register id peer :=
    hstep.seats hintact hseat
  cases hstep with
  | ignore => cases hmem
  | @refuse _ _ client _ hid hactive _ =>
    obtain rfl := hintact.occupant_id hid
    obtain ⟨rfl, -⟩ := Effect.deliver.inj (List.mem_singleton.1 hmem)
    exact Or.inl ⟨client.room, client, hid, hactive, rfl⟩
  | perform hid hactive _ hperform =>
    obtain rfl := hintact.occupant_id hid
    obtain ⟨room, hseat | hseat⟩ := hperform.exists_seat hintact hid hactive hmem
    · exact Or.inl ⟨room, hseat⟩
    · exact hafter hseat
  | @welcome newcomer peer =>
    simp only [List.mem_cons, reduceCtorEq, false_or, Effect.deliver.injEq] at hmem
    rcases hmem with ⟨rfl, -⟩ | hmem
    · exact Or.inr ⟨peer, rfl⟩
    · exact hafter (seats_of_mem_broadcast hintact' hmem)
  | turnAway => simp at hmem
  | reclaim =>
    simp only [List.mem_cons, reduceCtorEq, false_or] at hmem
    split at hmem
    next => cases hmem
    next => exact hafter (seats_of_mem_broadcast hintact' hmem)
  | reclaimAgain => simp at hmem
  | shutdown =>
    obtain ⟨⟨other, client⟩, hother, hmem⟩ := List.mem_flatMap.1 hmem
    dsimp only at hmem
    split at hmem
    next hactive =>
      simp only [List.mem_cons, Effect.deliver.injEq, reduceCtorEq, List.not_mem_nil,
        or_false] at hmem
      obtain ⟨rfl, -⟩ := hmem
      have hid := ExtTreeMap.mem_toList_iff_getElem?_eq_some.1 hother
      exact Or.inl ⟨client.room, client, hid, hactive, rfl⟩
    next => simp at hmem

/-- What a client gets when the server closes. -/
def farewell (id : ClientId) (client : Occupant) : List Effect :=
  if client.isActive then [.deliver id .shuttingDown, .hangUp id] else [.hangUp id]

theorem filter_farewell (id : ClientId) (client : Occupant) :
    (farewell id client).filter (Effect.isFor id) = farewell id client := by
  unfold farewell
  split <;> simp [Effect.isFor]

theorem filter_farewell_of_ne {other : ClientId} (h : other ≠ id) (client : Occupant) :
    (farewell other client).filter (Effect.isFor id) = [] := by
  unfold farewell
  split <;> simp [Effect.isFor, h]

theorem filter_closeAll (hub : Hub) (id : ClientId) : hub.closeAll.2.filter (Effect.isFor id) =
    (hub.directory.occupants[id]?.map (farewell id)).getD [] := by
  show (hub.directory.occupants.toList.flatMap fun entry => farewell entry.1 entry.2).filter _ = _
  rw [List.filter_flatMap]
  cases hid : hub.directory.occupants[id]? with
  | none =>
    rw [Option.map_none, Option.getD_none, List.flatMap_eq_nil_iff]
    rintro ⟨other, client⟩ hother
    refine filter_farewell_of_ne ?_ client
    rintro rfl
    cases hid.symm.trans (ExtTreeMap.mem_toList_iff_getElem?_eq_some.1 hother)
  | some client =>
    have hmem : (id, client) ∈ hub.directory.occupants.toList :=
      ExtTreeMap.mem_toList_iff_getElem?_eq_some.2 hid
    have hnodup : hub.directory.occupants.toList.Nodup := by
      refine ExtTreeMap.distinct_keys_toList.imp fun hne heq => hne ?_
      rw [heq]
      exact Std.compare_eq_iff_eq.2 rfl
    -- The other entries are for others, so nothing of them is left.
    have honly : ∀ entry ∈ hub.directory.occupants.toList,
        (farewell entry.1 entry.2).filter (Effect.isFor id) =
          if entry = (id, client) then farewell id client else [] := by
      rintro ⟨other, found⟩ hother
      split
      next heq =>
        obtain ⟨rfl, rfl⟩ := Prod.mk.inj heq
        exact filter_farewell other found
      next hne =>
        refine filter_farewell_of_ne ?_ found
        rintro rfl
        have hfound := ExtTreeMap.mem_toList_iff_getElem?_eq_some.1 hother
        exact hne (by rw [Option.some.inj (hfound.symm.trans hid)])
    rw [List.flatMap_congr honly, Sweeper.flatMap_eq_of_mem hnodup hmem fun entry hne => if_neg hne,
      if_pos rfl, Option.map_some, Option.getD_some]

theorem noticesFor_closeAll (hub : Hub) (id : ClientId) : noticesFor id hub.closeAll.2 =
    if hub.directory.occupants[id]?.any Occupant.isActive then [.shuttingDown] else [] := by
  rw [← noticesFor_filter, filter_closeAll]
  cases hub.directory.occupants[id]? with
  | none => rfl
  | some client =>
    rw [Option.map_some, Option.getD_some, farewell, Option.any_some]
    split <;> simp

theorem Steps.hangUp_mem (hstep : Steps hub event hub' effects) (hintact : hub.directory.Intact)
    (hadmits : hub.Admits event) (hid : hub.directory.occupants[id]? = some client)
    (hactive : client.isActive = true) (hid' : hub'.directory.occupants[id]? = some client')
    (hsilent : client'.isActive = false) : .hangUp id ∈ effects := by
  rcases hstep.entry hintact hadmits hid with
    hsame | ⟨line, request, -, -, -, hperform, found, hfound, hbecomes⟩ | ⟨-, hnone⟩ | ⟨rfl, -⟩
  · obtain rfl := Option.some.inj (hsame.symm.trans hid')
    cases hactive.symm.trans hsilent
  · obtain rfl := Option.some.inj (hfound.symm.trans hid')
    rcases hbecomes with ⟨hstill, -⟩ | ⟨-, rfl⟩
    · cases hstill.symm.trans hsilent
    · obtain rfl := hintact.occupant_id hid
      cases hperform with
      | stay hcommand | move hcommand => rcases hcommand with ⟨h, -⟩ | ⟨h, -⟩ <;> cases h
      | quit => simp
  · cases hnone.symm.trans hid'
  · cases hstep with
    | reclaim hevent | reclaimAgain hevent => simp at hevent
    | shutdown =>
      have hmem : .hangUp id ∈ hub.closeAll.2.filter (Effect.isFor id) := by
        rw [filter_closeAll, hid, Option.map_some, Option.getD_some, farewell, if_pos hactive]
        simp
      exact (List.mem_filter.1 hmem).1

theorem isParting_of_mem_broadcast {directory : Directory} {room : RoomName} {told : Notice}
    {spared : Option ClientId} (hmem : .deliver id notice ∈ broadcast directory room told spared)
    (hparting : notice.isParting = true) : told.isParting = true := by
  obtain rfl := eq_of_deliver_mem_broadcast hmem
  exact hparting

theorem isParting_of_mem_singleton {other : ClientId} {told : Notice}
    (hmem : Effect.deliver id notice ∈ [.deliver other told]) (hparting : notice.isParting = true) :
    told.isParting = true := by
  obtain ⟨-, rfl⟩ := Effect.deliver.inj (List.mem_singleton.1 hmem)
  exact hparting

theorem Performs.of_parting (hstep : Performs hub client request hub' effects)
    (hmem : .deliver id notice ∈ effects) (hparting : notice.isParting = true) :
    notice = .goodbye ∧ id = client.id ∧ effects = [.deliver id .goodbye, .hangUp id] ∧
      request = .command .quit := by
  cases hstep with
  | chat => cases isParting_of_mem_broadcast hmem hparting
  | whisper =>
    rcases List.mem_cons.1 hmem with hmem | hmem
    · cases isParting_of_mem_singleton (List.mem_singleton.2 hmem) hparting
    · cases isParting_of_mem_singleton hmem hparting
  | move =>
    rcases List.mem_append.1 hmem with hmem | hmem
    · rcases List.mem_append.1 hmem with hmem | hmem
      · split at hmem
        next => cases hmem
        next => cases isParting_of_mem_broadcast hmem hparting
      · cases isParting_of_mem_broadcast hmem hparting
    · cases isParting_of_mem_singleton hmem hparting
  | nickname =>
    rcases List.mem_cons.1 hmem with hmem | hmem
    · cases isParting_of_mem_singleton (List.mem_singleton.2 hmem) hparting
    · cases isParting_of_mem_broadcast hmem hparting
  | quit =>
    rcases List.mem_cons.1 hmem with hmem | hmem
    · obtain ⟨rfl, rfl⟩ := Effect.deliver.inj hmem
      exact ⟨rfl, rfl, rfl, rfl⟩
    · simp at hmem
  | add | remove | stay | list | users | keepNickname | help =>
    cases isParting_of_mem_singleton hmem hparting

theorem Steps.of_parting (hstep : Steps hub event hub' effects) (hintact : hub.directory.Intact)
    (hmem : .deliver id notice ∈ effects) (hparting : notice.isParting = true) :
    noticesFor id effects = [notice] ∧ id ∈ hub.directory.occupants ∧
      ∀ client', hub'.directory.occupants[id]? = some client' → client'.isActive = false := by
  cases hstep with
  | ignore => cases hmem
  | refuse => cases isParting_of_mem_singleton hmem hparting
  | perform hid hactive _ hperform =>
    obtain rfl := hintact.occupant_id hid
    obtain ⟨rfl, rfl, heffects, rfl⟩ := hperform.of_parting hmem hparting
    refine ⟨by rw [heffects]; simp, Maps.mem_of_getElem? hid, fun client' hid' => ?_⟩
    obtain ⟨found, hfound, ⟨-, hother⟩ | ⟨rfl, -⟩⟩ := hperform.exists_entry hintact hid hactive
    · exact absurd rfl hother
    · obtain rfl := Option.some.inj (hfound.symm.trans hid')
      rfl
  | welcome =>
    simp only [List.mem_cons, reduceCtorEq, false_or] at hmem
    rcases hmem with hmem | hmem
    · cases isParting_of_mem_singleton (List.mem_singleton.2 hmem) hparting
    · cases isParting_of_mem_broadcast hmem hparting
  | turnAway => simp at hmem
  | reclaim =>
    simp only [List.mem_cons, reduceCtorEq, false_or] at hmem
    split at hmem
    next => cases hmem
    next => cases isParting_of_mem_broadcast hmem hparting
  | reclaimAgain => simp at hmem
  | shutdown =>
    have hdue := mem_noticesFor.2 hmem
    rw [noticesFor_closeAll] at hdue ⊢
    split at hdue
    next hactive =>
      obtain rfl := List.mem_singleton.1 hdue
      obtain ⟨client, hid, -⟩ := (Option.any_eq_true _ _).1 hactive
      refine ⟨if_pos hactive, Maps.mem_of_getElem? hid, fun client' hid' => ?_⟩
      simp only [closeAll, Directory.hangUpAll, ExtTreeMap.getElem?_map,
        Option.map_eq_some_iff] at hid'
      obtain ⟨found, -, rfl⟩ := hid'
      rfl
    next => cases hdue

theorem Steps.noticesFor_of_reclaim (hstep : Steps hub event hub' effects)
    (hintact : hub.directory.Intact) (hadmits : hub.Admits event)
    (hevent : event = .exited id ∨ event = .closed id) : noticesFor id effects = [] := by
  have hintact' := hstep.intact hintact hadmits
  have hgone : id ∉ hub'.directory.occupants := by
    rw [hstep.mem_occupants_iff hintact]
    rcases hevent with rfl | rfl <;> simp
  apply noticesFor_eq_nil
  intro notice hmem
  cases hstep with
  | ignore | refuse | perform | welcome | turnAway | shutdown => simp at hevent
  | reclaim =>
    simp only [List.mem_cons, reduceCtorEq, false_or] at hmem
    split at hmem
    next => cases hmem
    next =>
      obtain ⟨member, hmember, -⟩ := seats_of_mem_broadcast hintact' hmem
      exact hgone (Maps.mem_of_getElem? hmember)
  | reclaimAgain => simp at hmem

theorem handle_line_of_silent (hintact : hub.directory.Intact)
    (hsilent : ∀ client, hub.directory.occupants[id]? = some client → client.isActive = false)
    (line : String) : hub.handle (.line id line) = .ok (hub, []) := by
  have hhear : hub.hear id line = .ok (hub, []) := by
    unfold hear
    split
    next client hid => rw [if_neg (Bool.eq_false_iff.1 (hsilent client hid))]
    next => rfl
  rw [handle, hhear, audited_eq hintact]

end Hub

end ChatRooms
