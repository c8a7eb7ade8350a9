import ChatRooms.Proofs.Directory.Return
import ChatRooms.Proofs.Exchange.InPlace
import ChatRooms.Proofs.Hub.Content
import ChatRooms.Proofs.Hub.Parting
import ChatRooms.Proofs.Request.Addressing

namespace ChatRooms.Hub

open Std

variable {hub hub' between after : Hub} {client : Occupant} {id : ClientId} {event : Event}
  {front back events : List Event} {effects first more : List Effect} {text : String}

/-- A line that asks for nothing to be changed, or for what is refused. -/
def Idle (hub : Hub) : Event → Prop
  | .line id text => ∀ client, hub.directory.occupants[id]? = some client → client.isActive = true →
    (∃ request, Request.decode text = .ok request ∧ request.isMutating = false) ∨
      ∃ refusal, orRefuse (Request.decode text) >>= hub.perform client = .error (.refused refusal)
  | _ => False

theorem handleAll_cons (hevent : hub.handle event = .ok (between, first))
    (hevents : between.handleAll events = .ok (after, more)) :
    hub.handleAll (event :: events) = .ok (after, first ++ more) := by
  simp only [handleAll, hevent, hevents, bind, Except.bind, pure, Except.pure]

theorem handleAll_append (hfront : hub.handleAll front = .ok (between, first))
    (hback : between.handleAll back = .ok (after, more)) :
    hub.handleAll (front ++ back) = .ok (after, first ++ more) := by
  induction front generalizing hub first with
  | nil =>
    obtain ⟨rfl, rfl⟩ := Prod.mk.inj (Except.ok.inj hfront)
    exact hback
  | cons event front ih =>
    obtain ⟨next, effects, rest, hnext, hrest, rfl⟩ := Exchange.handleAll_cons_eq_ok hfront
    rw [List.cons_append, List.append_assoc]
    exact handleAll_cons hnext (ih hrest)

theorem handle_line_of_active (h' : hub'.directory.Intact)
    (hid : hub.directory.occupants[id]? = some client) (hactive : client.isActive = true)
    (hrequest : hub.request client text = .ok (hub', effects)) :
    hub.handle (.line id text) = .ok (hub', effects) := by
  rw [handle, hear, hid]
  dsimp only
  rw [if_pos hactive, hrequest, audited_eq h']

namespace Idle

theorem exists_request (h : hub.directory.Intact)
    (hidle : (∃ request, Request.decode text = .ok request ∧ request.isMutating = false) ∨
      ∃ refusal, orRefuse (Request.decode text) >>= hub.perform client = .error (.refused refusal)) :
    ∃ effects, hub.request client text = .ok (hub, effects) := by
  obtain ⟨request, hdecode, hquiet⟩ | ⟨refusal, hrefused⟩ := hidle
  · rw [request_of_decode hdecode]
    cases hperform : hub.perform client request with
    | ok outcome =>
      obtain ⟨hub', effects⟩ := outcome
      obtain rfl := Exchange.eq_of_quiet (performs_of_perform hperform) hquiet
      exact ⟨effects, rfl⟩
    | error stop =>
      cases stop with
      | broken defect => exact absurd hperform (perform_ne_broken h defect)
      | refused refusal => exact ⟨_, rfl⟩
  · -- What is refused has not been begun.
    rw [request, hrefused]
    exact ⟨_, rfl⟩

theorem exists_handle (h : hub.directory.Intact) (hidle : hub.Idle event) :
    ∃ effects, hub.handle event = .ok (hub, effects) := by
  cases event with
  | register | exited | closed | shutdown => exact hidle.elim
  | line id text =>
    by_cases hheard : ∃ client, hub.directory.occupants[id]? = some client ∧ client.isActive = true
    · obtain ⟨client, hid, hactive⟩ := hheard
      obtain ⟨effects, hrequest⟩ := exists_request h (hidle client hid hactive)
      exact ⟨effects, handle_line_of_active h hid hactive hrequest⟩
    · refine ⟨[], handle_line_of_silent h (fun client hid => ?_) text⟩
      rw [← Bool.not_eq_true]
      exact fun hactive => hheard ⟨client, hid, hactive⟩

theorem exists_handleAll (h : hub.directory.Intact) (hidle : ∀ event ∈ events, hub.Idle event) :
    ∃ effects, hub.handleAll events = .ok (hub, effects) := by
  induction events with
  | nil => exact ⟨[], rfl⟩
  | cons event events ih =>
    obtain ⟨effects, hevent⟩ := exists_handle h (hidle event List.mem_cons_self)
    obtain ⟨more, hmore⟩ := ih fun event hmem => hidle event (List.mem_cons_of_mem _ hmem)
    exact ⟨effects ++ more, handleAll_cons hevent hmore⟩

theorem exists_handleAll_concat (h : hub.directory.Intact) (hidle : ∀ event ∈ events, hub.Idle event)
    (hevent : hub.handle event = .ok (after, more)) :
    ∃ effects, hub.handleAll (events ++ [event]) = .ok (after, effects ++ more) := by
  obtain ⟨effects, hevents⟩ := exists_handleAll h hidle
  exact ⟨effects, handleAll_append hevents (Exchange.handleAll_singleton.trans hevent)⟩

end Idle

variable {directory there : Directory} {target origin : RoomName} {create created vacated : Bool}
  {move : Move}

theorem exists_request_join (hmove : hub.directory.move client.id target hub.autoCreateRooms =
      .ok (directory, move)) :
    ∃ effects, hub.request client ("CMD:join:" ++ target.text ++ ":") =
      .ok ({ hub with directory }, effects) := by
  rw [request_of_decode (Request.decode_join target), perform, command, Hub.move, hmove]
  cases move <;> exact ⟨_, rfl⟩

theorem exists_request_leave (hroom : client.room ≠ hub.directory.defaultRoom)
    (hmove : hub.directory.move client.id hub.directory.defaultRoom false =
      .ok (directory, .moved origin hub.directory.defaultRoom created vacated)) :
    ∃ effects, hub.request client "CMD:leave::" = .ok ({ hub with directory },
      effects ++ [.deliver client.id (.moved hub.directory.defaultRoom)]) := by
  have hdecode : Request.decode "CMD:leave::" = .ok (.command .leave) := rfl
  have hleave : hub.command client .leave = hub.move client hub.directory.defaultRoom false :=
    if_neg hroom
  rw [request_of_decode hdecode, perform, hleave, Hub.move, hmove]
  exact ⟨_, rfl⟩

theorem perform_leave_of_default (hroom : client.room = hub.directory.defaultRoom) :
    hub.perform client (.command .leave) =
      .error (.refused (.alreadyDefault hub.directory.defaultRoom.text)) := by
  rw [perform, command]
  exact if_pos hroom

theorem request_leave_of_default (hroom : client.room = hub.directory.defaultRoom) :
    hub.request client "CMD:leave::" = .ok (hub,
      [.deliver client.id (.refused (.alreadyDefault hub.directory.defaultRoom.text))]) := by
  have hdecode : Request.decode "CMD:leave::" = .ok (.command .leave) := rfl
  rw [request_of_decode hdecode, perform_leave_of_default hroom]

/-- A client in the default room that may go to another may also come back. All is as before then, but that
the other room has gone if it stood empty. A client that has come back cannot leave once more. In the hub it
makes no difference what is said in between, or asked for in vain. -/
theorem join_leave_inverse (h : hub.directory.Intact)
    (hid : hub.directory.occupants[id]? = some client)
    (hdefault : client.room = hub.directory.defaultRoom) (htarget : target ≠ hub.directory.defaultRoom)
    (hmove : hub.directory.move id target create = .ok (there, move)) :
    let away := { hub with directory := there }
    let home := { hub with directory := hub.directory.tidy target }
    let join := Event.line id ("CMD:join:" ++ target.text ++ ":")
    let leave := Event.line id "CMD:leave::"
    let refusal := Refusal.alreadyDefault hub.directory.defaultRoom.text
    (∃ vacated, there.move id hub.directory.defaultRoom false =
        .ok (hub.directory.tidy target, .moved target hub.directory.defaultRoom false vacated) ∧
      (vacated = true ↔ ∀ other, hub.directory.roomOf? other ≠ some target)) ∧
    home.perform client (.command .leave) = .error (.refused refusal) ∧
    (client.isActive = true → create = hub.autoCreateRooms →
      (∀ meanwhile, (∀ event ∈ meanwhile, away.Idle event) →
        ∃ effects, hub.handleAll (join :: meanwhile ++ [leave]) =
          .ok (home, effects ++ [.deliver id (.moved hub.directory.defaultRoom)])) ∧
      ∀ later, (∀ event ∈ later, home.Idle event) →
        ∃ effects, home.handleAll (later ++ [leave]) =
          .ok (home, effects ++ [.deliver id (.refused refusal)])) := by
  intro away home join leave refusal
  have hback := h.move_back hid hdefault htarget hmove
  have hthere : away.directory.Intact := h.move hmove
  have hhome : home.directory.Intact := hthere.move hback
  obtain ⟨hsame, hclient⟩ := h.client_of_move_out hid hdefault htarget hmove
  obtain rfl := h.occupant_id hid
  have hstays : client.room = home.directory.defaultRoom := hdefault.trans Directory.defaultRoom_tidy.symm
  have hrefusal : Refusal.alreadyDefault home.directory.defaultRoom.text = refusal := by
    rw [Directory.defaultRoom_tidy]
  refine ⟨⟨_, hback, h.all_isEmpty_iff⟩, ?_, fun hactive hcreate => ⟨fun meanwhile hidle => ?_,
    fun later hidle => ?_⟩⟩
  · rw [perform_leave_of_default hstays, hrefusal]
  · subst hcreate
    -- In between the client is somewhere else, and heard as before.
    let guest : Occupant := { client with room := target }
    have hreturn : away.directory.move guest.id away.directory.defaultRoom false =
        .ok (home.directory, .moved target away.directory.defaultRoom false _) := hsame ▸ hback
    have hout : guest.room ≠ away.directory.defaultRoom := hsame ▸ htarget
    obtain ⟨joined, hjoin⟩ := exists_request_join hmove
    obtain ⟨left, hleave⟩ := exists_request_leave hout hreturn
    rw [hsame] at hleave
    obtain ⟨said, hsaid⟩ := Idle.exists_handleAll_concat hthere hidle
      (handle_line_of_active hhome hclient hactive hleave)
    have hall := handleAll_cons (handle_line_of_active hthere hid hactive hjoin) hsaid
    rw [← List.append_assoc, ← List.append_assoc] at hall
    exact ⟨joined ++ said ++ left, hall⟩
  · have hthere' : home.directory.occupants[client.id]? = some client := by
      rw [Directory.occupants_tidy, hid]
    have hleave := request_leave_of_default hstays
    rw [hrefusal] at hleave
    exact Idle.exists_handleAll_concat hhome hidle
      (handle_line_of_active hhome hthere' hactive hleave)

set_option maxRecDepth 20000 in
/-- One guest has a look into a room that stands empty, while the other chats and asks in vain for a room to
be removed. The empty room is the one thing that is missed afterwards. -/
theorem join_leave_inverse_empty_room :
    ∃ (ops : RoomName) (hub home : Hub) (effects more : List Effect), Reachable {} hub ∧
      ops.text = "ops" ∧ hub.directory.isVacant ops = true ∧
      hub.handleAll [.line 1 ("CMD:join:" ++ ops.text ++ ":"), .line 2 "CHAT:guest2:general:hello",
          .line 2 "CMD:rm:dev:", .line 1 "CMD:leave::"] =
        .ok (home, effects ++ [.deliver 1 (.moved hub.directory.defaultRoom)]) ∧
      home.directory.occupants = hub.directory.occupants ∧ home.directory.hasRoom ops = false ∧
      home.handleAll [.line 1 "CMD:leave::"] = .ok (home,
        more ++ [.deliver 1 (.refused (.alreadyDefault hub.directory.defaultRoom.text))]) := by
  have run {hub hub' : Hub} {effects : List Effect} (h : Reachable {} hub) (event : Event)
      (hadmits : hub.Admits event) (hhandle : hub.handle event = .ok (hub', effects)) :
      Reachable {} hub' := .step h hadmits hhandle
  have h₀ : Reachable {} (.start {} ⟨"general", by decide⟩) := .start rfl
  have h₁ := run h₀ (.register 1 none) (by decide) rfl
  have h₂ := run h₁ (.register 2 none) (by decide) rfl
  have h₃ := run h₂ (.line 2 "CMD:add:ops:") trivial rfl
  obtain ⟨ops, dev, hub, there, client, move, hreached, hops, hid, hdefault, hactive, htarget, hvacant,
      hmove, hauto, hdecode, hdev⟩ :
      ∃ (ops dev : RoomName) (hub : Hub) (there : Directory) (client : Occupant) (move : Move),
        Reachable {} hub ∧ ops.text = "ops" ∧ hub.directory.occupants[(1 : ClientId)]? = some client ∧
        client.room = hub.directory.defaultRoom ∧ client.isActive = true ∧
        ops ≠ hub.directory.defaultRoom ∧ hub.directory.isVacant ops = true ∧
        hub.directory.move 1 ops true = .ok (there, move) ∧ true = hub.autoCreateRooms ∧
        Request.decode "CMD:rm:dev:" = .ok (.command (.remove dev)) ∧
        there.removeRoom dev = .error (.roomNotFound "dev") :=
    ⟨⟨"ops", by decide⟩, ⟨"dev", by decide⟩, _, _, _, _, h₃, rfl, rfl, rfl, rfl, by decide, by decide, rfl,
      rfl, rfl, rfl⟩
  obtain ⟨-, -, hruns⟩ := join_leave_inverse hreached.intact hid hdefault htarget hmove
  obtain ⟨hthereAndBack, honceMore⟩ := hruns hactive hauto
  have hidle : ∀ event ∈ [Event.line 2 "CHAT:guest2:general:hello", .line 2 "CMD:rm:dev:"],
      { hub with directory := there }.Idle event := by
    rw [List.forall_mem_cons, List.forall_mem_singleton]
    refine ⟨fun _ _ _ => Or.inl ⟨.chat "hello", rfl, rfl⟩, fun other _ _ => Or.inr ⟨.roomNotFound "dev", ?_⟩⟩
    rw [hdecode]
    exact congrArg (confirm _ other (.roomRemoved dev)) hdev
  obtain ⟨effects, hback⟩ := hthereAndBack _ hidle
  obtain ⟨more, hleave⟩ := honceMore [] nofun
  refine ⟨ops, hub, _, effects, more, hreached, hops, hvacant, hback, Directory.occupants_tidy, ?_, hleave⟩
  rw [← Bool.not_eq_true, Directory.hasRoom_iff]
  apply Maps.not_mem_of_getElem?
  rw [Directory.getElem?_rooms_tidy, if_pos ⟨rfl, hvacant⟩]

end ChatRooms.Hub
