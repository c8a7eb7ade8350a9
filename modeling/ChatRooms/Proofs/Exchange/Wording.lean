import ChatRooms.Proofs.Exchange.Succession
import ChatRooms.Proofs.Hub.Wording

namespace ChatRooms

open Std

/-- Whoever and whatever has a name in the directory has a valid one, and is reached by it. -/
structure Directory.Addressable (directory : Directory) : Prop where
  listed (id : ClientId) (occupant : Occupant) : directory.occupants[id]? = some occupant →
    occupant.nickname ∈ directory.nicknames ∧ occupant.room ∈ directory.rooms
  defaultRoom : directory.defaultRoom ∈ directory.rooms
  nickname (nickname : String) : nickname ∈ directory.nicknames →
    nameFlaw nickname = none ∧ IsProperName nickname ∧
      ∀ body : String, body.toList.getLast? ≠ some '\r' →
        Request.decode ("WHISPER::" ++ nickname ++ ":" ++ body) = .ok (.whisper nickname body)
  room (room : RoomName) : room ∈ directory.rooms →
    nameFlaw room.text = none ∧ IsProperName room.text ∧
      Request.decode ("CMD:join:" ++ room.text ++ ":") = .ok (.command (.join room))

theorem Directory.WellNamed.addressable {directory : Directory} (h : directory.WellNamed)
    (hintact : directory.Intact) : directory.Addressable where
  listed id occupant hid := by
    have hindex := (hintact.indexed occupant.nickname id).2 (nicknameOf?_eq hid)
    exact ⟨Maps.mem_of_getElem? hindex, hintact.housed.mem_of_place (roomOf?_eq hid)⟩
  defaultRoom := hintact.housed.defaultRoom_mem
  nickname nickname hmem := by
    have hname : nameFlaw nickname = none := by
      obtain ⟨id, hid⟩ := Maps.mem_iff_exists.1 hmem
      obtain ⟨occupant, hoccupant, rfl⟩ := Option.map_eq_some_iff.1 ((hintact.indexed nickname id).1 hid)
      exact h id occupant hoccupant
    have hproper := nameFlaw_eq_none_iff.1 hname
    exact ⟨hname, hproper, fun body hbody => Request.decode_whisper hproper hbody⟩
  room room _ := ⟨room.valid, nameFlaw_eq_none_iff.1 room.valid, Request.decode_join room⟩

namespace Floor

variable {settings : Settings} {id : ClientId} {trace : List Happening} {floor : Floor} {hub : Hub}
  {line : String}

theorem Bustle.forwarded_of_handled (h : Bustle settings trace floor)
    (hhandled : .handled hub (.line id line) ∈ trace) : .forwarded id line ∈ trace := by
  have hmem : line ∈ handledLines id trace :=
    List.mem_filterMap.2 ⟨_, hhandled, by simp [Happening.handled?]⟩
  have hforwarded : line ∈ forwardedLines id trace := (h.handled_prefix id).subset hmem
  obtain ⟨happening, hhappening, hline⟩ := List.mem_filterMap.1 hforwarded
  cases happening with
  | forwarded other text =>
    simp only [Happening.forwarded?, Option.ite_none_right_eq_some, Option.some.injEq] at hline
    obtain ⟨rfl, rfl⟩ := hline
    exact hhappening
  | handled | taken => cases hline

theorem Bustle.isOneLine (h : Bustle settings trace floor)
    (hforwarded : ∀ id line, .forwarded id line ∈ trace → IsOneLine line) {post : Post}
    (hpost : post ∈ postsTo id trace) : IsOneLine post.line := by
  obtain ⟨hhandled, hub', effects, hhandle, hsent⟩ := mem_postsTo hpost
  have hreach := (h.sound.heard hhandled).1
  refine (Hub.steps_of_handle hhandle).isOneLine hreach.intact hreach.wellNamed ?_ hsent
  intro other line hevent
  rw [hevent] at hhandled
  exact hforwarded other line (h.forwarded_of_handled hhandled)

/-- Every nickname and every room name in use is a valid one, by which a whisper or a move gets where it
is meant to. As long as no client sends a line break into the hub, none is ever queued for a client, so
that each line goes out as one. -/
theorem Bustle.names_and_lines (h : Bustle settings trace floor) :
    floor.exchange.hub.directory.Addressable ∧
    ((∀ id line, .forwarded id line ∈ trace → IsOneLine line) → ∀ id,
      (∀ post ∈ postsTo id trace, IsOneLine post.line) ∧
      ∀ line ∈ takenLines id trace ++ floor.exchange.queuedFor id,
        IsOneLine line ∧ (Framing.encode line).count Framing.newline = 1) := by
  have hreach := h.sound.exchange.reachable
  refine ⟨hreach.wellNamed.addressable hreach.intact, fun hforwarded id =>
    ⟨fun post hpost => h.isOneLine hforwarded hpost, fun line hmem => ?_⟩⟩
  obtain ⟨post, hpost, rfl⟩ := List.mem_map.1 ((h.received id).subset hmem)
  have hline := h.isOneLine hforwarded hpost
  exact ⟨hline, hline.count_encode⟩

set_option maxRecDepth 20000 in
/-- A client takes a name full of the server's own marks, goes to a room that is made for it, and then
writes what nobody understands. -/
theorem names_and_lines_with_marks : ∃ trace floor, Bustle {} trace floor ∧
    Request.decode "WHISPER::[you]':hi: there" = .ok (.whisper "[you]'" "hi: there") ∧
    (∃ room : RoomName, room.text = "(1)," ∧
      Request.decode "CMD:join:(1),:" = .ok (.command (.join room))) ∧
    floor.exchange.queuedFor 1 = [
      "* welcome guest1! you are in room 'general' (CMD:help:: lists commands)",
      "* your nickname is now '[you]''", "* you are now in room '(1),'",
      "error: InvalidFormat: invalid message format: unknown message type '* [you]'"] ∧
    ∀ line ∈ floor.exchange.queuedFor 1, (Framing.encode line).count Framing.newline = 1 := by
  have step {trace happenings : List Happening} {floor floor' : Floor}
      (before : Bustle {} trace floor) (hstep : Step floor happenings floor') :
      Bustle {} (trace ++ happenings) floor' := before.step hstep
  have h₀ : Bustle {} [] _ := .start rfl
  have h₁ := step h₀ (@Step.connect _ 1 8 _ rfl rfl)
  have h₂ := step h₁ (@Step.post _ (.register 1 none) _ ⟨rfl, fun _ => List.not_mem_nil⟩ rfl)
  have h₃ := step h₂ (@Step.order _ _ _ rfl rfl rfl (by simp))
  have h₄ := step h₃ (@Step.write _ 1 "CMD:nick:[you]':" _ (by decide) rfl rfl rfl)
  have h₅ := step h₄ (@Step.write _ 1 "CMD:join:(1),:" _ (by decide) rfl rfl rfl)
  have h₆ := step h₅ (@Step.write _ 1 "* [you]:a:b" _ (by decide) rfl rfl rfl)
  have h₇ := step h₆ (@Step.answer _ (.queue []) rfl rfl rfl rfl)
  have h₈ := step h₇ (@Step.gather _ _ _ _ _ rfl rfl)
  have h₉ := step h₈ (@Step.gather _ _ _ _ _ rfl rfl)
  have h₁₀ := step h₉ (@Step.gather _ _ _ _ _ rfl rfl)
  have h₁₁ := step h₁₀ (@Step.conclude _ _ _ rfl rfl)
  have h₁₂ := step h₁₁ (@Step.handle _ _ _ rfl rfl)
  have h₁₃ := step h₁₂ (@Step.handle _ _ _ rfl rfl)
  have h₁₄ := step h₁₃ (@Step.handle _ _ _ rfl rfl)
  obtain ⟨haddressable, hlines⟩ := h₁₄.names_and_lines
  have hroom := haddressable.room ⟨"(1),", by decide⟩ (by decide)
  refine ⟨_, _, h₁₄, (haddressable.nickname "[you]'" (by decide)).2.2 "hi: there" (by decide),
    ⟨_, rfl, hroom.2.2⟩, rfl, fun line hmem => ?_⟩
  refine ((hlines (fun id line hforwarded => ?_) 1).2 line (List.mem_append_right _ hmem)).2
  have hannounced (exchange : Exchange) (order : Order) :
      .forwarded id line ∉ exchange.announced order := by
    unfold Exchange.announced
    split <;> simp
  simp only [List.mem_append, List.mem_cons, List.not_mem_nil, or_false, false_or, hannounced,
    Happening.forwarded.injEq, reduceCtorEq] at hforwarded
  rcases hforwarded with (⟨-, rfl⟩ | ⟨-, rfl⟩) | ⟨-, rfl⟩ <;> decide

end Floor

end ChatRooms
