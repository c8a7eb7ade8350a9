import ChatRooms.Proofs.Directory.Houses
import ChatRooms.Proofs.Hub.Hearing
import ChatRooms.Proofs.Hub.Nicknames
import ChatRooms.Proofs.Notice.Authorship

namespace ChatRooms

open Std

namespace Hub

variable {hub hub' : Hub} {client occupant : Occupant} {request : Request} {event : Event}
  {effects : List Effect} {id : ClientId} {room : RoomName} {nickname text sender body : String}
  {notice : Notice}

/-- The event is a line by which an active client makes the request. -/
def Asks (hub : Hub) (event : Event) (client : Occupant) (request : Request) : Prop :=
  ∃ line, event = .line client.id line ∧ Request.decode line = .ok request ∧
    hub.directory.occupants[client.id]? = some client ∧ client.isActive = true

/-- Nothing in the notice is forged: what it says somebody has said, that client has asked the hub to say
there and then. -/
structure Vouches (hub : Hub) (event : Event) (id : ClientId) (notice : Notice) : Prop where
  chat {room : RoomName} {nickname text : String} : notice = .chat room nickname text →
    ∃ client, hub.Asks event client (.chat text) ∧ client.nickname = nickname ∧ client.room = room ∧
      hub.directory.Seats id room
  whisper {sender body : String} : notice = .whisperFrom sender body →
    ∃ client target, hub.Asks event client (.whisper target body) ∧ client.nickname = sender ∧
      hub.directory.nicknameOf? id = some target

theorem Vouches.of_star (h : notice.mark = '*') : hub.Vouches event id notice where
  chat := by
    rintro room nickname text rfl
    have hbracket : '[' = '*' := h
    exact absurd hbracket (by decide)
  whisper := by
    rintro sender body rfl
    have hbracket : '[' = '*' := h
    exact absurd hbracket (by decide)

theorem eq_of_deliver_mem_broadcast {directory : Directory} {spared : Option ClientId} {told : Notice}
    (hmem : .deliver id notice ∈ broadcast directory room told spared) : notice = told := by
  obtain ⟨member, -, heq⟩ := List.mem_map.1 hmem
  exact (Effect.deliver.inj heq).2.symm

theorem Asks.vouches_chat (hasks : hub.Asks event client (.chat text)) (hintact : hub.directory.Intact)
    (hmem : .deliver id notice ∈ hub.chat client text) : hub.Vouches event id notice := by
  obtain ⟨member, hmember, hroom, hactive, -, heq⟩ := (mem_broadcast hintact).1 hmem
  obtain ⟨rfl, rfl⟩ := Effect.deliver.inj heq
  refine ⟨fun hnotice => ?_, nofun⟩
  obtain ⟨rfl, rfl, rfl⟩ := Notice.chat.inj hnotice
  exact ⟨client, hasks, rfl, rfl, member, hmember, hactive, hroom⟩

theorem Asks.vouches_whisper {target : String} {hearer : Occupant}
    (hasks : hub.Asks event client (.whisper target body)) (hintact : hub.directory.Intact)
    (hfound : hub.directory.findByNickname? target = some hearer)
    (hmem : Effect.deliver id notice ∈ [.deliver hearer.id (.whisperFrom client.nickname body),
      .deliver client.id (.whisperTo target body)]) : hub.Vouches event id notice := by
  rcases List.mem_cons.1 hmem with hheard | hconfirmed
  · obtain ⟨rfl, rfl⟩ := Effect.deliver.inj hheard
    refine ⟨nofun, fun hnotice => ?_⟩
    obtain ⟨rfl, rfl⟩ := Notice.whisperFrom.inj hnotice
    exact ⟨client, target, hasks, rfl, (hintact.nicknameOf?_eq_iff hfound).2 rfl⟩
  · obtain rfl := (Effect.deliver.inj (List.mem_singleton.1 hconfirmed)).2
    exact ⟨nofun, nofun⟩

theorem Performs.vouches (hstep : Performs hub client request hub' effects)
    (hintact : hub.directory.Intact) (hasks : hub.Asks event client request)
    (hmem : .deliver id notice ∈ effects) : hub.Vouches event id notice := by
  have hself {told : Notice} (hmark : told.mark = '*')
      (hmem : Effect.deliver id notice ∈ [.deliver client.id told]) : hub.Vouches event id notice := by
    obtain rfl := (Effect.deliver.inj (List.mem_singleton.1 hmem)).2
    exact .of_star hmark
  have heard {directory : Directory} {room : RoomName} {told : Notice} {spared : Option ClientId}
      (hmark : told.mark = '*') (hmem : .deliver id notice ∈ broadcast directory room told spared) :
      hub.Vouches event id notice := by
    obtain rfl := eq_of_deliver_mem_broadcast hmem
    exact .of_star hmark
  cases hstep with
  | chat text => exact hasks.vouches_chat hintact hmem
  | whisper hfound _ => exact hasks.vouches_whisper hintact hfound hmem
  | move =>
    rcases List.mem_append.1 hmem with hmem | hmem
    · rcases List.mem_append.1 hmem with hmem | hmem
      · split at hmem
        next => cases hmem
        next => exact heard rfl hmem
      · exact heard rfl hmem
    · exact hself rfl hmem
  | nickname =>
    rcases List.mem_cons.1 hmem with hmem | hmem
    · exact hself rfl (List.mem_singleton.2 hmem)
    · exact heard rfl hmem
  | quit =>
    rcases List.mem_cons.1 hmem with hmem | hmem
    · exact hself rfl (List.mem_singleton.2 hmem)
    · simp at hmem
  | add | remove | stay | list | users | keepNickname | help => exact hself rfl hmem

theorem Steps.vouches (hstep : Steps hub event hub' effects) (hintact : hub.directory.Intact)
    (hmem : .deliver id notice ∈ effects) : hub.Vouches event id notice := by
  cases hstep with
  | ignore => cases hmem
  | refuse =>
    obtain rfl := (Effect.deliver.inj (List.mem_singleton.1 hmem)).2
    exact ⟨nofun, nofun⟩
  | perform hid hactive hdecode hperform =>
    obtain rfl := hintact.occupant_id hid
    exact hperform.vouches hintact ⟨_, rfl, hdecode, hid, hactive⟩ hmem
  | welcome =>
    simp only [List.mem_cons, reduceCtorEq, false_or, Effect.deliver.injEq] at hmem
    rcases hmem with ⟨-, rfl⟩ | hmem
    · exact .of_star rfl
    · obtain rfl := eq_of_deliver_mem_broadcast hmem
      exact .of_star rfl
  | turnAway => simp at hmem
  | reclaim =>
    simp only [List.mem_cons, reduceCtorEq, false_or] at hmem
    split at hmem
    next => cases hmem
    next =>
      obtain rfl := eq_of_deliver_mem_broadcast hmem
      exact .of_star rfl
  | reclaimAgain => simp at hmem
  | shutdown =>
    obtain ⟨⟨other, client⟩, -, hmem⟩ := List.mem_flatMap.1 hmem
    dsimp only at hmem
    split at hmem
    next =>
      simp only [List.mem_cons, Effect.deliver.injEq, reduceCtorEq, List.not_mem_nil, or_false] at hmem
      obtain ⟨-, rfl⟩ := hmem
      exact .of_star rfl
    next => simp at hmem

theorem Vouches.isSigned (h : hub.Vouches event id notice) (hnamed : hub.directory.WellNamed) :
    notice.IsSigned := by
  cases notice with
  | chat room nickname text =>
    obtain ⟨client, ⟨_, _, _, hid, _⟩, rfl, -, -⟩ := h.chat rfl
    exact hnamed client.id client hid
  | whisperFrom sender body =>
    obtain ⟨client, _, ⟨_, _, _, hid, _⟩, rfl, -⟩ := h.whisper rfl
    exact hnamed client.id client hid
  | _ => trivial

theorem Vouches.of_chat_line (h : hub.Vouches event id notice) (hnamed : hub.directory.WellNamed)
    (hname : nameFlaw nickname = none)
    (hline : notice.line = "[" ++ room.text ++ "] " ++ nickname ++ ": " ++ text) :
    ∃ client, hub.Asks event client (.chat text) ∧ client.nickname = nickname ∧ client.room = room ∧
      hub.directory.Seats id room :=
  h.chat (Notice.eq_chat_of_line (h.isSigned hnamed) hname hline)

theorem Vouches.of_whisper_line (h : hub.Vouches event id notice) (hnamed : hub.directory.WellNamed)
    (hname : nameFlaw sender = none) (hline : notice.line = "[whisper from " ++ sender ++ "] " ++ body) :
    ∃ client target, hub.Asks event client (.whisper target body) ∧ client.nickname = sender ∧
      hub.directory.nicknameOf? id = some target :=
  h.whisper (Notice.eq_whisperFrom_of_line (h.isSigned hnamed) hname hline)

end Hub

end ChatRooms
