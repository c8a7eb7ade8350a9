import ChatRooms.Proofs.Directory.Change
import ChatRooms.Proofs.Directory.Houses
import ChatRooms.Proofs.Hub.Hearing
import ChatRooms.Proofs.Hub.Integrity

namespace ChatRooms

open Std

namespace Hub

/-- What is only for the client that asked. -/
def dueToSelf (client : Occupant) (id : ClientId) (notice : Notice) : List Notice :=
  if id = client.id then [notice] else []

/-- Those who stay behind and those who are there already hear of a move. -/
def dueOfMove (hub : Hub) (client : Occupant) (target : RoomName) (id : ClientId) : List Notice :=
  if client.room = target then dueToSelf client id (.alreadyIn target)
  else if id = client.id then [.moved target]
  else
    (if hub.directory.Seats id client.room then [.left client.nickname client.room] else []) ++
      if hub.directory.Seats id target then [.joined client.nickname target] else []

def dueOfRename (hub : Hub) (client : Occupant) (nickname : String) (id : ClientId) : List Notice :=
  if id = client.id then [.nicknameSet nickname]
  else if client.nickname ≠ nickname ∧ hub.directory.Seats id client.room then
    [.renamed client.nickname nickname]
  else []

/-- What a client is due to hear of a request that succeeds. -/
def dueOfSuccess (hub : Hub) (client : Occupant) (id : ClientId) : Request → List Notice
  | .chat text =>
    if hub.directory.Seats id client.room ∧ (id = client.id → hub.echoChatToSender = true) then
      [.chat client.room client.nickname text]
    else []
  | .whisper target body =>
    (if hub.directory.nicknameOf? id = some target then [.whisperFrom client.nickname body] else []) ++
      dueToSelf client id (.whisperTo target body)
  | .command (.add room) => dueToSelf client id (.roomCreated room)
  | .command (.remove room) => dueToSelf client id (.roomRemoved room)
  | .command (.join target) => hub.dueOfMove client target id
  | .command .leave => hub.dueOfMove client hub.directory.defaultRoom id
  | .command .list => dueToSelf client id (.roomList hub.directory.roomSummaries)
  | .command .users =>
    dueToSelf client id (.userList client.room (hub.directory.nicknamesIn client.room))
  | .command (.nickname nickname) => hub.dueOfRename client nickname id
  | .command .quit => dueToSelf client id .goodbye
  | .command .help => dueToSelf client id .help

def objection? (hub : Hub) (client : Occupant) : Request → Option Refusal
  | .chat _ => none
  | .whisper target _ => if hub.directory.HasPresent target then none else some (.userNotFound target)
  | .command command =>
    match hub.command client command with
    | .error (.refused refusal) => some refusal
    | _ => none

/-- What a client is due to hear of a line from another, or from itself. -/
def due (hub : Hub) (client : Occupant) (line : String) (id : ClientId) : List Notice :=
  match Request.decode line with
  | .error refusal => dueToSelf client id (.refused refusal)
  | .ok request =>
    match hub.objection? client request with
    | some refusal => dueToSelf client id (.refused refusal)
    | none => hub.dueOfSuccess client id request

variable {hub hub' : Hub} {client occupant : Occupant} {request : Request} {effects : List Effect}
  {id other : ClientId} {directory directory' : Directory} {room : RoomName} {notice : Notice}
  {spared : Option ClientId}

theorem noticesFor_single : noticesFor id [.deliver client.id notice] = dueToSelf client id notice := by
  simp only [noticesFor, dueToSelf, List.filterMap_cons, List.filterMap_nil, Effect.noticeFor, eq_comm]
  split <;> simp_all

theorem noticesFor_broadcast_seats (h : directory.Intact) :
    noticesFor id (broadcast directory room notice spared) =
      if directory.Seats id room ∧ some id ≠ spared then [notice] else [] := by
  split
  next hseat =>
    obtain ⟨⟨occupant, hid, hactive, hroom⟩, hspared⟩ := hseat
    exact noticesFor_broadcast h hid hactive hroom hspared
  next hseat =>
    apply noticesFor_eq_nil
    intro found hmem
    obtain ⟨member, hmember, hroom, hactive, hspared, heq⟩ := (mem_broadcast h).1 hmem
    obtain rfl := (Effect.deliver.inj heq).1
    exact hseat ⟨⟨member, hmember, hactive, hroom⟩, hspared⟩

/-- Nothing but hanging up comes after hanging up. -/
def HangsUpLast (effects : List Effect) : Prop :=
  ∃ first last, effects = first ++ last ∧ (∀ id, Effect.hangUp id ∉ first) ∧
    ∀ effect ∈ last, ∃ id, effect = .hangUp id

theorem hangsUpLast_of_not_mem (h : ∀ id, Effect.hangUp id ∉ effects) : HangsUpLast effects :=
  ⟨effects, [], (List.append_nil _).symm, h, fun _ hmem => absurd hmem List.not_mem_nil⟩

theorem Performs.hangsUpLast (hstep : Performs hub client request hub' effects) :
    HangsUpLast effects := by
  cases hstep with
  | quit => exact ⟨[_], [_], rfl, by simp, by simp⟩
  | chat => exact hangsUpLast_of_not_mem fun id => hangUp_not_mem_broadcast
  | move =>
    refine hangsUpLast_of_not_mem fun id => ?_
    split <;> simp [hangUp_not_mem_broadcast]
  | nickname => exact hangsUpLast_of_not_mem fun id => by simp [hangUp_not_mem_broadcast]
  | whisper | add | remove | stay | list | users | keepNickname | help =>
    exact hangsUpLast_of_not_mem fun id => by simp

variable (hintact : hub.directory.Intact) (hid : hub.directory.occupants[client.id]? = some client)

include hintact hid

theorem noticesFor_move {target origin : RoomName} {create created vacated : Bool}
    (hmove : hub.directory.move client.id target create =
      .ok (directory, .moved origin target created vacated)) :
    noticesFor id ((if vacated then []
        else broadcast directory origin (.left client.nickname origin) (some client.id)) ++
      broadcast directory target (.joined client.nickname target) (some client.id) ++
      [.deliver client.id (.moved target)]) = hub.dueOfMove client target id := by
  have hafter := hintact.move hmove
  obtain ⟨found, hfound, rfl, -, hne, heq, hvacated⟩ := hintact.occupants_of_move hmove
  obtain rfl := Option.some.inj (hid.symm.trans hfound)
  rw [noticesFor_append, noticesFor_append, noticesFor_single, dueOfMove, if_neg hne]
  by_cases hself : id = client.id
  · subst hself
    rw [if_pos rfl, noticesFor_broadcast_spared hafter, dueToSelf, if_pos rfl, List.append_nil]
    split
    next => rfl
    next => rw [noticesFor_broadcast_spared hafter]; rfl
  · rw [if_neg hself, dueToSelf, if_neg hself, List.append_nil, noticesFor_broadcast_seats hafter]
    have hspared : some id ≠ some client.id := fun hsome => hself (Option.some.inj hsome)
    congr 1
    · split
      next hgone =>
        -- Nobody is left behind who could hear of it.
        rw [if_neg]
        · rfl
        · rintro ⟨member, hmember, -, hroom⟩
          exact hself ((hvacated.1 hgone).2 id (by rw [Directory.roomOf?_eq hmember, hroom]))
      next =>
        rw [noticesFor_broadcast_seats hafter]
        simp [Directory.seats_insert_of_ne heq hself, hspared]
    · simp [Directory.seats_insert_of_ne heq hself, hspared]

omit hintact in
theorem noticesFor_stay {target : RoomName} {create : Bool}
    (hmove : hub.directory.move client.id target create = .ok (directory, .unchanged)) :
    noticesFor id [.deliver client.id (.alreadyIn target)] = hub.dueOfMove client target id := by
  have hroom := Directory.room_of_move_unchanged hid hmove
  rw [noticesFor_single, dueOfMove, if_pos hroom]

theorem noticesFor_rename {nickname old : String} (hother : client.nickname ≠ nickname)
    (hrename : hub.directory.rename client.id nickname = .ok (directory, old)) :
    noticesFor id (.deliver client.id (.nicknameSet nickname) ::
      broadcast directory client.room (.renamed old nickname) (some client.id)) =
        hub.dueOfRename client nickname id := by
  have hafter := hintact.rename hrename
  obtain ⟨found, hfound, rfl, heq⟩ := Directory.occupants_of_rename hrename
  obtain rfl := Option.some.inj (hid.symm.trans hfound)
  rw [dueOfRename]
  by_cases hself : id = client.id
  · subst hself
    rw [if_pos rfl, noticesFor_deliver_self, noticesFor_broadcast_spared hafter]
  · have hspared : some id ≠ some client.id := fun hsome => hself (Option.some.inj hsome)
    rw [if_neg hself, noticesFor_deliver_of_ne (Ne.symm hself), noticesFor_broadcast_seats hafter]
    simp [Directory.seats_insert_of_ne heq hself, hspared, hother]

omit hid in
theorem noticesFor_whisper {target body : String} {hearer : Occupant}
    (hfound : hub.directory.findByNickname? target = some hearer) :
    noticesFor id [.deliver hearer.id (.whisperFrom client.nickname body),
      .deliver client.id (.whisperTo target body)] =
        hub.dueOfSuccess client id (.whisper target body) := by
  rw [← List.singleton_append, noticesFor_append, noticesFor_single, noticesFor_single, dueOfSuccess,
    dueToSelf]
  simp only [hintact.nicknameOf?_eq_iff hfound]

theorem Performs.noticesFor_eq (hstep : Performs hub client request hub' effects) :
    noticesFor id effects = hub.dueOfSuccess client id request := by
  cases hstep with
  | chat text =>
    rw [Hub.chat, noticesFor_broadcast_seats hintact, dueOfSuccess]
    cases hub.echoChatToSender <;> simp
  | whisper hfound _ => exact noticesFor_whisper hintact hfound
  | stay hcommand hmove =>
    rcases hcommand with ⟨rfl, rfl⟩ | ⟨rfl, rfl, rfl⟩ <;> exact noticesFor_stay hid hmove
  | move hcommand hmove =>
    rcases hcommand with ⟨rfl, rfl⟩ | ⟨rfl, rfl, rfl⟩ <;> exact noticesFor_move hintact hid hmove
  | keepNickname =>
    rw [noticesFor_single]
    simp [dueOfSuccess, dueOfRename, dueToSelf]
  | nickname hother hrename => exact noticesFor_rename hintact hid hother hrename
  | quit => exact noticesFor_single
  | add | remove | list | users | help => exact noticesFor_single

omit hid in
theorem filter_findByNickname?_isSome {target : String} :
    ((hub.directory.findByNickname? target).filter Occupant.isActive).isSome ↔
      hub.directory.HasPresent target := by
  simp only [Option.isSome_iff_exists, Option.filter_eq_some_iff, hintact.findByNickname?_eq_some]
  constructor
  · rintro ⟨hearer, ⟨hhearer, hname⟩, hpresent⟩
    exact ⟨hearer.id, hearer, hhearer, hpresent, hname⟩
  · rintro ⟨id, hearer, hhearer, hpresent, hname⟩
    obtain rfl := hintact.occupant_id hhearer
    exact ⟨hearer, ⟨hhearer, hname⟩, hpresent⟩

omit hid in
theorem perform_eq_refused_iff {refusal : Refusal} :
    hub.perform client request = .error (.refused refusal) ↔
      hub.objection? client request = some refusal := by
  cases request with
  | chat text => simp [perform, objection?]
  | whisper target body =>
    have hfound := @filter_findByNickname?_isSome hub hintact target
    cases hhearer : (hub.directory.findByNickname? target).filter Occupant.isActive with
    | none =>
      rw [hhearer] at hfound
      simp [perform, Hub.whisper, hhearer, orRefuse, bind, Except.bind, objection?, ← hfound]
    | some hearer =>
      rw [hhearer] at hfound
      simp [perform, Hub.whisper, hhearer, orRefuse, bind, Except.bind, objection?, ← hfound]
  | command command =>
    rw [perform, objection?]
    split <;> simp_all

theorem noticesFor_request {line : String} (hrequest : hub.request client line = .ok (hub', effects)) :
    HangsUpLast effects ∧ ∀ id, noticesFor id effects = hub.due client line id := by
  have hrefused {refusal : Refusal} (heq : Except.ok (hub, [Effect.deliver client.id
      (.refused refusal)]) = (.ok (hub', effects) : Outcome)) : HangsUpLast effects ∧
        ∀ id, noticesFor id effects = dueToSelf client id (.refused refusal) := by
    obtain ⟨rfl, rfl⟩ := Prod.mk.inj (Except.ok.inj heq)
    exact ⟨hangsUpLast_of_not_mem fun id => by simp, fun id => noticesFor_single⟩
  rw [request] at hrequest
  simp only [due]
  cases hdecode : Request.decode line with
  | error refusal =>
    rw [hdecode] at hrequest
    exact hrefused hrequest
  | ok request =>
    rw [hdecode] at hrequest
    dsimp only
    split at hrequest
    next outcome hok =>
      have hperform : hub.perform client request = .ok outcome := hok
      have hwilling : hub.objection? client request = none := by
        rw [Option.eq_none_iff_forall_ne_some]
        intro refusal hobjection
        cases hperform.symm.trans ((perform_eq_refused_iff hintact).2 hobjection)
      obtain rfl := Except.ok.inj hrequest
      have hstep := performs_of_perform hperform
      rw [hwilling]
      exact ⟨hstep.hangsUpLast, fun id => hstep.noticesFor_eq hintact hid⟩
    next => cases hrequest
    next refusal hrefusal =>
      rw [(perform_eq_refused_iff hintact).1 hrefusal]
      exact hrefused hrequest

/-- Whatever the line asks for, everybody is told what it is due to hear. -/
theorem exists_handle_line (hactive : client.isActive = true) (line : String) :
    ∃ hub' effects, hub.handle (.line client.id line) = .ok (hub', effects) ∧
      HangsUpLast effects ∧ ∀ id, noticesFor id effects = hub.due client line id := by
  have hevent : ∀ id peer, Event.line client.id line ≠ .register id peer := by simp
  obtain ⟨hub', effects, hhandle⟩ := exists_handle_of_ne hintact hevent
  have hhear : hub.hear client.id line = hub.request client line := by
    rw [hear, hid]
    dsimp only
    rw [if_pos hactive]
  have hrequest : hub.request client line = .ok (hub', effects) := hhear ▸ of_audited hhandle
  exact ⟨hub', effects, hhandle, noticesFor_request hintact hid hrequest⟩

omit hintact hid

theorem dueToSelf_of_ne (hne : id ≠ client.id) : dueToSelf client id notice = [] :=
  if_neg hne

theorem length_dueToSelf_le (notice : Notice) (hne : id ≠ client.id) :
    (dueToSelf client id notice).length ≤ 1 := by
  rw [dueToSelf_of_ne hne]
  exact Nat.zero_le 1

theorem length_dueOfMove_le (target : RoomName) (hne : id ≠ client.id) :
    (hub.dueOfMove client target id).length ≤ 1 := by
  rw [dueOfMove, if_neg hne]
  split
  next => simp [dueToSelf_of_ne hne]
  next hroom =>
    -- Nobody is in two rooms.
    by_cases hleft : hub.directory.Seats id client.room
    · have hjoined : ¬hub.directory.Seats id target := fun h => hroom (hleft.room_eq h)
      simp [hleft, hjoined]
    · rw [if_neg hleft, List.nil_append]
      split <;> simp

theorem length_dueOfSuccess_le (request : Request) (hne : id ≠ client.id) :
    (hub.dueOfSuccess client id request).length ≤ 1 := by
  cases request with
  | chat text =>
    rw [dueOfSuccess]
    split <;> simp
  | whisper target body =>
    rw [dueOfSuccess, dueToSelf_of_ne hne, List.append_nil]
    split <;> simp
  | command command =>
    cases command with
    | join target => exact length_dueOfMove_le target hne
    | leave => exact length_dueOfMove_le _ hne
    | nickname nickname =>
      rw [dueOfSuccess, dueOfRename, if_neg hne]
      split <;> simp
    | add | remove | list | users | quit | help => exact length_dueToSelf_le _ hne

theorem length_due_le (line : String) (hne : id ≠ client.id) : (hub.due client line id).length ≤ 1 := by
  unfold due
  split
  next => exact length_dueToSelf_le _ hne
  next request _ =>
    split
    next => exact length_dueToSelf_le _ hne
    next => exact length_dueOfSuccess_le request hne

theorem dueOfSuccess_eq_nil (hintact : hub.directory.Intact) (hne : id ≠ client.id)
    (hdeaf : ∀ room, ¬hub.directory.Seats id room) (hwilling : hub.objection? client request = none) :
    hub.dueOfSuccess client id request = [] := by
  have hmove (target : RoomName) : hub.dueOfMove client target id = [] := by
    simp [dueOfMove, dueToSelf_of_ne hne, hne, hdeaf]
  cases request with
  | chat text => simp [dueOfSuccess, hdeaf]
  | whisper target body =>
    have hpresent : hub.directory.HasPresent target := by
      by_contra habsent
      rw [objection?, if_neg habsent] at hwilling
      cases hwilling
    obtain ⟨other, hearer, hhearer, hactive, hname⟩ := hpresent
    have hother : hub.directory.nicknameOf? id ≠ some target := by
      intro heq
      -- It would be the one who is present.
      obtain rfl := hintact.indexed.eq_of_name_eq heq (hname ▸ Directory.nicknameOf?_eq hhearer)
      exact hdeaf hearer.room ⟨hearer, hhearer, hactive, rfl⟩
    simp [dueOfSuccess, dueToSelf_of_ne hne, hother]
  | command command =>
    cases command with
    | join | leave => exact hmove _
    | nickname => simp [dueOfSuccess, dueOfRename, hne, hdeaf]
    | add | remove | list | users | quit | help => exact dueToSelf_of_ne hne

theorem exists_seat_of_due {line : String} (hintact : hub.directory.Intact)
    (hid : hub.directory.occupants[client.id]? = some client) (hactive : client.isActive = true)
    (hdue : hub.due client line id ≠ []) :
    ∃ room, hub.directory.Seats id room := by
  have hself (heq : id = client.id) :
      ∃ room, hub.directory.Seats id room :=
    ⟨client.room, client, heq ▸ hid, hactive, rfl⟩
  by_contra hnobody
  have hne : id ≠ client.id := mt hself hnobody
  have hdeaf (room : RoomName) : ¬hub.directory.Seats id room := fun hseat => hnobody ⟨room, hseat⟩
  apply hdue
  unfold due
  split
  next => exact dueToSelf_of_ne hne
  next request _ =>
    split
    next => exact dueToSelf_of_ne hne
    next hwilling => exact dueOfSuccess_eq_nil hintact hne hdeaf hwilling

end Hub

end ChatRooms
