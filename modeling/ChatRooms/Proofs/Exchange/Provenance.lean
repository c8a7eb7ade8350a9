import ChatRooms.Proofs.Exchange.Serving
import ChatRooms.Proofs.Hub.Authors

namespace ChatRooms

open Std

/-- A notice, the event by which it came about, and the hub as it was before that event. -/
structure Post where
  hub : Hub
  event : Event
  notice : Notice

def Post.line (post : Post) : String :=
  post.notice.line

/-- What the hub sends to a client when it handles the event. -/
def Hub.postsTo (hub : Hub) (id : ClientId) (event : Event) : List Post :=
  match hub.handle event with
  | .ok (_, effects) => (noticesFor id effects).map fun notice => { hub, event, notice }
  | .error _ => []

def Happening.postsTo (id : ClientId) : Happening → List Post
  | handled hub event => hub.postsTo id event
  | forwarded _ _ | taken _ _ => []

def Happening.taken? (id : ClientId) : Happening → Option String
  | taken other line => if other = id then some line else none
  | forwarded _ _ | handled _ _ => none

/-- Everything that was ever sent to a client, whether or not its outbox took it. -/
def postsTo (id : ClientId) (trace : List Happening) : List Post :=
  trace.flatMap (Happening.postsTo id)

def takenLines (id : ClientId) (trace : List Happening) : List String :=
  trace.filterMap (Happening.taken? id)

section Traces

variable {id : ClientId} {trace more : List Happening} {hub hub' : Hub} {event : Event}
  {effects : List Effect} {post : Post}

@[simp] theorem takenLines_nil : takenLines id [] = [] := rfl

theorem postsTo_append : postsTo id (trace ++ more) = postsTo id trace ++ postsTo id more :=
  List.flatMap_append

theorem takenLines_append :
    takenLines id (trace ++ more) = takenLines id trace ++ takenLines id more :=
  List.filterMap_append

@[simp] theorem takenLines_handled : takenLines id [.handled hub event] = [] := rfl

theorem postsTo_handled : postsTo id [.handled hub event] = hub.postsTo id event :=
  List.append_nil _

theorem lines_postsTo (h : hub.handle event = .ok (hub', effects)) :
    (hub.postsTo id event).map Post.line = (noticesFor id effects).map Notice.line := by
  rw [Hub.postsTo, h, List.map_map]
  rfl

theorem mem_postsTo (hmem : post ∈ postsTo id trace) :
    .handled post.hub post.event ∈ trace ∧ ∃ hub' effects,
      post.hub.handle post.event = .ok (hub', effects) ∧ .deliver id post.notice ∈ effects := by
  obtain ⟨happening, hhappening, hpost⟩ := List.mem_flatMap.1 hmem
  cases happening with
  | handled hub event =>
    rw [Happening.postsTo, Hub.postsTo] at hpost
    split at hpost
    next hub' effects hhandle =>
      obtain ⟨notice, hnotice, rfl⟩ := List.mem_map.1 hpost
      exact ⟨hhappening, hub', effects, hhandle, Hub.mem_noticesFor.1 hnotice⟩
    next => cases hpost
  | forwarded | taken => cases hpost

end Traces

namespace Exchange

variable {exchange : Exchange} {id other : ClientId} {event : Event} {order : Order}
  {change : Outbox → Outbox}

/-- The lines that wait for a client's connection to take them. -/
def queuedFor (exchange : Exchange) (id : ClientId) : List String :=
  (exchange.outboxes[id]?.map Outbox.lines).getD []

theorem queuedFor_eq {exchange' : Exchange} (h : exchange'.outboxes = exchange.outboxes) :
    exchange'.queuedFor id = exchange.queuedFor id := by
  rw [queuedFor, h, queuedFor]

theorem queuedFor_updateOutbox (hchange : ∀ outbox, (change outbox).lines = outbox.lines) :
    (exchange.updateOutbox other change).queuedFor id = exchange.queuedFor id := by
  rw [queuedFor, getElem?_updateOutbox, queuedFor]
  split
  next => cases exchange.outboxes[id]? <;> simp [hchange]
  next => rfl

theorem queuedFor_connect {capacity : Nat} :
    ((exchange.connect other { capacity }).queuedFor id).Sublist (exchange.queuedFor id) := by
  rw [queuedFor, connect, ExtTreeMap.getElem?_insert]
  split
  next => exact List.nil_sublist _
  next => exact List.Sublist.refl _

theorem queuedFor_refuse : (exchange.refuse other).queuedFor id = exchange.queuedFor id :=
  queuedFor_updateOutbox fun _ => rfl

theorem queuedFor_stopReading :
    ((exchange.updateOutbox other Outbox.stopReading).queuedFor id).Sublist (exchange.queuedFor id) := by
  rw [queuedFor, getElem?_updateOutbox, queuedFor]
  split
  next => cases exchange.outboxes[id]? <;> exact List.nil_sublist _
  next => exact List.Sublist.refl _

theorem queuedFor_take {outbox outbox' : Outbox} {line : String}
    (houtbox : exchange.outboxes[other]? = some outbox)
    (htake : outbox.take = (outbox', .line line)) :
    takenLines id [.taken other line] ++ (exchange.updateOutbox other fun _ => outbox').queuedFor id =
      exchange.queuedFor id := by
  rw [queuedFor, getElem?_updateOutbox, queuedFor]
  by_cases hid : other = id
  · subst hid
    have htaken : takenLines other [.taken other line] = [line] := by
      simp [takenLines, Happening.taken?]
    rw [if_pos rfl, houtbox, htaken]
    exact (Outbox.lines_of_take htake).symm
  · have htaken : takenLines id [.taken other line] = [] := by
      simp [takenLines, Happening.taken?, hid]
    rw [if_neg hid, htaken, List.nil_append]

theorem queuedFor_halt (phase : Phase) : (exchange.halt phase).queuedFor id = exchange.queuedFor id := by
  rw [queuedFor, halt, ExtTreeMap.getElem?_map, queuedFor]
  cases exchange.outboxes[id]? <;> rfl

/-- What comes into an outbox when an event is handled was sent at that moment. -/
theorem queuedFor_handle (event : Event) : ((exchange.handle [event]).queuedFor id).Sublist
    (exchange.queuedFor id ++ (exchange.hub.postsTo id event).map Post.line) := by
  cases hhandle : exchange.hub.handle event with
  | error defect =>
    have heq : exchange.handle [event] = exchange.halt (.failed defect) := by
      rw [handle, handleAll_singleton, hhandle]
    rw [heq, queuedFor_halt]
    exact List.sublist_append_left _ _
  | ok outcome =>
    obtain ⟨hub, effects⟩ := outcome
    rw [lines_postsTo hhandle, queuedFor, getElem?_outboxes_handle hhandle, queuedFor]
    cases exchange.outboxes[id]? with
    | none => exact List.nil_sublist _
    | some outbox =>
      obtain ⟨more, hmore, hsent⟩ := outbox.exists_lines_foldl_absorb id effects
      show (effects.foldl (Outbox.absorb id) outbox).lines.Sublist (outbox.lines ++ _)
      rw [hmore]
      exact hsent.append_left _

theorem queuedFor_takeOrder (hstays : ∀ id, order ≠ .exited id) :
    ((exchange.takeOrder order).queuedFor id).Sublist
      (exchange.queuedFor id ++ (postsTo id (exchange.announced order)).map Post.line) := by
  by_cases hphase : exchange.phase = .running
  · cases order with
    | register newcomer peer =>
      have hannounced : exchange.announced (.register newcomer peer) =
          [.handled exchange.hub (.register newcomer peer)] := by
        rw [announced]
        exact hphase
      have houtboxes : (exchange.takeOrder (.register newcomer peer)).outboxes =
          (exchange.handle [.register newcomer peer]).outboxes := by
        rw [takeOrder_register hphase]
        dsimp only
        split <;> rfl
      rw [hannounced, postsTo_handled, queuedFor_eq houtboxes]
      exact queuedFor_handle _
    | exited leaver => exact absurd rfl (hstays leaver)
    | shutdown =>
      have hannounced : exchange.announced .shutdown = [.handled exchange.hub .shutdown] := by
        rw [announced]
        exact hphase
      rw [hannounced, postsTo_handled, takeOrder_shutdown hphase]
      exact queuedFor_handle .shutdown
  · have hsame : (exchange.takeOrder order).queuedFor id = exchange.queuedFor id := by
      cases order with
      | register newcomer peer =>
        rw [takeOrder_register_of_ne hphase]
        exact queuedFor_refuse
      | exited leaver => exact absurd rfl (hstays leaver)
      | shutdown => rw [takeOrder_shutdown_of_ne hphase]
    rw [hsame]
    exact List.sublist_append_left _ _

end Exchange

namespace Floor

variable {settings : Settings} {id : ClientId} {trace happenings : List Happening}
  {floor floor' : Floor}

/-- What one step preserves: a line that is taken was waiting, and one that waits was waiting or has just
been sent. -/
theorem Step.queuedFor (hstep : Step floor happenings floor') (id : ClientId) :
    (takenLines id happenings ++ floor'.exchange.queuedFor id).Sublist
      (floor.exchange.queuedFor id ++ (postsTo id happenings).map Post.line) := by
  have hsame {exchange : Exchange} (h : exchange.queuedFor id = floor.exchange.queuedFor id) :
      (exchange.queuedFor id).Sublist (floor.exchange.queuedFor id ++ []) := by
    rw [h, List.append_nil]
  cases hstep with
  | @connect other capacity outbox _ houtbox =>
    obtain rfl := Outbox.eq_of_new houtbox
    exact Exchange.queuedFor_connect.trans (List.sublist_append_left _ _)
  | post _ hpost =>
    obtain rfl := Exchange.eq_of_post hpost
    exact hsame rfl
  | giveUp => exact hsame Exchange.queuedFor_refuse
  | write | letGo | vanish | ring | pass | dropHandles | leave | answer | gather | conclude =>
    exact hsame rfl
  | take houtbox htake =>
    rw [Exchange.queuedFor_take houtbox htake]
    exact List.sublist_append_left _ _
  | stopReading other => exact Exchange.queuedFor_stopReading.trans (List.sublist_append_left _ _)
  | @order order orders _ _ _ hstays =>
    have hsilent : takenLines id (floor.exchange.announced order) = [] := by
      unfold Exchange.announced
      split <;> rfl
    rw [hsilent, List.nil_append]
    exact @Exchange.queuedFor_takeOrder { floor.exchange with orders } id order hstays
  | @handle event events _ _ =>
    rw [postsTo_handled, takenLines_handled]
    exact Exchange.queuedFor_handle event
  | close =>
    rw [postsTo_handled, takenLines_handled]
    exact Exchange.queuedFor_handle .shutdown
  | stop => exact hsame (Exchange.queuedFor_halt _)

theorem Stir.queuedFor (hstir : Stir floor happenings floor') (id : ClientId) :
    (takenLines id happenings ++ floor'.exchange.queuedFor id).Sublist
      (floor.exchange.queuedFor id ++ (postsTo id happenings).map Post.line) := by
  cases hstir with
  | step hstep => exact hstep.queuedFor id
  | write => exact List.sublist_append_left _ _
  | report hpost =>
    obtain rfl := Exchange.eq_of_post hpost
    exact List.sublist_append_left _ _

/-- What a client has received, and what waits for it, is some of what it was sent, in the same order. -/
theorem Bustle.received (h : Bustle settings trace floor) (id : ClientId) :
    (takenLines id trace ++ floor.exchange.queuedFor id).Sublist ((postsTo id trace).map Post.line) := by
  refine h.preserves (P := fun trace floor => (takenLines id trace ++ floor.exchange.queuedFor id).Sublist
    ((postsTo id trace).map Post.line)) (fun exchange hnew => ?_)
    fun {trace happenings floor floor'} _ ih hstir => ?_
  · obtain ⟨room, -, rfl⟩ := Exchange.exists_of_new hnew
    simp [Exchange.queuedFor]
  · rw [takenLines_append, postsTo_append, List.map_append, List.append_assoc]
    calc (takenLines id trace ++ (takenLines id happenings ++ floor'.exchange.queuedFor id)).Sublist
          (takenLines id trace ++
            (floor.exchange.queuedFor id ++ (postsTo id happenings).map Post.line)) :=
        (hstir.queuedFor id).append_left _
      List.Sublist _ ((postsTo id trace).map Post.line ++ (postsTo id happenings).map Post.line) := by
        rw [← List.append_assoc]
        exact ih.append_right _

/-- Nothing was ever sent that the hub could not vouch for when it sent it. -/
theorem Bustle.vouches (h : Bustle settings trace floor) {post : Post} (hpost : post ∈ postsTo id trace) :
    post.hub.directory.WellNamed ∧ post.hub.Vouches post.event id post.notice := by
  obtain ⟨hhandled, hub', effects, hhandle, hmem⟩ := mem_postsTo hpost
  obtain ⟨hreach, -⟩ := h.sound.heard hhandled
  exact ⟨hreach.wellNamed, (Hub.steps_of_handle hhandle).vouches hreach.intact hmem⟩

/-- Every line that a client receives was sent to it when some event was handled. Whatever was sent and
reads as something said in a room, the event was a line by which a client of this nickname, in this room,
had asked for it to be said, and the receiver was in the room too. Whatever reads as a whisper, a client
of this nickname had asked for it to be whispered to the receiver. -/
theorem Bustle.receives_no_forgery (h : Bustle settings trace floor) (id : ClientId) :
    ∃ posts : List Post, posts.Sublist (postsTo id trace) ∧
      posts.map Post.line = takenLines id trace ++ floor.exchange.queuedFor id ∧
      ∀ post ∈ postsTo id trace,
        (∀ (room : RoomName) (nickname text : String), nameFlaw nickname = none →
          post.line = "[" ++ room.text ++ "] " ++ nickname ++ ": " ++ text →
          ∃ client, post.hub.Asks post.event client (.chat text) ∧ client.nickname = nickname ∧
            client.room = room ∧ post.hub.directory.Seats id room) ∧
        ∀ nickname body : String, nameFlaw nickname = none →
          post.line = "[whisper from " ++ nickname ++ "] " ++ body →
          ∃ client target, post.hub.Asks post.event client (.whisper target body) ∧
            client.nickname = nickname ∧ post.hub.directory.nicknameOf? id = some target := by
  obtain ⟨posts, hposts, hlines⟩ := List.sublist_map_iff.1 (h.received id)
  refine ⟨posts, hposts, hlines.symm, fun post hpost => ?_⟩
  obtain ⟨hnamed, hvouches⟩ := h.vouches hpost
  exact ⟨fun room nickname text hname hline => hvouches.of_chat_line hnamed hname hline,
    fun nickname body hname hline => hvouches.of_whisper_line hnamed hname hline⟩

set_option maxRecDepth 20000 in
/-- The first client writes the name of the second one, and another room, into its line. It does not help.
Nor does it help to go on writing after its exit has been reported. -/
theorem receives_no_forgery_despite_pretence : ∃ trace floor, Bustle {} trace floor ∧
    takenLines 2 trace = ["* welcome guest2! you are in room 'general' (CMD:help:: lists commands)",
      "[general] guest1: hello"] ∧
    (∃ hub, .handled hub (.line 1 "CHAT:guest2::boo") ∈ trace ∧ 1 ∉ hub.directory.occupants) ∧
    floor.exchange.queuedFor 2 = ["* guest1 disconnected"] ∧
    ∃ post ∈ postsTo 2 trace, post.line = "[general] guest1: hello" ∧
      ∃ client, post.hub.Asks post.event client (.chat "hello") ∧ client.nickname = "guest1" := by
  have step {trace happenings : List Happening} {floor floor' : Floor}
      (before : Bustle {} trace floor) (hstep : Step floor happenings floor') :
      Bustle {} (trace ++ happenings) floor' := before.step hstep
  have h₀ : Bustle {} [] _ := .start rfl
  have h₁ := step h₀ (@Step.connect _ 1 8 _ rfl rfl)
  have h₂ := step h₁ (@Step.connect _ 2 8 _ rfl rfl)
  have h₃ := step h₂ (@Step.post _ (.register 1 none) _ ⟨rfl, fun _ => List.not_mem_nil⟩ rfl)
  have h₄ := step h₃ (@Step.order _ _ _ rfl rfl rfl (by simp))
  have h₅ := step h₄ (@Step.post _ (.register 2 none) _ ⟨rfl, fun _ => List.not_mem_nil⟩ rfl)
  have h₆ := step h₅ (@Step.order _ _ _ rfl rfl rfl (by simp))
  have h₇ := step h₆ (@Step.write _ 1 "CHAT:guest2:vip:hello" _ (by decide) rfl rfl rfl)
  have h₈ := step h₇ (@Step.answer _ (.queue []) rfl rfl rfl rfl)
  have h₉ := step h₈ (@Step.gather _ _ _ _ _ rfl rfl)
  have h₁₀ := step h₉ (@Step.conclude _ _ _ rfl rfl)
  have h₁₁ := step h₁₀ (@Step.handle _ _ _ rfl rfl)
  have h₁₂ := step h₁₁ (@Step.take _ 2 _ _ _ rfl rfl)
  have h₁₃ := step h₁₂ (@Step.take _ 2 _ _ _ rfl rfl)
  have h₁₄ := h₁₃.stir (@Stir.report _ 1 _ rfl)
  have h₁₅ := step h₁₄ (@Step.leave _ _ _ (.queue []) rfl rfl rfl rfl)
  have h₁₆ := step h₁₅ (@Step.conclude _ _ _ rfl rfl)
  have h₁₇ := step h₁₆ (@Step.handle _ _ _ rfl rfl)
  have h₁₈ := step h₁₇ (@Step.write _ 1 "CHAT:guest2::boo" _ (by decide) rfl rfl rfl)
  have h₁₉ := step h₁₈ (@Step.answer _ (.queue []) rfl rfl rfl rfl)
  have h₂₀ := step h₁₉ (@Step.gather _ _ _ _ _ rfl rfl)
  have h₂₁ := step h₂₀ (@Step.conclude _ _ _ rfl rfl)
  have h₂₂ := step h₂₁ (@Step.handle _ _ _ rfl rfl)
  obtain ⟨posts, hsent, hlines, hgenuine⟩ := h₂₂.receives_no_forgery 2
  have hmem : "[general] guest1: hello" ∈ posts.map Post.line := by
    rw [hlines]
    decide
  obtain ⟨post, hpost, hline⟩ := List.mem_map.1 hmem
  obtain ⟨client, hasks, hnickname, -⟩ :=
    (hgenuine post (hsent.subset hpost)).1 ⟨"general", by decide⟩ "guest1" "hello" (by decide) hline
  exact ⟨_, _, h₂₂, rfl, ⟨_, List.mem_append_right _ List.mem_cons_self, by decide⟩, rfl, post,
    hsent.subset hpost, hline, client, hasks, hnickname⟩

end Floor

end ChatRooms
