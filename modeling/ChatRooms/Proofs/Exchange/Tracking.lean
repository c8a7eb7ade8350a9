import ChatRooms.Proofs.Exchange.Delivery
import ChatRooms.Proofs.Hub.Roster
import ChatRooms.Proofs.Hub.Seats

namespace ChatRooms

open Std

namespace Exchange

/-- A stretch of a run in which the client stays in the room and loses no line. Listed are the lines
that it takes meanwhile. Between the events, anything can happen that leaves the hub and the client's
lines alone. -/
inductive Stretch (id : ClientId) (room : RoomName) (start : Exchange) :
    List String → Exchange → Prop
  | here : Stretch id room start [] start
  | event {taken : List String} {exchange : Exchange} {event : Event} {hub : Hub}
      {effects : List Effect} {outbox outbox' : Outbox}
      (before : Stretch id room start taken exchange) (hadmits : exchange.hub.Admits event)
      (hhandle : exchange.hub.handle event = .ok (hub, effects))
      (hstays : hub.directory.Seats id room) (houtbox : exchange.outboxes[id]? = some outbox)
      (hqueued : outbox.sendAll ((noticesFor id effects).map Notice.line) = .ok outbox') :
      Stretch id room start taken (exchange.handle [event])
  | take {taken : List String} {exchange : Exchange} {outbox outbox' : Outbox} {line : String}
      (before : Stretch id room start taken exchange)
      (houtbox : exchange.outboxes[id]? = some outbox)
      (htake : outbox.take = (outbox', .line line)) :
      Stretch id room start (taken ++ [line]) (exchange.updateOutbox id fun _ => outbox')
  | aside {taken : List String} {exchange exchange' : Exchange}
      (before : Stretch id room start taken exchange) (hhub : exchange'.hub = exchange.hub)
      (hlines : exchange'.outboxes[id]?.map Outbox.lines =
        exchange.outboxes[id]?.map Outbox.lines) :
      Stretch id room start taken exchange'

variable {settings : Settings} {id : ClientId} {room : RoomName} {start exchange : Exchange}
  {taken : List String} {client : Occupant} {outbox outbox' : Outbox}

/-- A stretch goes on through a batch if the client stays all the while and none of its lines is
refused. -/
theorem Stretch.batch {events : List Event} {hub : Hub} {effects : List Effect}
    (h : Stretch id room start taken exchange) (hintact : exchange.hub.directory.Intact)
    (hseat : exchange.hub.directory.Seats id room)
    (hevents : ∀ event ∈ events, ∀ newcomer peer, event ≠ .register newcomer peer)
    (hhandle : exchange.hub.handleAll events = .ok (hub, effects))
    (hstays : ∀ front, front <+: events → ∀ between heard,
      exchange.hub.handleAll front = .ok (between, heard) → between.directory.Seats id room)
    (houtbox : exchange.outboxes[id]? = some outbox)
    (hqueued : outbox.sendAll ((noticesFor id effects).map Notice.line) = .ok outbox') :
    Stretch id room start taken (exchange.handle events) := by
  -- On the batch: its first event goes on with the stretch, and what follows finds a hub that is
  -- intact and a client that still has its seat.
  induction events generalizing exchange outbox effects with
  | nil => exact h
  | cons event events ih =>
    obtain ⟨between, first, more, hfirst, hmore, rfl⟩ := handleAll_cons_eq_ok hhandle
    have hadmits := exchange.hub.admits_of_ne (hevents event List.mem_cons_self)
    have hstep := Hub.steps_of_handle hfirst
    have hseat' : between.directory.Seats id room :=
      hstays [event] (List.prefix_append [event] events) between first
        (handleAll_singleton.trans hfirst)
    rw [Hub.noticesFor_append, List.map_append] at hqueued
    obtain ⟨middle, hhead, hrest⟩ := Outbox.sendAll_append hqueued
    have hheld := hstep.hangUp_not_mem hintact hseat'
    have hafter : exchange.handle [event] = first.foldl apply { exchange with hub := between } :=
      handle_singleton hfirst
    have hhub : (exchange.handle [event]).hub = between := by rw [hafter, foldl_apply_hub]
    rw [handle_cons hfirst hmore]
    apply ih (.event h hadmits hfirst hseat' houtbox hhead)
    · rw [hhub]
      exact hstep.intact hintact hadmits
    · rw [hhub]
      exact hseat'
    · exact fun event hmem => hevents event (List.mem_cons_of_mem _ hmem)
    · rw [hhub]
      exact hmore
    · intro front hfront between' heard hheard
      rw [hhub] at hheard
      refine hstays (event :: front) (List.prefix_cons_inj event |>.2 hfront) between'
        (first ++ heard) ?_
      simp only [Hub.handleAll, hfirst, bind, Except.bind, hheard, pure, Except.pure]
    · rw [hafter, getElem?_outboxes_foldl_apply]
      show exchange.outboxes[id]?.map _ = some middle
      rw [houtbox, Option.map_some, Outbox.foldl_absorb hheld hhead]
    · exact hrest

/-- What a stretch preserves: the lines taken and those still there are the old ones and then those
that keep the client's belief true. -/
theorem Stretch.tracks (h : Stretch id room start taken exchange)
    (hreach : Hub.Reachable settings start.hub)
    (hclient : start.hub.directory.occupants[id]? = some client) (hactive : client.isActive = true)
    (hroom : client.room = room) (houtbox : start.outboxes[id]? = some outbox) :
    Hub.Reachable settings exchange.hub ∧ exchange.hub.directory.Seats id room ∧
      ∃ lines fresh, exchange.outboxes[id]?.map Outbox.lines = some lines ∧
        taken ++ lines = outbox.lines ++ fresh ∧
        Tracks ((Tracker.of start.hub.directory room client.nickname).replay room fresh)
          exchange.hub.directory id room := by
  induction h with
  | here =>
    refine ⟨hreach, ⟨client, hclient, hactive, hroom⟩, outbox.lines, [], ?_, ?_, ?_⟩
    · rw [houtbox, Option.map_some]
    · rw [List.nil_append, List.append_nil]
    · exact Tracks.of_directory hreach.intact hclient room
  | @event taken exchange event hub effects before after _ hadmits hhandle hstays hbefore hqueued ih =>
    -- Nothing was refused and nobody hung up: all that was meant for the client has been queued.
    obtain ⟨hreached, hseat, lines, fresh, hlines, hsplit, htracks⟩ := ih
    have hstep := Hub.steps_of_handle hhandle
    have hintact := hreached.intact
    rw [hbefore, Option.map_some, Option.some.injEq] at hlines
    have hheld := hstep.hangUp_not_mem hintact hstays
    rw [handle_singleton hhandle, foldl_apply_hub, getElem?_outboxes_foldl_apply]
    refine ⟨.step hreached hadmits hhandle, hstays, after.lines,
      fresh ++ (noticesFor id effects).map Notice.line, ?_, ?_, ?_⟩
    · show (exchange.outboxes[id]?.map _).map _ = _
      rw [hbefore, Option.map_some, Option.map_some, Outbox.foldl_absorb hheld hqueued]
    · rw [Outbox.lines_of_sendAll hqueued, hlines, ← List.append_assoc, hsplit, List.append_assoc]
    · rw [Tracker.replay, List.foldl_append]
      exact hstep.tracks hintact hreached.wellNamed hadmits hseat hstays htracks
  | @take taken exchange before after line _ hbefore htake ih =>
    obtain ⟨hreached, hseat, lines, fresh, hlines, hsplit, htracks⟩ := ih
    rw [hbefore, Option.map_some, Option.some.injEq] at hlines
    refine ⟨hreached, hseat, after.lines, fresh, ?_, ?_, htracks⟩
    · rw [getElem?_updateOutbox, if_pos rfl, hbefore, Option.map_some, Option.map_some]
    · rw [← hsplit, ← hlines, Outbox.lines_of_take htake, List.append_assoc, List.singleton_append]
  | aside _ hhub hlines ih =>
    obtain ⟨hreached, hseat, lines, fresh, hkept, hsplit, htracks⟩ := ih
    rw [hhub, hlines]
    exact ⟨hreached, hseat, lines, fresh, hkept, hsplit, htracks⟩

theorem Stretch.roster_of_lines (h : Stretch id room start taken exchange)
    (hreach : Hub.Reachable settings start.hub)
    (hclient : start.hub.directory.occupants[id]? = some client) (hactive : client.isActive = true)
    (hroom : client.room = room) (houtbox : start.outboxes[id]? = some outbox) :
    ∃ lines fresh, exchange.outboxes[id]?.map Outbox.lines = some lines ∧
      taken ++ lines = outbox.lines ++ fresh ∧
      let tracker := (Tracker.of start.hub.directory room client.nickname).replay room fresh
      exchange.hub.directory.nicknameOf? id = some tracker.own ∧
        tracker.roster.toList = exchange.hub.directory.nicknamesIn room := by
  obtain ⟨hreached, -, lines, fresh, hlines, hsplit, htracks⟩ :=
    h.tracks hreach hclient hactive hroom houtbox
  exact ⟨lines, fresh, hlines, hsplit, htracks.own, htracks.roster_toList hreached.intact⟩

set_option maxRecDepth 20000 in
/-- One of two guests hears of the other's new nickname. -/
theorem roster_of_lines_renamed : ∃ start exchange : Exchange,
    Stretch 1 ⟨"general", by decide⟩ start [] exchange ∧
      ∃ lines fresh, exchange.outboxes[1]?.map Outbox.lines = some lines ∧ [] ++ lines = fresh ∧
        ((Tracker.of start.hub.directory ⟨"general", by decide⟩ "guest1").replay
          ⟨"general", by decide⟩ fresh).roster.toList =
            exchange.hub.directory.nicknamesIn ⟨"general", by decide⟩ ∧
        (exchange.hub.directory.members ⟨"general", by decide⟩).map Occupant.nickname =
          ["guest1", "bob"] := by
  have run {hub hub' : Hub} {effects : List Effect} (h : Hub.Reachable {} hub) (event : Event)
      (hadmits : hub.Admits event) (hhandle : hub.handle event = .ok (hub', effects)) :
      Hub.Reachable {} hub' := .step h hadmits hhandle
  obtain ⟨hub, hub', effects, hreach, hclient, hhandle, hstays, hheard, hmembers⟩ :
      ∃ (hub hub' : Hub) (effects : List Effect), Hub.Reachable {} hub ∧
        hub.directory.occupants[1]? = some (Occupant.mk 1 "guest1" ⟨"general", by decide⟩ none
          .active) ∧
        hub.handle (.line 2 "CMD:nick:bob:") = .ok (hub', effects) ∧
        hub'.directory.Seats 1 ⟨"general", by decide⟩ ∧
        (noticesFor 1 effects).map Notice.line = ["* guest2 is now known as bob"] ∧
        (hub'.directory.members ⟨"general", by decide⟩).map Occupant.nickname =
          ["guest1", "bob"] := by
    have h₀ : Hub.Reachable {} (.start {} ⟨"general", by decide⟩) := .start rfl
    have h₁ := run h₀ (.register 1 none) (by decide) rfl
    have h₂ := run h₁ (.register 2 none) (by decide) rfl
    exact ⟨_, _, _, h₂, rfl, rfl, ⟨_, rfl, rfl, rfl⟩, rfl, by decide⟩
  let start : Exchange := {
    hub
    intake := .addressed { capacity := 1 }
    orderCapacity := 1
    outboxes := (∅ : ExtTreeMap ClientId Outbox).insert 1 { capacity := 1 }
    patience := 0 }
  have houtbox : start.outboxes[1]? = some { capacity := 1 } := by simp [start]
  have hstretch : Stretch 1 ⟨"general", by decide⟩ start [] (start.handle [.line 2 "CMD:nick:bob:"]) :=
    .event .here trivial hhandle hstays houtbox (by rw [hheard]; rfl)
  obtain ⟨lines, fresh, hlines, hsplit, -, hreplayed⟩ :=
    hstretch.roster_of_lines hreach hclient rfl rfl houtbox
  refine ⟨start, _, hstretch, lines, fresh, hlines, hsplit, hreplayed, ?_⟩
  rw [handle_singleton hhandle, foldl_apply_hub]
  exact hmembers

end Exchange

end ChatRooms
