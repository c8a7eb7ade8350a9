import ChatRooms.Proofs.Exchange.Lines
import ChatRooms.Proofs.Exchange.Matching
import ChatRooms.Proofs.Hub.Content
import Mathlib.Data.Setoid.Basic

namespace ChatRooms

open Std

/-- Two choices that differ in the content of a line at most. -/
inductive Choice.Akin : Choice → Choice → Prop where
  | refl (choice : Choice) : Akin choice choice
  | write (id : ClientId) {line line' : String}
      (hline : Request.outlineOf line = Request.outlineOf line') :
      Akin (.write id line) (.write id line')

/-- Two happenings that differ at most in the content of a line, and in what somebody in the circle
takes. -/
inductive Happening.Akin (circle : ClientId → Prop) : Happening → Happening → Prop where
  | forwarded (id : ClientId) {line line' : String}
      (hline : Request.outlineOf line = Request.outlineOf line') :
      Akin circle (.forwarded id line) (.forwarded id line')
  | handled (hub : Hub) {event event' : Event} (hevent : event.Akin event') :
      Akin circle (.handled hub event) (.handled hub event')
  | taken {id : ClientId} {line line' : String} (hline : ¬circle id → line' = line) :
      Akin circle (.taken id line) (.taken id line')

/-- An event that was meant for the client was handled, and another one in its place. -/
def Happening.Discloses (id : ClientId) : Happening → Happening → Prop
  | .handled hub event, .handled _ event' => event ≠ event' ∧ hub.IsFor event id
  | _, _ => False

/-- The client was meant to receive something in which the traces differ. -/
def Learns (trace trace' : List Happening) (id : ClientId) : Prop :=
  ∃ happenings ∈ trace.zip trace', happenings.1.Discloses id happenings.2

instance (id : ClientId) :
    (happening happening' : Happening) → Decidable (happening.Discloses id happening')
  | .handled _ _, .handled _ _ => inferInstanceAs (Decidable (_ ∧ _))
  | .forwarded _ _, _ | .taken _ _, _ => inferInstanceAs (Decidable False)
  | .handled _ _, .forwarded _ _ | .handled _ _, .taken _ _ => inferInstanceAs (Decidable False)

instance (trace trace' : List Happening) (id : ClientId) : Decidable (Learns trace trace' id) :=
  inferInstanceAs (Decidable (∃ happenings ∈ trace.zip trace', happenings.1.Discloses id happenings.2))

variable {circle circle' : ClientId → Prop} {id : ClientId} {event event' : Event}
  {trace trace' happenings happenings' : List Happening}

theorem Happening.Akin.mono {happening happening' : Happening} (h : happening.Akin circle happening')
    (hcircle : ∀ id, circle id → circle' id) : happening.Akin circle' happening' := by
  cases h with
  | forwarded id hline => exact .forwarded id hline
  | handled hub hevent => exact .handled hub hevent
  | taken hline => exact .taken fun hid => hline fun hin => hid (hcircle _ hin)

theorem learns_append (hlength : happenings.length = happenings'.length) :
    Learns (happenings ++ trace) (happenings' ++ trace') id ↔
      Learns happenings happenings' id ∨ Learns trace trace' id := by
  simp only [Learns, List.zip_append hlength, List.mem_append, or_and_right, exists_or]

theorem learns_handled {hub hub' : Hub} :
    Learns [.handled hub event] [.handled hub' event'] id ↔ event ≠ event' ∧ hub.IsFor event id := by
  simp [Learns, Happening.Discloses]

theorem takenLines_eq (h : List.Forall₂ (Happening.Akin circle) trace trace') (hid : ¬circle id) :
    takenLines id trace' = takenLines id trace := by
  induction h with
  | nil => rfl
  | @cons happening happening' trace trace' hakin _ ih =>
    have hhead : happening'.taken? id = happening.taken? id := by
      cases hakin with
      | forwarded | handled => rfl
      | @taken other line line' hline =>
        by_cases hother : other = id
        · subst hother
          rw [hline hid]
        · simp only [Happening.taken?, if_neg hother]
    simp only [takenLines, List.filterMap_cons, hhead] at ih ⊢
    rw [ih]

/-- An outbox with as many lines, which say nothing. -/
def Outbox.blank (outbox : Outbox) : Outbox :=
  { outbox with lines := outbox.lines.map fun _ => "" }

namespace Outbox

theorem blank_offer (outbox : Outbox) (line : String) :
    (outbox.offer line).blank = outbox.blank.offer "" := by
  simp only [offer, send, blank, List.length_map]
  split_ifs <;> simp

theorem taking?_blank (outbox : Outbox) :
    outbox.blank.taking? = outbox.taking?.map fun taken => (taken.1.blank, "") := by
  obtain ⟨capacity, lines, isHeld, isRead⟩ := outbox
  cases isRead <;> cases lines <;> cases isHeld <;> rfl

theorem Blind.exists_blank {change : Outbox → Outbox} (h : Blind change) :
    ∃ change' : Outbox → Outbox, ∀ outbox, (change outbox).blank = change' outbox.blank := by
  cases h with
  | offer line => exact ⟨(·.offer ""), fun outbox => outbox.blank_offer line⟩
  | hangUp => exact ⟨Outbox.hangUp, fun _ => rfl⟩
  | stopReading => exact ⟨Outbox.stopReading, fun _ => rfl⟩

end Outbox

/-- The outboxes of clients in the circle may hold other lines, but as many. -/
def Likeness.within (circle : ClientId → Prop) : Likeness := fun id outbox outbox' =>
  (¬circle id → outbox' = outbox) ∧ outbox'.map Outbox.blank = outbox.map Outbox.blank

/-- What is done to two such outboxes may differ in the circle, if it is the same to whoever sees no
line. -/
theorem Likeness.within_map {id : ClientId} {outbox outbox' : Option Outbox}
    {change change' : Outbox → Outbox} (blind : Outbox → Outbox)
    (h : within circle id outbox outbox')
    (hchange : ∀ outbox, (change outbox).blank = blind outbox.blank)
    (hchange' : ∀ outbox, (change' outbox).blank = blind outbox.blank)
    (hsame : ¬circle id → change' = change) :
    within circle id (outbox.map change) (outbox'.map change') := by
  refine ⟨fun hid => by rw [h.1 hid, hsame hid], ?_⟩
  have hcomp : Outbox.blank ∘ change = blind ∘ Outbox.blank := funext hchange
  have hcomp' : Outbox.blank ∘ change' = blind ∘ Outbox.blank := funext hchange'
  rw [Option.map_map, Option.map_map, hcomp, hcomp', ← Option.map_map, ← Option.map_map, h.2]

theorem Likeness.lasts_within : (within circle).Lasts where
  refl _ _ := ⟨fun _ => rfl, rfl⟩
  map hchange h := by
    obtain ⟨blind, hblind⟩ := hchange.exists_blank
    exact within_map blind h hblind hblind fun _ => rfl

theorem Likeness.within_mono (hcircle : ∀ id, circle id → circle' id) (id : ClientId)
    (outbox outbox' : Option Outbox) (h : within circle id outbox outbox') :
    within circle' id outbox outbox' :=
  ⟨fun hid => h.1 fun hin => hid (hcircle id hin), h.2⟩

namespace Exchange.Matches

variable {exchange exchange' : Exchange} {effect effect' : Effect} {effects effects' : List Effect}

theorem apply_akin (h : exchange.Matches (.within circle) exchange')
    (heffect : effect.Akin circle effect') :
    (exchange.apply effect).Matches (.within circle) (exchange'.apply effect') := by
  cases heffect with
  | refl => exact h.apply Likeness.lasts_within effect
  | @deliver id hid notice notice' =>
    refine h.updateOutbox id fun outbox outbox' hlike => ?_
    exact Likeness.within_map (·.offer "") hlike (·.blank_offer notice.line)
      (·.blank_offer notice'.line) fun hout => absurd hid hout

theorem foldl_apply_akin (h : exchange.Matches (.within circle) exchange')
    (heffects : List.Forall₂ (Effect.Akin circle) effects effects') :
    (effects.foldl Exchange.apply exchange).Matches (.within circle)
      (effects'.foldl Exchange.apply exchange') := by
  induction heffects generalizing exchange exchange' with
  | nil => exact h
  | cons heffect _ ih => exact ih (h.apply_akin heffect)

theorem handle_akin (h : exchange.Matches (.within circle) exchange')
    (hakin : Hub.AkinOutcomes circle (exchange.hub.handle event) (exchange.hub.handle event')) :
    (exchange.handle [event]).Matches (.within circle) (exchange'.handle [event']) := by
  rw [Exchange.handle, Exchange.handle, handleAll_singleton, handleAll_singleton, h.hub]
  generalize exchange.hub.handle event = outcome, exchange.hub.handle event' = outcome' at hakin ⊢
  cases hakin with
  | error defect => exact h.halt Likeness.lasts_within _
  | ok hub heffects =>
    have hhub := h.congr (fun exchange => { exchange with hub }) (fun _ _ => rfl) fun _ => rfl
    exact hhub.foldl_apply_akin heffects

end Exchange.Matches

/-- One line for all that have the same outline. -/
noncomputable def veil (line : String) : String :=
  (Quotient.mk (Setoid.ker Request.outlineOf) line).out

theorem veil_eq_iff {line line' : String} :
    veil line = veil line' ↔ Request.outlineOf line = Request.outlineOf line' := by
  rw [veil, veil, Quotient.out_inj, Quotient.eq, Setoid.ker_def]

theorem Choice.Akin.mapLine_eq {choice choice' : Choice} (h : choice.Akin choice') :
    choice'.mapLine veil = choice.mapLine veil := by
  cases h with
  | refl => rfl
  | write id hline => rw [mapLine, mapLine, veil_eq_iff.2 hline]

theorem Event.akin_of_mapLine_eq (h : event'.mapLine veil = event.mapLine veil) :
    event.Akin event' := by
  cases event <;> cases event' <;> simp only [mapLine, reduceCtorEq, line.injEq, register.injEq,
    exited.injEq, closed.injEq] at h
  case line.line id line other line' =>
    obtain ⟨rfl, hline⟩ := h
    exact .line other (veil_eq_iff.1 hline).symm
  case register.register =>
    obtain ⟨rfl, rfl⟩ := h
    exact .refl _
  case exited.exited | closed.closed =>
    obtain rfl := h
    exact .refl _
  case shutdown.shutdown => exact .refl _

theorem Happening.akin_of_mapLine_eq {happening happening' : Happening}
    (h : happening'.mapLine veil = happening.mapLine veil) : happening.Akin circle happening' := by
  cases happening <;> cases happening' <;> simp only [mapLine, reduceCtorEq, forwarded.injEq,
    handled.injEq, taken.injEq] at h
  case forwarded.forwarded id line other line' =>
    obtain ⟨rfl, hline⟩ := h
    exact .forwarded other (veil_eq_iff.1 hline).symm
  case handled.handled =>
    obtain ⟨rfl, hevent⟩ := h
    exact .handled _ (Event.akin_of_mapLine_eq hevent)
  case taken.taken =>
    obtain ⟨rfl, rfl⟩ := h
    exact .taken fun _ => rfl

theorem forall₂_akin_of_map_eq (h : happenings'.map (Happening.mapLine veil) =
    happenings.map (Happening.mapLine veil)) :
    List.Forall₂ (Happening.Akin circle) happenings happenings' := by
  rw [← List.forall₂_eq_eq_eq, List.forall₂_map_left_iff, List.forall₂_map_right_iff] at h
  exact h.flip.imp fun _ _ => Happening.akin_of_mapLine_eq

namespace Floor

variable {floor floor' after after' : Floor} {choice choice' : Choice}
  {choices choices' : List Choice} {settings : Settings} {before : List Happening}

/-- Nobody outside the circle can tell the floors apart. -/
def Akin (circle : ClientId → Prop) (floor floor' : Floor) : Prop :=
  (floor.mapLines veil).Matches (.within circle) (floor'.mapLines veil)

theorem Akin.refl (floor : Floor) : floor.Akin circle floor :=
  ⟨_, rfl, _, rfl, fun id => Likeness.lasts_within.refl id _⟩

theorem Akin.mono (h : floor.Akin circle floor') (hcircle : ∀ id, circle id → circle' id) :
    floor.Akin circle' floor' :=
  Matches.mono h (Likeness.within_mono hcircle)

theorem akin_iff : floor.Akin circle floor' ↔
    (floor.exchange.mapLines veil).Matches (.within circle) (floor'.exchange.mapLines veil) ∧
      floor'.activity.mapLines veil = floor.activity.mapLines veil ∧
      floor'.holders = floor.holders ∧ floor'.ringers = floor.ringers :=
  matches_iff

theorem Akin.hub (h : floor.Akin circle floor') : floor'.exchange.hub = floor.exchange.hub :=
  (akin_iff.1 h).1.hub

theorem exists_choose_of_mapLines {f : String → String} (hchoice : choice ≠ .handle)
    (hchoose : (floor.mapLines f).choose (choice.mapLine f) = some (happenings, after)) :
    ∃ happenings' after', floor.choose choice = some (happenings', after') ∧
      happenings'.map (Happening.mapLine f) = happenings ∧ after'.mapLines f = after := by
  rw [choose_mapLines floor hchoice, Option.map_eq_some_iff] at hchoose
  obtain ⟨⟨happenings', after'⟩, hchoose, heq⟩ := hchoose
  obtain ⟨rfl, rfl⟩ := Prod.mk.inj heq
  exact ⟨happenings', after', hchoose, rfl, rfl⟩

/-- What neither takes a line out of an outbox nor handles one goes the same way in both. -/
theorem Akin.carry (h : floor.Akin circle floor') (hchoice : choice.Akin choice')
    (hhandle : choice ≠ .handle) (htake : ∀ id, choice ≠ .take id)
    (hchoose : floor.choose choice = some (happenings, after)) :
    ∃ happenings' after', floor'.choose choice' = some (happenings', after') ∧
      after.Akin circle after' ∧ List.Forall₂ (Happening.Akin circle) happenings happenings' := by
  have hhandle' : choice' ≠ .handle := by
    cases hchoice with
    | refl => exact hhandle
    | write => simp
  have htake' (id : ClientId) : choice.mapLine veil ≠ .take id := by
    cases choice <;> simp [Choice.mapLine] at htake ⊢
  have hveiled := choose_mapLines (f := veil) floor hhandle
  rw [hchoose, Option.map_some] at hveiled
  obtain ⟨final, hfinal, hafter⟩ := Matches.choose Likeness.lasts_within h htake' hveiled
  rw [← hchoice.mapLine_eq] at hfinal
  obtain ⟨happenings', after', hchoose', hhappenings, rfl⟩ := exists_choose_of_mapLines hhandle' hfinal
  exact ⟨happenings', after', hchoose', hafter, forall₂_akin_of_map_eq hhappenings⟩

theorem Akin.take (h : floor.Akin circle floor')
    (hchoose : floor.choose (.take id) = some (happenings, after)) :
    ∃ happenings' after', floor'.choose (.take id) = some (happenings', after') ∧
      after.Akin circle after' ∧ List.Forall₂ (Happening.Akin circle) happenings happenings' := by
  obtain ⟨hexchange, hactivity, hholders, hringers⟩ := akin_iff.1 h
  obtain ⟨outbox, outbox', line, houtbox, htaking, rfl, rfl⟩ := choose_take_eq_some.1 hchoose
  obtain ⟨hsame, hblank⟩ : Likeness.within circle id floor.exchange.outboxes[id]?
    floor'.exchange.outboxes[id]? := hexchange.outboxes id
  rw [houtbox] at hsame hblank
  obtain ⟨found, hfound, hblank⟩ := Option.map_eq_some_iff.1 hblank
  have htaken : found.blank.taking? = some (outbox'.blank, "") := by
    rw [hblank, Outbox.taking?_blank, htaking]
    rfl
  rw [Outbox.taking?_blank, Option.map_eq_some_iff] at htaken
  obtain ⟨⟨found', line'⟩, htaking', heq⟩ := htaken
  have hblank' : found'.blank = outbox'.blank := (Prod.mk.inj heq).1
  -- Outside the circle it is the same outbox, so the same line is found.
  have hequal (hid : ¬circle id) : found' = outbox' ∧ line' = line := by
    obtain rfl := Option.some.inj (hfound.symm.trans (hsame hid))
    exact Prod.mk.inj (Option.some.inj (htaking'.symm.trans htaking))
  refine ⟨_, _, choose_take_eq_some.2 ⟨found, found', line', hfound, htaking', rfl, rfl⟩,
    akin_iff.2 ⟨?_, hactivity, hholders, hringers⟩, .cons (.taken fun hid => (hequal hid).2) .nil⟩
  refine hexchange.updateOutbox id fun first first' hfirst => ?_
  exact Likeness.within_map (fun _ => outbox'.blank) hfirst (fun _ => rfl) (fun _ => hblank')
    fun hid => by rw [(hequal hid).1]

theorem Akin.handle (h : floor.Akin circle floor') (hintact : floor.exchange.hub.directory.Intact)
    (hchoose : floor.choose .handle = some (happenings, after)) :
    ∃ happenings' after', floor'.choose .handle = some (happenings', after') ∧
      after.Akin (fun id => circle id ∨ Learns happenings happenings' id) after' ∧
      List.Forall₂ (Happening.Akin circle) happenings happenings' := by
  obtain ⟨hexchange, hactivity, hholders, hringers⟩ := akin_iff.1 h
  obtain ⟨event, events, hhandling, hopen, rfl, rfl⟩ := choose_handle_eq_some.1 hchoose
  have hopen' : floor'.exchange.isOpen = true := hexchange.isOpen.trans hopen
  have hhub : floor'.exchange.hub = floor.exchange.hub := h.hub
  rw [hhandling] at hactivity
  obtain ⟨event', events', hactivity', hevent, hrest⟩ := Activity.exists_of_mapLines_eq hactivity
  have hakin : event.Akin event' := Event.akin_of_mapLine_eq hevent
  refine ⟨_, _, choose_handle_eq_some.2 ⟨event', events', hactivity', hopen', rfl, rfl⟩,
    akin_iff.2 ⟨?_, hrest, hholders, hringers⟩, .cons (hhub ▸ .handled _ hakin) .nil⟩
  dsimp only
  rw [← Exchange.handle_mapLines, ← Exchange.handle_mapLines]
  apply Exchange.Matches.handle_akin
  · exact hexchange.mono (Likeness.within_mono fun id hid => Or.inl hid)
  · exact (Hub.handle_akin hintact hakin).mono fun id hid => Or.inr (learns_handled.2 hid)

/-- Whatever is chosen in one floor can be chosen in the other, but for the content of lines. -/
theorem Akin.choose (h : floor.Akin circle floor') (hintact : floor.exchange.hub.directory.Intact)
    (hchoice : choice.Akin choice') (hchoose : floor.choose choice = some (happenings, after)) :
    ∃ happenings' after', floor'.choose choice' = some (happenings', after') ∧
      after.Akin (fun id => circle id ∨ Learns happenings happenings' id) after' ∧
      List.Forall₂ (Happening.Akin circle) happenings happenings' := by
  by_cases hhandle : choice = .handle
  · subst hhandle
    cases hchoice
    exact h.handle hintact hchoose
  · suffices ∃ happenings' after', floor'.choose choice' = some (happenings', after') ∧
        after.Akin circle after' ∧ List.Forall₂ (Happening.Akin circle) happenings happenings' by
      obtain ⟨happenings', after', hchoose', hafter, hakin⟩ := this
      exact ⟨happenings', after', hchoose', hafter.mono fun id hid => Or.inl hid, hakin⟩
    by_cases htake : ∃ id, choice = .take id
    · obtain ⟨id, rfl⟩ := htake
      cases hchoice
      exact h.take hchoose
    · exact h.carry hchoice hhandle (fun id hid => htake ⟨id, hid⟩) hchoose

/-- The hub before a schedule, and after each of its choices. -/
def hubs (floor : Floor) : List Choice → List Hub
  | [] => [floor.exchange.hub]
  | choice :: choices =>
    floor.exchange.hub :: match floor.choose choice with
      | some (_, between) => between.hubs choices
      | none => []

theorem Akin.play (hbustle : Bustle settings before floor) (h : floor.Akin circle floor')
    (hchoices : List.Forall₂ Choice.Akin choices choices')
    (hplay : floor.play choices = some (trace, after)) :
    ∃ trace' after', floor'.play choices' = some (trace', after') ∧
      floor'.hubs choices' = floor.hubs choices ∧
      after.Akin (fun id => circle id ∨ Learns trace trace' id) after' ∧
      List.Forall₂ (Happening.Akin fun id => circle id ∨ Learns trace trace' id) trace trace' := by
  induction hchoices generalizing floor floor' before circle trace with
  | nil =>
    cases hplay
    exact ⟨[], floor', rfl, by rw [hubs, hubs, h.hub], h.mono fun id hid => Or.inl hid, .nil⟩
  | @cons choice choice' choices choices' hchoice _ ih =>
    -- From here on the circle includes those who learn of a difference by this choice.
    obtain ⟨happenings, between, rest, hchoose, hrest, rfl⟩ := play_cons_eq_some.1 hplay
    have hintact := hbustle.sound.exchange.reachable.intact
    obtain ⟨happenings', between', hchoose', hbetween, hhead⟩ := h.choose hintact hchoice hchoose
    obtain ⟨rest', after', hplay', hhubs, hafter, htail⟩ :=
      ih (hbustle.stir (stir_of_choose hchoose)) hbetween hrest
    have hwider (id : ClientId) : (circle id ∨ Learns happenings happenings' id) ∨ Learns rest rest' id ↔
        circle id ∨ Learns (happenings ++ rest) (happenings' ++ rest') id := by
      rw [learns_append hhead.length_eq, or_assoc]
    refine ⟨happenings' ++ rest', after', play_cons_eq_some.2 ⟨_, _, _, hchoose', hplay', rfl⟩, ?_,
      hafter.mono fun id => (hwider id).1, ?_⟩
    · rw [hubs, hubs, hchoose, hchoose', h.hub]
      exact congrArg _ hhubs
    · refine List.rel_append (hhead.imp fun _ _ hakin => hakin.mono fun id hid => Or.inl hid)
        (htail.imp fun _ _ hakin => hakin.mono fun id => (hwider id).1)

/-- Two runs with the same settings, in which everybody does the same but for the content of chats and
whispers. What can be done in one can be done in the other. The hub is the same after each step, and
what happens is the same but for the content of lines. A client that was not meant to learn of any
difference takes the same lines in both, and finds the same lines still waiting. -/
theorem keeps_content {exchange : Exchange} (hnew : Exchange.new settings = .ok exchange)
    (hchoices : List.Forall₂ Choice.Akin choices choices')
    (hplay : play { exchange } choices = some (trace, after)) :
    ∃ trace' after', play { exchange } choices' = some (trace', after') ∧
      hubs { exchange } choices' = hubs { exchange } choices ∧
      List.Forall₂ (Happening.Akin (Learns trace trace')) trace trace' ∧
      ∀ id, ¬Learns trace trace' id → takenLines id trace' = takenLines id trace ∧
        after'.exchange.outboxes[id]? = after.exchange.outboxes[id]? := by
  obtain ⟨trace', after', hplay', hhubs, hafter, hakin⟩ :=
    (@Akin.refl (fun _ => False) { exchange }).play (.start hnew) hchoices hplay
  simp only [false_or] at hafter hakin
  exact ⟨trace', after', hplay', hhubs, hakin, fun id hid =>
    ⟨takenLines_eq hakin hid, ((akin_iff.1 hafter).1.outboxes id).1 hid⟩⟩

set_option maxRecDepth 20000 in
/-- The first of three clients whispers to the second one, who takes what it is told. The third one cannot
tell what that was, nor what the first one writes when its exit has been handled. -/
theorem keeps_content_of_whisper : ∃ (exchange : Exchange) (after after' : Floor)
    (trace trace' : List Happening),
    let choices (line late : String) : List Choice :=
      [.connect 1 8, .connect 2 8, .connect 3 8, .post (.register 1 none), .order,
        .post (.register 2 none), .order, .post (.register 3 none), .order] ++ .write 1 line ::
      ([.answer [], .gather, .conclude, .handle, .post (.exited 1), .leave [], .conclude, .handle] ++
        .write 1 late ::
      [.answer [], .gather, .conclude, .handle, .take 2, .take 2, .take 2, .take 3])
    Exchange.new {} = .ok exchange ∧
      List.Forall₂ Choice.Akin (choices "WHISPER::guest2:yes" "CHAT:::well")
        (choices "whisper:x:guest2:no" "CHAT:::ill") ∧
      play { exchange } (choices "WHISPER::guest2:yes" "CHAT:::well") = some (trace, after) ∧
      play { exchange } (choices "whisper:x:guest2:no" "CHAT:::ill") = some (trace', after') ∧
      Learns trace trace' 2 ∧ takenLines 2 trace' ≠ takenLines 2 trace ∧
      ¬Learns trace trace' 3 ∧ takenLines 3 trace' = takenLines 3 trace := by
  let choices (line late : String) : List Choice :=
    [.connect 1 8, .connect 2 8, .connect 3 8, .post (.register 1 none), .order,
      .post (.register 2 none), .order, .post (.register 3 none), .order] ++ .write 1 line ::
    ([.answer [], .gather, .conclude, .handle, .post (.exited 1), .leave [], .conclude, .handle] ++
      .write 1 late ::
    [.answer [], .gather, .conclude, .handle, .take 2, .take 2, .take 2, .take 3])
  have hline : Request.outlineOf "WHISPER::guest2:yes" = Request.outlineOf "whisper:x:guest2:no" := by
    decide
  have hlate : Request.outlineOf "CHAT:::well" = Request.outlineOf "CHAT:::ill" := by
    decide
  have hchoices : List.Forall₂ Choice.Akin (choices "WHISPER::guest2:yes" "CHAT:::well")
      (choices "whisper:x:guest2:no" "CHAT:::ill") := by
    have hsame (same : List Choice) : List.Forall₂ Choice.Akin same same :=
      List.forall₂_same.2 fun choice _ => .refl choice
    exact List.rel_append (hsame _)
      (.cons (.write 1 hline) (List.rel_append (hsame _) (.cons (.write 1 hlate) (hsame _))))
  obtain ⟨exchange, after, after', trace, trace', hnew, hplay, hplay', hlearns, hother, hapart⟩ :
      ∃ (exchange : Exchange) (after after' : Floor) (trace trace' : List Happening),
        Exchange.new {} = .ok exchange ∧
        play { exchange } (choices "WHISPER::guest2:yes" "CHAT:::well") = some (trace, after) ∧
        play { exchange } (choices "whisper:x:guest2:no" "CHAT:::ill") = some (trace', after') ∧
        Learns trace trace' 2 ∧ takenLines 2 trace' ≠ takenLines 2 trace ∧
        ¬Learns trace trace' 3 :=
    ⟨_, _, _, _, _, rfl, rfl, rfl, by decide, by decide, by decide⟩
  obtain ⟨found, final, hfound, -, -, hothers⟩ := keeps_content hnew hchoices hplay
  rw [hplay', Option.some.injEq, Prod.mk.injEq] at hfound
  obtain ⟨rfl, rfl⟩ := hfound
  exact ⟨exchange, after, after', trace, trace', hnew, hchoices, hplay, hplay', hlearns, hother,
    hapart, (hothers 3 hapart).1⟩

end Floor

end ChatRooms
