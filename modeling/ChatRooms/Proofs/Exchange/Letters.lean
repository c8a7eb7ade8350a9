import ChatRooms.Proofs.Exchange.Succession
import ChatRooms.Proofs.Hub.Publicity

namespace ChatRooms

open Std

/-- A notice that an outbox took in, and where in the trace the event stands by which it came about. -/
structure Letter where
  place : Nat
  notice : Notice
  deriving DecidableEq, Repr

def Letter.line (letter : Letter) : String :=
  letter.notice.line

def Outbox.takesIn (id : ClientId) (outbox : Outbox) : List Effect → List Notice
  | [] => []
  | .deliver other notice :: effects =>
    if other = id then
      (if (outbox.send notice.line).isOk then [notice] else []) ++
        takesIn id (outbox.offer notice.line) effects
    else takesIn id outbox effects
  | .hangUp other :: effects => takesIn id (outbox.absorb id (.hangUp other)) effects
  | .attach _ :: effects | .detach _ :: effects => takesIn id outbox effects

/-- What the outbox takes in while this happens. -/
def Happening.takenIn (id : ClientId) (outbox : Outbox) : Happening → List Notice
  | handled hub event =>
    match hub.handle event with
    | .ok (_, effects) => outbox.takesIn id effects
    | .error _ => []
  | forwarded _ _ | taken _ _ => []

/-- The letters whose lines the client's connection has taken. -/
def received (trace : List Happening) (letters : ClientId → List Letter) (id : ClientId) : List Letter :=
  (letters id).take (takenLines id trace).length

/-- Where the events stand of which the letters tell a whole room. -/
def publicPlaces (letters : List Letter) : List Nat :=
  (letters.filter fun letter => letter.notice.isPublic).map Letter.place

namespace Floor

/-- What the client's outbox takes in of something that happens at this place in the trace. -/
def lettersFor (floor : Floor) (id : ClientId) (place : Nat) (happenings : List Happening) :
    List Letter :=
  match floor.exchange.outboxes[id]? with
  | some outbox => (happenings.flatMap (Happening.takenIn id outbox)).map fun notice => { place, notice }
  | none => []

/-- A run, and what each client's outbox took in. -/
inductive Recorded (settings : Settings) :
    List Happening → (ClientId → List Letter) → Floor → Prop where
  | start {exchange : Exchange} (hnew : Exchange.new settings = .ok exchange) :
      Recorded settings [] (fun _ => []) { exchange }
  | step {trace happenings : List Happening} {letters : ClientId → List Letter} {floor floor' : Floor}
      (before : Recorded settings trace letters floor) (hstir : Stir floor happenings floor') :
      Recorded settings (trace ++ happenings)
        (fun id => letters id ++ floor.lettersFor id trace.length happenings) floor'

end Floor

namespace Outbox

variable {outbox : Outbox} {id : ClientId}

theorem lines_takesIn (outbox : Outbox) (id : ClientId) (effects : List Effect) :
    (outbox.takesIn id effects).map Notice.line = acceptedLines (outbox.offers id effects) := by
  induction effects generalizing outbox with
  | nil => rfl
  | cons effect effects ih =>
    cases effect with
    | deliver other notice =>
      rw [takesIn, offers]
      split
      next =>
        have hfirst (rest : List Offer) : acceptedLines ({ outbox, line := notice.line } :: rest) =
            acceptedLines [{ outbox, line := notice.line }] ++ acceptedLines rest :=
          @acceptedLines_append [{ outbox, line := notice.line }] rest
        rw [List.map_append, ih, hfirst]
        congr 1
        cases hsend : (outbox.send notice.line).isOk <;> simp [acceptedLines, Offer.isTaken, hsend]
      next => exact ih outbox
    | hangUp other => exact ih _
    | attach | detach => exact ih outbox

theorem takesIn_sublist (outbox : Outbox) (id : ClientId) (effects : List Effect) :
    (outbox.takesIn id effects).Sublist (noticesFor id effects) := by
  induction effects generalizing outbox with
  | nil => exact .refl _
  | cons effect effects ih =>
    cases effect with
    | deliver other notice =>
      rw [takesIn]
      split
      next hid =>
        subst hid
        rw [Hub.noticesFor_deliver_self]
        have hfirst : (if (outbox.send notice.line).isOk then [notice] else []).Sublist [notice] := by
          split
          next => exact .refl _
          next => exact List.nil_sublist _
        exact hfirst.append (ih _)
      next hid =>
        rw [Hub.noticesFor_deliver_of_ne hid]
        exact ih outbox
    | hangUp other => exact ih _
    | attach | detach => exact ih outbox

end Outbox

theorem Happening.lines_takenIn (happening : Happening) (id : ClientId) (outbox : Outbox) :
    (happening.takenIn id outbox).map Notice.line = acceptedLines (happening.offers id outbox) := by
  cases happening with
  | handled hub event =>
    rw [takenIn, offers]
    cases hub.handle event with
    | error => rfl
    | ok => exact Outbox.lines_takesIn _ _ _
  | forwarded | taken => rfl

namespace Exchange

variable {exchange : Exchange} {id : ClientId} {event : Event} {order : Order}

theorem outboxes_halt_eq_none {phase : Phase} (h : exchange.outboxes[id]? = none) :
    (exchange.halt phase).outboxes[id]? = none := by
  rw [halt, ExtTreeMap.getElem?_map, h, Option.map_none]

theorem outboxes_handle_eq_none (h : exchange.outboxes[id]? = none) :
    (exchange.handle [event]).outboxes[id]? = none := by
  rcases handle_eq exchange event with ⟨hub, effects, outboxes, hhandle, -⟩ | ⟨defect, -, heq⟩
  · rw [getElem?_outboxes_handle hhandle, h, Option.map_none]
  · rw [heq]
    exact outboxes_halt_eq_none h

theorem outboxes_updateOutbox_eq_none {other : ClientId} {change : Outbox → Outbox}
    (h : exchange.outboxes[id]? = none) : (exchange.updateOutbox other change).outboxes[id]? = none := by
  rw [getElem?_updateOutbox, h]
  split <;> rfl

theorem Obeys.outboxes_eq_none {happenings : List Happening} {exchange' : Exchange}
    (hobeys : Obeys exchange order happenings exchange') (h : exchange.outboxes[id]? = none) :
    exchange'.outboxes[id]? = none := by
  cases hobeys with
  | registered _ houtboxes =>
    dsimp only
    rw [houtboxes]
    exact outboxes_handle_eq_none h
  | failed => exact outboxes_halt_eq_none h
  | refused => exact outboxes_updateOutbox_eq_none h
  | closing => exact outboxes_handle_eq_none h
  | ignored => exact h

end Exchange

namespace Floor

variable {settings : Settings} {id : ClientId} {trace happenings : List Happening}
  {floor floor' : Floor} {outbox : Outbox} {place : Nat}

theorem lines_lettersFor (houtbox : floor.exchange.outboxes[id]? = some outbox) :
    (floor.lettersFor id place happenings).map Letter.line =
      acceptedLines (happenings.flatMap (Happening.offers id outbox)) := by
  rw [lettersFor, houtbox]
  dsimp only
  rw [List.map_map]
  induction happenings with
  | nil => rfl
  | cons happening happenings ih =>
    rw [List.flatMap_cons, List.flatMap_cons, List.map_append, ih, acceptedLines_append,
      ← Happening.lines_takenIn]
    rfl

theorem mem_publicPlaces {letters : List Letter} (hmem : place ∈ publicPlaces letters) :
    ∃ letter ∈ letters, letter.place = place := by
  obtain ⟨letter, hletter, hplace⟩ := List.mem_map.1 hmem
  exact ⟨letter, List.mem_of_mem_filter hletter, hplace⟩

theorem length_publicPlaces_le {letters : List Letter} {effects : List Effect}
    (h : (letters.map Letter.notice).Sublist (noticesFor id effects)) :
    (publicPlaces letters).length ≤ (Hub.publicFor id effects).length := by
  calc (publicPlaces letters).length
      = ((letters.map Letter.notice).filter Notice.isPublic).length := by
        rw [publicPlaces, List.filter_map, List.length_map, List.length_map]
        rfl
    _ ≤ (Hub.publicFor id effects).length := (h.filter _).length_le

theorem lettersFor_eq_nil (hnothing : ∀ hub event, .handled hub event ∉ happenings) :
    floor.lettersFor id place happenings = [] := by
  have hnone (outbox : Outbox) : happenings.flatMap (Happening.takenIn id outbox) = [] := by
    rw [List.flatMap_eq_nil_iff]
    intro happening hmem
    cases happening with
    | handled hub event => exact absurd hmem (hnothing hub event)
    | forwarded | taken => rfl
  unfold lettersFor
  split
  next outbox _ => rw [hnone, List.map_nil]
  next => rfl

/-- All that the outbox takes in is part of what the hub sends to the client, as it handles one event. -/
theorem lettersFor_handled {hub : Hub} {event : Event} {hub' : Hub} {effects : List Effect}
    (hhandle : hub.handle event = .ok (hub', effects)) :
    ((floor.lettersFor id place [.handled hub event]).map Letter.notice).Sublist
      (noticesFor id effects) := by
  unfold lettersFor
  split
  next outbox _ =>
    rw [List.flatMap_singleton, Happening.takenIn, hhandle, List.map_map]
    exact (List.map_id _).symm ▸ outbox.takesIn_sublist id effects
  next => exact List.nil_sublist _

theorem lettersFor_failed {hub : Hub} {event : Event} {defect : Defect}
    (hfailed : hub.handle event = .error defect) :
    floor.lettersFor id place [.handled hub event] = [] := by
  unfold lettersFor
  split
  next =>
    rw [List.flatMap_singleton, Happening.takenIn, hfailed]
    rfl
  next => rfl

theorem place_of_mem_lettersFor {letter : Letter}
    (hmem : letter ∈ floor.lettersFor id place happenings) : letter.place = place := by
  unfold lettersFor at hmem
  split at hmem
  next =>
    obtain ⟨notice, -, rfl⟩ := List.mem_map.1 hmem
    rfl
  next => cases hmem

theorem Stir.takenLines_eq_nil (hstir : Stir floor happenings floor')
    (hnone : floor.exchange.outboxes[id]? = none) : takenLines id happenings = [] := by
  cases hstir with
  | write | report => rfl
  | step hstep =>
    cases hstep with
    | @take other outbox outbox' line houtbox =>
      have hne : other ≠ id := by
        rintro rfl
        cases hnone.symm.trans houtbox
      simp [takenLines, Happening.taken?, hne]
    | order =>
      unfold Exchange.announced
      split <;> rfl
    | connect | post | giveUp | write | letGo | vanish | ring | stopReading | pass | dropHandles | leave
      | answer | gather | conclude | handle | close | stop => rfl

theorem Stir.appears (hstir : Stir floor happenings floor')
    (hnone : floor.exchange.outboxes[id]? = none)
    (hsome : floor'.exchange.outboxes[id]? = some outbox) :
    id ∈ floor'.exchange.registrations ∧ outbox.lines = [] := by
  have never (hsame : floor'.exchange.outboxes[id]? = none) :
      id ∈ floor'.exchange.registrations ∧ outbox.lines = [] := by
    cases hsame.symm.trans hsome
  cases hstir with
  | write => exact never hnone
  | report hpost =>
    obtain rfl := Exchange.eq_of_post hpost
    exact never hnone
  | step hstep =>
    cases hstep with
    | @connect other capacity fresh hnew houtbox =>
      by_cases hid : other = id
      · subst hid
        obtain rfl := Outbox.eq_of_new houtbox
        refine ⟨ExtTreeMap.mem_insert_self, ?_⟩
        obtain rfl := Option.some.inj (ExtTreeMap.getElem?_insert_self.symm.trans hsome)
        rfl
      · exact never ((Maps.getElem?_insert_of_ne hid).trans hnone)
    | post _ hpost =>
      obtain rfl := Exchange.eq_of_post hpost
      exact never hnone
    | giveUp | take | stopReading => exact never (Exchange.outboxes_updateOutbox_eq_none hnone)
    | write | letGo | vanish | ring | pass | dropHandles | leave | answer | gather | conclude =>
      exact never hnone
    | order _ _ _ hstays => exact never ((Exchange.obeys_takeOrder hstays).outboxes_eq_none hnone)
    | handle | close => exact never (Exchange.outboxes_handle_eq_none hnone)
    | stop => exact never (Exchange.outboxes_halt_eq_none hnone)

theorem Bustle.recorded (h : Bustle settings trace floor) :
    ∃ letters, Recorded settings trace letters floor := by
  refine h.preserves (P := fun trace floor => ∃ letters, Recorded settings trace letters floor)
    (fun exchange hnew => ⟨_, .start hnew⟩) fun _ hrecorded hstir => ?_
  obtain ⟨letters, hrecorded⟩ := hrecorded
  exact ⟨_, hrecorded.step hstir⟩

namespace Recorded

variable {letters : ClientId → List Letter}

theorem bustle (h : Recorded settings trace letters floor) : Bustle settings trace floor := by
  induction h with
  | start hnew => exact .start hnew
  | step _ hstir ih => exact ih.stir hstir

/-- Every letter was sent when the event at its place was handled, and of each event a client has at most
one public letter. -/
structure Dated (id : ClientId) (trace : List Happening) (letters : List Letter) : Prop where
  sent : ∀ letter ∈ letters, ∃ hub event hub' effects,
    HappensAt trace letter.place (.handled hub event) ∧ hub.handle event = .ok (hub', effects) ∧
      .deliver id letter.notice ∈ effects
  ordered : (publicPlaces letters).Pairwise (· < ·)

theorem Dated.step (h : Dated id trace (letters id)) (hsound : Sound settings trace floor)
    (hstir : Stir floor happenings floor') :
    Dated id (trace ++ happenings) (letters id ++ floor.lettersFor id trace.length happenings) := by
  have hearlier : ∀ letter ∈ letters id, letter.place < trace.length := by
    intro letter hmem
    obtain ⟨_, _, _, _, hat, -⟩ := h.sent letter hmem
    exact hat.lt
  have quiet (hnone : floor.lettersFor id trace.length happenings = []) :
      Dated id (trace ++ happenings)
        (letters id ++ floor.lettersFor id trace.length happenings) := by
    rw [hnone, List.append_nil]
    refine ⟨fun letter hmem => ?_, h.ordered⟩
    obtain ⟨hub, event, hub', effects, hat, hhandle, hdeliver⟩ := h.sent letter hmem
    exact ⟨hub, event, hub', effects, hat.append _, hhandle, hdeliver⟩
  have hafter := hsound.stir hstir
  cases hstir.upshot hsound id with
  | quiet hnothing => exact quiet (lettersFor_eq_nil hnothing)
  | failed hfailed => exact quiet (lettersFor_failed hfailed)
  | @handled event hub effects floor' hhandle =>
    have hadmits := (hafter.heard (List.mem_append_right _ (List.mem_singleton_self _))).2
    -- One event tells a client at most one public line, so the fresh places are in order by themselves.
    let fresh : List Letter := floor.lettersFor id trace.length [.handled floor.exchange.hub event]
    have hsent : (fresh.map Letter.notice).Sublist (noticesFor id effects) := lettersFor_handled hhandle
    have hsingle : (publicPlaces fresh).length ≤ 1 :=
      (length_publicPlaces_le hsent).trans ((Hub.steps_of_handle hhandle).length_publicFor_le
        hsound.exchange.reachable.intact hadmits id)
    constructor
    · intro letter hmem
      rcases List.mem_append.1 hmem with hmem | hmem
      · obtain ⟨hub, event, hub', effects, hat, hhandle, hdeliver⟩ := h.sent letter hmem
        exact ⟨hub, event, hub', effects, hat.append _, hhandle, hdeliver⟩
      · refine ⟨_, event, hub, effects, ?_, hhandle, ?_⟩
        · rw [place_of_mem_lettersFor hmem]
          exact .last
        · exact Hub.mem_noticesFor.1 (hsent.subset (List.mem_map_of_mem hmem))
    · rw [publicPlaces, List.filter_append, List.map_append]
      refine List.pairwise_append.2 ⟨h.ordered, ?_, fun place hplace place' hplace' => ?_⟩
      · show (publicPlaces fresh).Pairwise (· < ·)
        generalize publicPlaces fresh = places at hsingle ⊢
        rcases places with _ | ⟨first, _ | ⟨second, rest⟩⟩
        · exact .nil
        · exact List.pairwise_singleton _ _
        · simp at hsingle
      · obtain ⟨letter, hletter, rfl⟩ := mem_publicPlaces hplace
        obtain ⟨letter', hletter', rfl⟩ := mem_publicPlaces hplace'
        rw [place_of_mem_lettersFor hletter']
        exact hearlier letter hletter

theorem dated (h : Recorded settings trace letters floor) (id : ClientId) :
    Dated id trace (letters id) := by
  induction h with
  | start => exact ⟨fun letter hmem => absurd hmem List.not_mem_nil, List.Pairwise.nil⟩
  | step before hstir ih => exact ih.step before.bustle.sound hstir

/-- What a client has received and what waits for it is what its outbox took in. -/
structure Stored (id : ClientId) (trace : List Happening) (letters : List Letter) (floor : Floor) :
    Prop where
  absent : floor.exchange.outboxes[id]? = none → takenLines id trace = [] ∧ letters = []
  known : floor.exchange.outboxes[id]? ≠ none → id ∈ floor.exchange.registrations
  kept {outbox : Outbox} : floor.exchange.outboxes[id]? = some outbox → ∃ empty offers,
    empty.lines = [] ∧ acceptedLines offers = letters.map Letter.line ∧
      Outbox.Keeps empty offers (takenLines id trace) outbox

theorem Stored.step (h : Stored id trace (letters id) floor) (hstir : Stir floor happenings floor') :
    Stored id (trace ++ happenings) (letters id ++ floor.lettersFor id trace.length happenings)
      floor' := by
  cases houtbox : floor.exchange.outboxes[id]? with
  | none =>
    obtain ⟨htaken, hletters⟩ := h.absent houtbox
    have hnothing : floor.lettersFor id trace.length happenings = [] := by
      rw [lettersFor, houtbox]
    have htaken' : takenLines id (trace ++ happenings) = [] := by
      rw [takenLines_append, htaken, hstir.takenLines_eq_nil houtbox]
      rfl
    rw [hnothing, hletters]
    refine ⟨fun _ => ⟨htaken', rfl⟩, fun hsome => ?_, fun {outbox} hsome => ?_⟩
    · obtain ⟨outbox, hsome⟩ := Option.ne_none_iff_exists'.1 hsome
      exact (hstir.appears houtbox hsome).1
    · rw [htaken']
      exact ⟨outbox, [], (hstir.appears houtbox hsome).2, rfl, .refl outbox⟩
  | some outbox =>
    obtain ⟨empty, offers, hempty, hoffers, hkeeps⟩ := h.kept houtbox
    obtain ⟨hknown, outbox', houtbox', hkeeps'⟩ :=
      hstir.carries id (h.known (by simp [houtbox])) outbox houtbox
    refine ⟨fun hnone => ?_, fun _ => hknown, fun {found} hfound => ?_⟩
    · cases hnone.symm.trans houtbox'
    · obtain rfl := Option.some.inj (houtbox'.symm.trans hfound)
      rw [takenLines_append]
      refine ⟨empty, _, hempty, ?_, hkeeps.trans hkeeps'⟩
      rw [acceptedLines_append, hoffers, List.map_append, lines_lettersFor houtbox]

theorem stored (h : Recorded settings trace letters floor) (id : ClientId) :
    Stored id trace (letters id) floor := by
  induction h with
  | start hnew =>
    obtain ⟨room, -, rfl⟩ := Exchange.exists_of_new hnew
    have hnone : (∅ : ExtTreeMap ClientId Outbox)[id]? = none := ExtTreeMap.getElem?_empty
    refine ⟨fun _ => ⟨rfl, rfl⟩, fun hsome => absurd hnone hsome, fun hsome => ?_⟩
    cases hnone.symm.trans hsome
  | step _ hstir ih => exact ih.step hstir

/-- What a client's connection has taken is what the outbox took in first. -/
theorem lines_received (h : Recorded settings trace letters floor) (id : ClientId) :
    (received trace letters id).map Letter.line = takenLines id trace := by
  have hstored := h.stored id
  have hbegins : takenLines id trace <+: (letters id).map Letter.line := by
    cases houtbox : floor.exchange.outboxes[id]? with
    | none =>
      rw [(hstored.absent houtbox).1]
      exact List.nil_prefix
    | some outbox =>
      obtain ⟨empty, offers, hempty, hoffers, hkeeps⟩ := hstored.kept houtbox
      have hbegins := hkeeps.begins
      rw [hempty, List.nil_append, hoffers] at hbegins
      exact hbegins
  rw [received, List.map_take]
  exact (List.prefix_iff_eq_take.1 hbegins).symm

end Recorded

end Floor

end ChatRooms
