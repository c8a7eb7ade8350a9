import ChatRooms.Proofs.Exchange.Apart

namespace ChatRooms

open Std

/-- A line that is sent to a client, and the client's outbox as it is at that moment. -/
structure Offer where
  outbox : Outbox
  line : String
  deriving DecidableEq, Repr

def Offer.isTaken (offer : Offer) : Bool :=
  (offer.outbox.send offer.line).isOk

def acceptedLines (offers : List Offer) : List String :=
  (offers.filter Offer.isTaken).map Offer.line

/-- What the effects offer to the outbox of a client, one after the other. -/
def Outbox.offers (id : ClientId) (outbox : Outbox) : List Effect → List Offer
  | [] => []
  | .deliver other notice :: effects =>
    if other = id then
      { outbox, line := notice.line } :: offers id (outbox.offer notice.line) effects
    else offers id outbox effects
  | .hangUp other :: effects => offers id (outbox.absorb id (.hangUp other)) effects
  | .attach _ :: effects | .detach _ :: effects => offers id outbox effects

/-- What is offered to the outbox of a client while this happens. -/
def Happening.offers (id : ClientId) (outbox : Outbox) : Happening → List Offer
  | handled hub event =>
    match hub.handle event with
    | .ok (_, effects) => outbox.offers id effects
    | .error _ => []
  | forwarded _ _ | taken _ _ => []

namespace Floor

def offered (floor : Floor) (id : ClientId) (happenings : List Happening) : List Offer :=
  match floor.exchange.outboxes[id]? with
  | some outbox => happenings.flatMap (Happening.offers id outbox)
  | none => []

/-- Everything that is offered to the outbox of a client in the course of a schedule. -/
def offersTo (floor : Floor) (id : ClientId) : List Choice → List Offer
  | [] => []
  | choice :: choices =>
    match floor.choose choice with
    | some (happenings, between) => floor.offered id happenings ++ between.offersTo id choices
    | none => []

end Floor

/-- What becomes of what an outbox held and was offered, when these lines are taken out of it. -/
structure Outbox.Keeps (before : Outbox) (offers : List Offer) (taken : List String)
    (after : Outbox) : Prop where
  begins : taken <+: before.lines ++ acceptedLines offers
  kept : after.isRead = true → before.lines ++ acceptedLines offers = taken ++ after.lines
  read : after.isRead = true → before.isRead = true
  unread : before.isRead = false → taken = []

variable {outbox outbox' outbox'' : Outbox} {offers offers' : List Offer} {id other : ClientId}
  {taken taken' : List String} {effects : List Effect} {event : Event} {line : String}

theorem acceptedLines_append :
    acceptedLines (offers ++ offers') = acceptedLines offers ++ acceptedLines offers' := by
  rw [acceptedLines, List.filter_append, List.map_append, acceptedLines, acceptedLines]

theorem acceptedLines_sublist : (acceptedLines offers).Sublist (offers.map Offer.line) :=
  List.filter_sublist.map Offer.line

theorem Offer.isTaken_eq_false {offer : Offer} : offer.isTaken = false ↔
    offer.outbox.capacity ≤ offer.outbox.lines.length ∨ offer.outbox.isRead = false ∨
      offer.outbox.isHeld = false := by
  unfold isTaken Outbox.send
  split
  next hclosed =>
    rw [Bool.or_eq_true, Bool.not_eq_true', Bool.not_eq_true'] at hclosed
    exact iff_of_true rfl (Or.inr hclosed.symm)
  next hopen =>
    rw [Bool.or_eq_true, Bool.not_eq_true', Bool.not_eq_true', or_comm] at hopen
    split
    next hfull => exact iff_of_true rfl (Or.inl hfull)
    next hroom => exact iff_of_false (by rintro ⟨⟩) (not_or.2 ⟨hroom, hopen⟩)

namespace Outbox

namespace Keeps

theorem refl (outbox : Outbox) : outbox.Keeps [] [] outbox where
  begins := List.nil_prefix
  kept _ := List.append_nil _
  read h := h
  unread _ := rfl

theorem of_lines (hlines : outbox'.lines = outbox.lines ++ acceptedLines offers)
    (hread : outbox'.isRead = outbox.isRead) : outbox.Keeps offers [] outbox' where
  begins := List.nil_prefix
  kept _ := hlines.symm
  read h := hread ▸ h
  unread _ := rfl

theorem of_take (h : outbox.take = (outbox', .line line)) : outbox.Keeps [] [line] outbox' := by
  have hlines := lines_of_take h
  have hread : outbox.isRead = true ∧ outbox'.isRead = outbox.isRead := by
    unfold take at h
    split at h
    next => cases h
    next hreads =>
      rw [Bool.not_eq_true', Bool.not_eq_false] at hreads
      split at h
      next => exact ⟨hreads, (Prod.mk.inj h).1 ▸ rfl⟩
      next => split at h <;> cases h
  refine ⟨?_, fun _ => ?_, fun _ => hread.1, fun hunread => ?_⟩
  · rw [hlines]
    exact ⟨outbox'.lines ++ [], rfl⟩
  · rw [hlines]
    exact List.append_nil _
  · rw [hread.1] at hunread
    cases hunread

theorem stopReading (outbox : Outbox) : outbox.Keeps [] [] outbox.stopReading where
  begins := List.nil_prefix
  kept hread := by cases hread
  read hread := by cases hread
  unread _ := rfl

theorem trans (h : outbox.Keeps offers taken outbox')
    (h' : outbox'.Keeps offers' taken' outbox'') :
    outbox.Keeps (offers ++ offers') (taken ++ taken') outbox'' where
  begins := by
    rw [acceptedLines_append, ← List.append_assoc]
    cases hread : outbox'.isRead with
    | true =>
      rw [h.kept hread, List.append_assoc]
      exact List.prefix_append_right_inj _ |>.2 h'.begins
    | false =>
      -- Nothing is taken out any more.
      rw [h'.unread hread, List.append_nil]
      exact h.begins.trans (List.prefix_append _ _)
  kept hread := by
    rw [acceptedLines_append, ← List.append_assoc, h.kept (h'.read hread), List.append_assoc,
      h'.kept hread, List.append_assoc]
  read hread := h.read (h'.read hread)
  unread hunread := by
    have hstill : outbox'.isRead = false := by
      cases hread : outbox'.isRead with
      | true => rw [← hunread, h.read hread]
      | false => rfl
    rw [h.unread hunread, h'.unread hstill, List.append_nil]

end Keeps

theorem isRead_offer (outbox : Outbox) (line : String) :
    (outbox.offer line).isRead = outbox.isRead := by
  rcases outbox.offer_eq line with heq | heq <;> rw [heq]

theorem lines_offer (outbox : Outbox) (line : String) :
    (outbox.offer line).lines = outbox.lines ++ acceptedLines [{ outbox, line }] := by
  cases hsend : outbox.send line with
  | ok after => simp [offer, hsend, acceptedLines, Offer.isTaken, lines_of_send hsend, Except.isOk,
      Except.toBool]
  | error cause => simp [offer, hsend, acceptedLines, Offer.isTaken, Except.isOk, Except.toBool]

/-- Effects only ever add to an outbox, and exactly what it takes in. -/
theorem keeps_effects (outbox : Outbox) (id : ClientId) (effects : List Effect) :
    outbox.Keeps (outbox.offers id effects) [] (effects.foldl (absorb id) outbox) := by
  induction effects generalizing outbox with
  | nil => exact .refl outbox
  | cons effect effects ih =>
    rw [List.foldl_cons]
    cases effect with
    | deliver other notice =>
      rw [offers, absorb]
      split
      next =>
        exact (Keeps.of_lines (outbox.lines_offer notice.line)
          (outbox.isRead_offer notice.line)).trans (ih _)
      next => exact ih outbox
    | hangUp other =>
      have hkept : outbox.Keeps [] [] (outbox.absorb id (.hangUp other)) := by
        rw [absorb]
        split
        next => exact .of_lines (List.append_nil _).symm rfl
        next => exact .refl outbox
      exact hkept.trans (ih _)
    | attach | detach => exact ih outbox

theorem line_offers (outbox : Outbox) (id : ClientId) (effects : List Effect) :
    (outbox.offers id effects).map Offer.line = (noticesFor id effects).map Notice.line := by
  induction effects generalizing outbox with
  | nil => rfl
  | cons effect effects ih =>
    cases effect with
    | deliver other notice =>
      rw [offers]
      split
      next hid =>
        subst hid
        rw [Hub.noticesFor_deliver_self, List.map_cons, List.map_cons, ih]
      next hid => rw [Hub.noticesFor_deliver_of_ne hid, ih]
    | hangUp other => exact ih _
    | attach | detach => exact ih outbox

end Outbox

theorem Happening.line_offers (happening : Happening) (id : ClientId) (outbox : Outbox) :
    (happening.offers id outbox).map Offer.line = (happening.postsTo id).map Post.line := by
  cases happening with
  | handled hub event =>
    rw [Happening.offers, Happening.postsTo]
    cases hhandle : hub.handle event with
    | error defect =>
      rw [Hub.postsTo, hhandle]
      rfl
    | ok outcome => rw [lines_postsTo hhandle, Outbox.line_offers]
  | forwarded | taken => rfl

namespace Exchange

variable {exchange exchange' : Exchange} {order : Order} {happenings : List Happening}
  {change : Outbox → Outbox} {phase : Phase}

/-- The outbox of a client keeps what it is offered while this happens. -/
def Carries (id : ClientId) (exchange : Exchange) (happenings : List Happening)
    (exchange' : Exchange) : Prop :=
  id ∈ exchange.registrations → ∀ outbox, exchange.outboxes[id]? = some outbox →
    id ∈ exchange'.registrations ∧ ∃ outbox', exchange'.outboxes[id]? = some outbox' ∧
      outbox.Keeps (happenings.flatMap (Happening.offers id outbox)) (takenLines id happenings) outbox'

theorem announced_register (hphase : exchange.phase = .running) {peer : Option SocketAddress} :
    exchange.announced (.register id peer) = [.handled exchange.hub (.register id peer)] := by
  rw [announced]
  exact hphase

theorem announced_shutdown (hphase : exchange.phase = .running) :
    exchange.announced .shutdown = [.handled exchange.hub .shutdown] := by
  rw [announced]
  exact hphase

theorem announced_of_ne (hphase : exchange.phase ≠ .running) : exchange.announced order = [] := by
  unfold announced
  split
  next hrunning => exact absurd hrunning hphase
  next hrunning => exact absurd hrunning hphase
  next => rfl

namespace Carries

theorem of_same (hoffers : ∀ outbox, happenings.flatMap (Happening.offers id outbox) = [])
    (htaken : takenLines id happenings = [])
    (hregistrations : id ∈ exchange.registrations → id ∈ exchange'.registrations)
    (houtbox : exchange'.outboxes[id]? = exchange.outboxes[id]?) :
    Carries id exchange happenings exchange' := by
  intro hid outbox hfound
  rw [hoffers, htaken]
  exact ⟨hregistrations hid, outbox, houtbox.trans hfound, .refl outbox⟩

theorem hangUp (hregistrations : id ∈ exchange.registrations → id ∈ exchange'.registrations)
    (houtbox : exchange'.outboxes[id]? = exchange.outboxes[id]? ∨
      exchange'.outboxes[id]? = exchange.outboxes[id]?.map Outbox.hangUp) :
    Carries id exchange [] exchange' := by
  intro hid outbox hfound
  rw [hfound] at houtbox
  rcases houtbox with heq | heq
  · exact ⟨hregistrations hid, outbox, heq, .refl outbox⟩
  · exact ⟨hregistrations hid, outbox.hangUp, heq, .of_lines (List.append_nil _).symm rfl⟩

theorem halt (phase : Phase) : Carries id exchange [] (exchange.halt phase) := by
  apply Carries.hangUp
  · exact fun hid => ExtTreeMap.mem_map.2 hid
  · exact Or.inr ExtTreeMap.getElem?_map

theorem refuse (other : ClientId) : Carries id exchange [] (exchange.refuse other) := by
  apply Carries.hangUp
  · exact fun hid => ExtTreeMap.mem_insert.2 (Or.inr hid)
  · show (exchange.updateOutbox other Outbox.hangUp).outboxes[id]? = _ ∨
      (exchange.updateOutbox other Outbox.hangUp).outboxes[id]? = _
    rw [getElem?_updateOutbox]
    split
    next => exact Or.inr rfl
    next => exact Or.inl rfl

theorem handle (event : Event) :
    Carries id exchange [.handled exchange.hub event] (exchange.handle [event]) := by
  intro hid outbox hfound
  rw [List.flatMap_singleton, Happening.offers, takenLines_handled]
  rcases handle_eq exchange event with ⟨hub, effects, outboxes, hhandle, heq⟩ | ⟨defect, herror, heq⟩
  · have houtbox := getElem?_outboxes_handle hhandle id
    rw [hfound, Option.map_some] at houtbox
    rw [hhandle]
    refine ⟨?_, _, houtbox, outbox.keeps_effects id effects⟩
    rw [heq]
    exact hid
  · rw [herror, heq]
    exact halt _ hid outbox hfound

theorem with_registrations (h : Carries id exchange happenings exchange')
    {registrations : ExtTreeMap ClientId Registration}
    (hregistrations : id ∈ exchange'.registrations → id ∈ registrations) :
    Carries id exchange happenings { exchange' with registrations } := by
  intro hid outbox hfound
  obtain ⟨hknown, hkept⟩ := h hid outbox hfound
  exact ⟨hregistrations hknown, hkept⟩

theorem take {other : ClientId} (houtbox : exchange.outboxes[other]? = some outbox)
    (htake : outbox.take = (outbox', .line line)) :
    Carries id exchange [.taken other line] (exchange.updateOutbox other fun _ => outbox') := by
  intro hid found hfound
  refine ⟨hid, ?_⟩
  rw [getElem?_updateOutbox, hfound, List.flatMap_singleton, Happening.offers]
  by_cases hother : other = id
  · subst hother
    obtain rfl := Option.some.inj (hfound.symm.trans houtbox)
    have htaken : takenLines other [.taken other line] = [line] := by
      simp [takenLines, Happening.taken?]
    rw [if_pos rfl, htaken]
    exact ⟨outbox', rfl, .of_take htake⟩
  · have htaken : takenLines id [.taken other line] = [] := by
      simp [takenLines, Happening.taken?, hother]
    rw [if_neg hother, htaken]
    exact ⟨found, rfl, .refl found⟩

theorem stopReading (other : ClientId) :
    Carries id exchange [] (exchange.updateOutbox other Outbox.stopReading) := by
  intro hid found hfound
  refine ⟨hid, ?_⟩
  rw [getElem?_updateOutbox, hfound]
  split
  next => exact ⟨found.stopReading, rfl, .stopReading found⟩
  next => exact ⟨found, rfl, .refl found⟩

theorem takeOrder (hstays : ∀ id, order ≠ .exited id) :
    Carries id exchange (exchange.announced order) (exchange.takeOrder order) := by
  by_cases hphase : exchange.phase = .running
  · cases order with
    | register newcomer peer =>
      rw [announced_register hphase, takeOrder_register hphase]
      dsimp only
      split
      next => exact (handle _).with_registrations fun hid => ExtTreeMap.mem_insert.2 (Or.inr hid)
      next => exact handle _
    | exited leaver => exact absurd rfl (hstays leaver)
    | shutdown =>
      rw [announced_shutdown hphase, takeOrder_shutdown hphase]
      exact handle .shutdown
  · rw [announced_of_ne hphase]
    cases order with
    | register newcomer peer =>
      rw [takeOrder_register_of_ne hphase]
      exact refuse newcomer
    | exited leaver => exact absurd rfl (hstays leaver)
    | shutdown =>
      rw [takeOrder_shutdown_of_ne hphase]
      exact .of_same (fun _ => rfl) rfl (fun hid => hid) rfl

end Carries

end Exchange

namespace Floor

variable {floor floor' after : Floor} {choice : Choice} {choices : List Choice}
  {happenings trace : List Happening}

theorem Step.carries (hstep : Step floor happenings after) (id : ClientId) :
    floor.exchange.Carries id happenings after.exchange := by
  have hsame {exchange : Exchange} (hregistrations : exchange.registrations = floor.exchange.registrations)
      (houtboxes : exchange.outboxes = floor.exchange.outboxes) :
      floor.exchange.Carries id [] exchange :=
    .of_same (fun _ => rfl) rfl (fun hid => hregistrations ▸ hid) (by rw [houtboxes])
  cases hstep with
  | @connect other capacity outbox hnew =>
    intro hid found hfound
    have hne : other ≠ id := by
      rintro rfl
      exact Maps.not_mem_of_getElem? hnew hid
    exact ⟨ExtTreeMap.mem_insert.2 (Or.inr hid), found,
      (Maps.getElem?_insert_of_ne hne).trans hfound, .refl found⟩
  | post _ hpost =>
    obtain rfl := Exchange.eq_of_post hpost
    exact hsame rfl rfl
  | giveUp => exact .refuse _
  | write => exact .of_same (fun _ => rfl) rfl (fun hid => hid) rfl
  | letGo | vanish | ring | pass | dropHandles | leave | answer | gather | conclude =>
    exact hsame rfl rfl
  | take houtbox htake => exact .take houtbox htake
  | stopReading other => exact .stopReading other
  | @order order orders _ _ _ hstays =>
    exact @Exchange.Carries.takeOrder id { floor.exchange with orders } order hstays
  | handle => exact .handle _
  | close => exact Exchange.Carries.handle .shutdown
  | stop => exact .halt _

theorem Stir.carries (hstir : Stir floor happenings after) (id : ClientId) :
    floor.exchange.Carries id happenings after.exchange := by
  cases hstir with
  | step hstep => exact hstep.carries id
  | write => exact .of_same (fun _ => rfl) rfl (fun hid => hid) rfl
  | report hpost =>
    obtain rfl := Exchange.eq_of_post hpost
    exact .of_same (fun _ => rfl) rfl (fun hid => hid) rfl

theorem line_offered {outbox : Outbox} (houtbox : floor.exchange.outboxes[id]? = some outbox)
    (happenings : List Happening) :
    (floor.offered id happenings).map Offer.line = (postsTo id happenings).map Post.line := by
  rw [offered, houtbox, postsTo, List.map_flatMap, List.map_flatMap]
  simp only [Happening.line_offers]

/-- In the course of a schedule, a client is offered whatever it is sent, and its outbox keeps what it
takes in of that. -/
theorem keeps_offers (hplay : floor.play choices = some (trace, after))
    (hknown : id ∈ floor.exchange.registrations)
    (houtbox : floor.exchange.outboxes[id]? = some outbox) :
    (floor.offersTo id choices).map Offer.line = (postsTo id trace).map Post.line ∧
      ∃ outbox', after.exchange.outboxes[id]? = some outbox' ∧
        outbox.Keeps (floor.offersTo id choices) (takenLines id trace) outbox' := by
  induction choices generalizing floor trace outbox with
  | nil =>
    cases hplay
    exact ⟨rfl, outbox, houtbox, .refl outbox⟩
  | cons choice choices ih =>
    obtain ⟨happenings, between, rest, hchoose, hrest, rfl⟩ := play_cons_eq_some.1 hplay
    obtain ⟨hknown', outbox', houtbox', hkeeps⟩ :=
      (stir_of_choose hchoose).carries id hknown outbox houtbox
    obtain ⟨hlines, outbox'', houtbox'', hkeeps'⟩ := ih hrest hknown' houtbox'
    have hoffers : floor.offersTo id (choice :: choices) =
        floor.offered id happenings ++ between.offersTo id choices := by
      rw [offersTo, hchoose]
    refine ⟨?_, outbox'', houtbox'', ?_⟩
    · rw [hoffers, List.map_append, line_offered houtbox, hlines, postsTo_append, List.map_append]
    · rw [hoffers, takenLines_append, offered, houtbox]
      exact hkeeps.trans hkeeps'

theorem offered_of_quiet (h : ∀ outbox, happenings.flatMap (Happening.offers id outbox) = []) :
    floor.offered id happenings = [] := by
  unfold offered
  split
  next outbox _ => exact h outbox
  next => rfl

namespace SameBut

theorem offered {apart : ClientId → Prop} (h : SameBut apart floor floor') (hid : ¬apart id)
    (happenings : List Happening) :
    floor'.offered id happenings = floor.offered id happenings := by
  obtain ⟨exchange, rfl, outboxes, rfl, hothers⟩ := h
  rw [Floor.offered, Floor.offered, ← hothers id hid]

/-- What is offered to one client does not depend on how another one reads. -/
theorem offersTo {x : ClientId} (h : SameBut (· = x) floor floor') (hid : id ≠ x)
    (hplay : floor.play choices = some (trace, after)) :
    floor'.offersTo id (choices.filter (·.reader? ≠ some x)) = floor.offersTo id choices := by
  induction choices generalizing floor floor' trace with
  | nil => rfl
  | cons choice choices ih =>
    obtain ⟨happenings, between, rest, hchoose, hrest, rfl⟩ := play_cons_eq_some.1 hplay
    rw [Floor.offersTo, hchoose]
    dsimp only
    by_cases hreader : choice.reader? = some x
    · obtain ⟨hbetween, hseen⟩ : SameBut (· = x) floor between ∧ _ :=
        of_choose hreader rfl hchoose
      have hquiet : floor.offered id happenings = [] := by
        apply offered_of_quiet
        intro outbox
        rcases hseen with rfl | ⟨line, rfl⟩ <;> rfl
      rw [List.filter_cons_of_neg (by simpa using hreader), hquiet, List.nil_append]
      exact ih (hbetween.symm.trans h) hrest
    · have hother : ∀ reader, choice.reader? = some reader → ¬reader = x := by
        rintro reader hread rfl
        exact hreader hread
      obtain ⟨between', hchoose', hbetween⟩ := h.choose hother hchoose
      rw [List.filter_cons_of_pos (by simpa using hreader), Floor.offersTo, hchoose']
      dsimp only
      rw [ih hbetween hrest, h.offered hid]

/-- Two floors that are the same but for the outbox of one client remain so, whatever is done in both,
and however this client reads in either. Nothing else is held up by it, and the others are offered the
same lines, which find the same in their outboxes. The outbox itself takes in, in order, what the client
is sent, except for what finds it full, not read or hung up. -/
theorem reads_apart {x : ClientId} (h : SameBut (· = x) floor floor')
    (hchoices : choices.filter (·.reader? ≠ some x) = choices'.filter (·.reader? ≠ some x))
    (hplay : floor.play choices = some (trace, after)) :
    (∃ outcome, floor'.play (choices.filter (·.reader? ≠ some x)) = some outcome) ∧
    (∀ trace' after', floor'.play choices' = some (trace', after') →
      SameBut (· = x) after after' ∧
      trace.filter (·.reader? ≠ some x) = trace'.filter (·.reader? ≠ some x) ∧
      ∀ id, id ≠ x → floor.offersTo id choices = floor'.offersTo id choices') ∧
    (x ∈ floor.exchange.registrations →
      ∀ outbox, floor.exchange.outboxes[x]? = some outbox →
        (floor.offersTo x choices).map Offer.line = (postsTo x trace).map Post.line ∧
        (acceptedLines (floor.offersTo x choices)).Sublist ((postsTo x trace).map Post.line) ∧
        (∀ offer ∈ floor.offersTo x choices, offer.isTaken = false ↔
          offer.outbox.capacity ≤ offer.outbox.lines.length ∨ offer.outbox.isRead = false ∨
            offer.outbox.isHeld = false) ∧
        ∃ outbox', after.exchange.outboxes[x]? = some outbox' ∧
          outbox.Keeps (floor.offersTo x choices) (takenLines x trace) outbox') := by
  -- Both schedules are compared with the one in which the client reads nothing.
  obtain ⟨between, hbetween, hafter⟩ := h.play hplay
  refine ⟨⟨_, hbetween⟩, fun trace' after' hplay' => ?_, fun hknown outbox houtbox => ?_⟩
  · obtain ⟨between', hbetween', hafter'⟩ := (SameBut.refl floor').play hplay'
    rw [← hchoices, hbetween, Option.some.injEq, Prod.mk.injEq] at hbetween'
    obtain ⟨htraces, rfl⟩ := hbetween'
    refine ⟨hafter.trans hafter'.symm, htraces, fun id hid => ?_⟩
    rw [← h.offersTo hid hplay, ← (SameBut.refl floor').offersTo hid hplay', hchoices]
  · obtain ⟨hlines, houtbox'⟩ := keeps_offers hplay hknown houtbox
    exact ⟨hlines, hlines ▸ acceptedLines_sublist, fun offer _ => Offer.isTaken_eq_false, houtbox'⟩

end SameBut

set_option maxRecDepth 20000 in
/-- The first client whispers to the second one, whose outbox is full in one of two exchanges. -/
theorem reads_apart_stalled : ∃ (floor floor' after after' : Floor) (trace trace' : List Happening),
    let choices : List Choice :=
      [.write 1 "WHISPER::guest2:hello", .answer [], .gather, .conclude, .handle]
    SameBut (· = 2) floor floor' ∧
      floor.play choices = some (trace, after) ∧ floor'.play choices = some (trace', after') ∧
      acceptedLines (floor.offersTo 2 choices) = ["[whisper from guest1] hello"] ∧
      acceptedLines (floor'.offersTo 2 choices) = [] ∧
      acceptedLines (floor'.offersTo 1 choices) = ["[whisper to guest2] hello"] ∧
      SameBut (· = 2) after after' := by
  let stalled : Outbox := { capacity := 1, lines := ["* welcome"] }
  let stall (floor : Floor) : Floor :=
    { floor with exchange := floor.exchange.updateOutbox 2 fun _ => stalled }
  let choices : List Choice :=
    [.write 1 "WHISPER::guest2:hello", .answer [], .gather, .conclude, .handle]
  obtain ⟨start, floor, after, after', before, trace, trace', -, -, hplay, hplay', haccepted, hfull,
      hother⟩ :
      ∃ (start : Exchange) (floor after after' : Floor) (before trace trace' : List Happening),
        Exchange.new {} = .ok start ∧
        play { exchange := start } [.connect 1 8, .connect 2 8, .post (.register 1 none), .order,
          .post (.register 2 none), .order] = some (before, floor) ∧
        floor.play choices = some (trace, after) ∧
        (stall floor).play choices = some (trace', after') ∧
        acceptedLines (floor.offersTo 2 choices) = ["[whisper from guest1] hello"] ∧
        acceptedLines ((stall floor).offersTo 2 choices) = [] ∧
        acceptedLines (floor.offersTo 1 choices) = ["[whisper to guest2] hello"] :=
    ⟨_, _, _, _, _, _, _, rfl, rfl, rfl, rfl, by decide, by decide, by decide⟩
  have hsame : SameBut (· = 2) floor (stall floor) := ⟨_, rfl, .of_updateOutbox rfl⟩
  obtain ⟨-, happart, -⟩ := hsame.reads_apart rfl hplay
  obtain ⟨hafter, -, hoffers⟩ := happart trace' after' hplay'
  exact ⟨floor, stall floor, after, after', trace, trace', hsame, hplay, hplay', haccepted, hfull,
    hoffers 1 (by decide) ▸ hother, hafter⟩
end Floor

end ChatRooms
