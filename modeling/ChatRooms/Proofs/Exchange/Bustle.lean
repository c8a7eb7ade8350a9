import ChatRooms.Proofs.Exchange.Orders
import Mathlib.Data.List.Infix

namespace ChatRooms

open Std

/-- The lines of one client that the intake has not given to the hub. -/
def Holding.texts (holding : Holding) : List String :=
  textsOf holding.reports ++ holding.offered?.elim [] Feed.lines

namespace Feed

variable {feed : Feed}

theorem textsOf_reports : textsOf feed.reports = feed.lines := by
  have hlines (lines : List String) : textsOf (lines.map .line) = lines := by
    induction lines with
    | nil => rfl
    | cons line lines ih => rw [List.map_cons, textsOf_line, ih]
  rw [reports, textsOf_append, hlines]
  split <;> simp

end Feed

namespace Intake

variable {intake intake' : Intake} {id : ClientId} {line : String} {round : Round}

theorem texts_write (h : intake.write id line = .accepted intake') :
    (intake'.holding id).texts = (intake.holding id).texts ++ [line] ∧
      (intake'.holding id).offered? = (intake.holding id).offered?.map (·.push line) := by
  cases intake with
  | addressed queue =>
    obtain rfl := eq_of_enqueue h
    simp [holding, Holding.texts]
  | sweep sweeper offered =>
    unfold write at h
    dsimp only at h
    split at h
    next feed hfeed =>
      obtain rfl := Posting.accepted.inj h
      simp [holding, Holding.texts, hfeed, Feed.push]
    next hnone =>
      split at h
      next hattached =>
        obtain rfl := Posting.accepted.inj h
        obtain ⟨feed, hfeed⟩ := Maps.mem_iff_exists.1 hattached
        simp [holding, Holding.texts, hnone, Sweeper.getElem?_update, hfeed, Feed.textsOf_reports,
          Feed.push]
      next => cases h

theorem texts_letGo (h : intake.letGo id = .accepted intake') :
    (intake'.holding id).texts = (intake.holding id).texts ∧
      (intake'.holding id).offered? = (intake.holding id).offered?.map Feed.finish := by
  cases intake with
  | addressed queue =>
    obtain rfl := eq_of_enqueue h
    simp [holding, Holding.texts]
  | sweep sweeper offered =>
    unfold letGo at h
    dsimp only at h
    split at h
    next feed hfeed =>
      obtain rfl := Posting.accepted.inj h
      simp [holding, Holding.texts, hfeed, Feed.finish]
    next hnone =>
      obtain rfl := Posting.accepted.inj h
      cases hfeed : sweeper.feeds[id]? with
      | none => simp [holding, Holding.texts, Sweeper.getElem?_update, hfeed, hnone]
      | some feed =>
        simp [holding, Holding.texts, Sweeper.getElem?_update, hfeed, hnone, Feed.textsOf_reports,
          Feed.finish]

/-- A feed that is visited from now on is visited with all that is in it. -/
theorem texts_attach
    (hexclusive : (intake.holding id).offered? = none ∨ (intake.holding id).reports = []) :
    ((intake.attach id).holding id).offered? = none ∧
      ((intake.attach id).holding id).texts = (intake.holding id).texts := by
  rw [holding_attach]
  cases hoffered : (intake.holding id).offered? with
  | none => exact ⟨hoffered, rfl⟩
  | some feed =>
    rcases hexclusive with hnone | hnil
    · cases hoffered.symm.trans hnone
    · simp [Holding.texts, hoffered, hnil, Feed.textsOf_reports]

theorem texts_gather {round' : Round} (h : intake.gather round = some (intake', round')) :
    textsOf (reportsIn id round'.batch) ++ (intake'.holding id).texts =
      textsOf (reportsIn id round.batch) ++ (intake.holding id).texts := by
  have hoffered : (intake'.holding id).offered? = (intake.holding id).offered? := (keeps_gather h).1
  have hkeeps : Keeps (reportsIn id round.batch ++ (intake.holding id).reports)
      (reportsIn id round'.batch ++ (intake'.holding id).reports) := (keeps_gather h).2
  have htexts := hkeeps.texts
  rw [textsOf_append, textsOf_append] at htexts
  rw [Holding.texts, Holding.texts, hoffered, ← List.append_assoc, htexts, List.append_assoc]

theorem reports_eq_nil_of_not_visits (h : ¬intake.Visits id) :
    (intake.holding id).offered? = none ∨ (intake.holding id).reports = [] := by
  cases intake with
  | addressed queue => exact Or.inl rfl
  | sweep sweeper offered =>
    right
    show sweeper.feeds[id]?.elim [] Feed.reports = []
    rw [ExtTreeMap.getElem?_eq_none h]
    rfl

end Intake

@[simp] theorem forwardedLines_handled {id : ClientId} {hub : Hub} {event : Event} :
    forwardedLines id [.handled hub event] = [] := rfl

namespace Floor

variable {settings : Settings} {id : ClientId} {trace more happenings : List Happening}
  {start floor floor' : Floor}

/-- The lines of a client that have been taken in and not been handled. -/
def underway (floor : Floor) (id : ClientId) : List String :=
  textsOf (floor.activity.reportsOf id) ++ (floor.exchange.intake.holding id).texts

/-- As long as a client's feed is on offer, nobody has accepted the client. -/
def Unheard (floor : Floor) (id : ClientId) : Prop :=
  (floor.exchange.intake.holding id).offered? ≠ none →
    floor.exchange.registrations[id]? ≠ some .accepted

/-- What becomes of a client's lines in a step. A new one comes behind all others, the first one may be
handled, and some at the end may be lost. -/
structure Flows (id : ClientId) (floor : Floor) (happenings : List Happening) (floor' : Floor) : Prop where
  unheard : floor'.Unheard id
  lines : ∃ rest, floor.underway id ++ forwardedLines id happenings =
    handledLines id happenings ++ rest ∧ floor'.underway id <+: rest

/-- What was gathered is handled, and after it the exit, which says nothing. -/
theorem textsOf_reportsOf_handling (id : ClientId) (batch : List Envelope)
    (leaver : Option ClientId) :
    textsOf ((Activity.handling (batch.map Envelope.event ++
      leaver.toList.map Event.exited)).reportsOf id) = textsOf (reportsIn id batch) := by
  have hleaver : textsOf ((leaver.toList.map Event.exited).filterMap (Event.reportOf? id)) = [] := by
    cases leaver with
    | none => rfl
    | some other => by_cases heq : other = id <;> simp [Event.reportOf?, heq]
  rw [Activity.reportsOf, List.filterMap_append, textsOf_append, filterMap_event, hleaver,
    List.append_nil]

theorem offered_or_visits (hsound : floor.exchange.Sound settings)
    (hattended : floor.exchange.Attended) (hunheard : floor.Unheard id) :
    (floor.exchange.intake.holding id).offered? = none ∨ ¬floor.exchange.intake.Visits id := by
  by_cases hvisits : floor.exchange.intake.Visits id
  · left
    by_contra hoffered
    exact hunheard hoffered (hsound.accepted (hattended id hvisits))
  · exact Or.inr hvisits

namespace Flows

theorem of_eq (hunheard : floor'.Unheard id) (hforwarded : forwardedLines id happenings = [])
    (hhandled : handledLines id happenings = []) (h : floor'.underway id = floor.underway id) :
    Flows id floor happenings floor' := by
  refine ⟨hunheard, floor.underway id, ?_, ?_⟩
  · rw [hforwarded, hhandled, List.append_nil, List.nil_append]
  · rw [h]

/-- What passes a client by, except that a report of its may be handled. -/
theorem of_spares (goes : Prop) (hunheard : floor.Unheard id)
    (hexclusive : (floor.exchange.intake.holding id).offered? = none ∨
      (floor.exchange.intake.holding id).reports = [])
    (hspares : floor.exchange.Spares id goes floor'.exchange)
    (hactivity : textsOf (floor.activity.reportsOf id) =
      handledLines id happenings ++ textsOf (floor'.activity.reportsOf id))
    (hforwarded : forwardedLines id happenings = []) : Flows id floor happenings floor' := by
  obtain ⟨reports, offered?, hreports, hoffered, hholding⟩ := hspares.holding
  constructor
  · intro hsome haccepted
    apply hunheard
    · rcases hoffered with rfl | rfl
      · rw [hholding] at hsome
        exact hsome
      · rw [hholding] at hsome
        exact absurd rfl hsome
    · exact hspares.accepted.1 haccepted
  · refine ⟨textsOf (floor'.activity.reportsOf id) ++ (floor.exchange.intake.holding id).texts, ?_, ?_⟩
    · rw [hforwarded, List.append_nil, underway, hactivity, List.append_assoc]
    · rw [underway, List.prefix_append_right_inj, hholding, Holding.texts, Holding.texts]
      dsimp only
      rcases hreports with rfl | ⟨-, rfl⟩
      · rcases hoffered with rfl | rfl
        · exact List.prefix_refl _
        · rw [Option.elim_none, List.append_nil]
          exact List.prefix_append _ _
      · rcases hoffered with rfl | rfl
        · rcases hexclusive with hnone | hnil
          · rw [hnone]
            exact List.nil_prefix
          · rw [hnil]
        · exact List.nil_prefix

theorem write {line : String} {intake : Intake} (hunheard : floor.Unheard id)
    (hwrite : floor.exchange.intake.write id line = .accepted intake) {ringers : List ClientId} :
    Flows id floor [.forwarded id line] { floor with
      exchange := { floor.exchange with intake }, ringers } := by
  obtain ⟨htexts, hoffered⟩ := Intake.texts_write hwrite
  constructor
  · intro hsome
    apply hunheard
    rintro hnone
    apply hsome
    show (intake.holding id).offered? = none
    rw [hoffered, hnone]
    rfl
  · refine ⟨floor.underway id ++ [line], ?_, ?_⟩
    · simp [forwardedLines, Happening.forwarded?]
    · show textsOf _ ++ (intake.holding id).texts <+: _
      rw [htexts, underway, List.append_assoc]

theorem attach {exchange : Exchange}
    (hexclusive : (floor.exchange.intake.holding id).offered? = none ∨
      (floor.exchange.intake.holding id).reports = [])
    (hintake : exchange.intake = floor.exchange.intake.attach id)
    (hforwarded : forwardedLines id happenings = []) (hhandled : handledLines id happenings = []) :
    Flows id floor happenings { floor with exchange } := by
  obtain ⟨hoffered, htexts⟩ := Intake.texts_attach hexclusive
  rw [← hintake] at hoffered htexts
  refine .of_eq (fun hsome => absurd hoffered hsome) hforwarded hhandled ?_
  show textsOf (floor.activity.reportsOf id) ++ (exchange.intake.holding id).texts = _
  rw [htexts]
  rfl

theorem connect (outbox : Outbox) {holders : ExtTreeSet ClientId} :
    Flows id floor [] { floor with exchange := floor.exchange.connect id outbox, holders } := by
  obtain ⟨offered?, hempty, hholding⟩ := @Intake.holding_offer floor.exchange.intake id
  have hpending : (floor.exchange.connect id outbox).registrations[id]? = some .pending :=
    ExtTreeMap.getElem?_insert_self
  have htexts : ((floor.exchange.intake.offer id).holding id).texts =
      textsOf (floor.exchange.intake.holding id).reports := by
    rw [hholding, Holding.texts]
    cases offered? with
    | none => exact List.append_nil _
    | some feed =>
      rw [hempty feed rfl]
      exact List.append_nil _
  constructor
  · intro _ haccepted
    cases hpending.symm.trans haccepted
  · refine ⟨floor.underway id, List.append_nil _, ?_⟩
    show textsOf _ ++ ((floor.exchange.intake.offer id).holding id).texts <+: _
    rw [htexts, underway, List.prefix_append_right_inj]
    exact List.prefix_append _ _

theorem order {order : Order} {orders : List Order} {exchange : Exchange} (hunheard : floor.Unheard id)
    (hexclusive : (floor.exchange.intake.holding id).offered? = none ∨
      (floor.exchange.intake.holding id).reports = [])
    (hsound : floor.exchange.Sound settings) (horders : floor.exchange.orders = order :: orders)
    (hobeys : Exchange.Obeys { floor.exchange with orders } order happenings exchange) :
    Flows id floor happenings { floor with exchange } := by
  obtain ⟨hforwarded, hhandled⟩ := hobeys.lines_eq_nil id
  let rest : Exchange := { floor.exchange with orders }
  have hmem : .exited id ∈ orders → .exited id ∈ floor.exchange.orders := by
    rw [horders]
    exact List.mem_cons_of_mem _
  have hdropped : floor.exchange.Spares id False rest := .of_same rfl rfl hmem rfl
  have hbystanding {exchange : Exchange} (hspares : rest.Spares id False exchange) :
      Flows id floor happenings { floor with exchange } :=
    .of_spares _ hunheard hexclusive (hdropped.trans hspares) (by rw [hhandled, List.nil_append]) hforwarded
  have hintact : rest.hub.directory.Intact := hsound.reachable.intact
  have hpending {other : ClientId} {peer : Option SocketAddress}
      (hregister : order = .register other peer) : rest.registrations[other]? = some .pending :=
    hsound.pending (by rw [horders, hregister]; exact List.mem_cons_self)
  cases hobeys with
  | @registered other peer hub effects outboxes hhandle _ =>
    have hintake := (Hub.steps_of_handle hhandle).foldl_absorb rest.intake
    by_cases hid : other = id
    · subst hid
      exact .attach hexclusive hintake hforwarded hhandled
    · exact hbystanding (.welcome outboxes hintact hhandle hid)
  | failed => exact hbystanding (.halt rest _)
  | refused => exact hbystanding (.refuse (hpending rfl))
  | closing => exact hbystanding (.beginClosing hintact)
  | ignored => exact hbystanding (.of_same rfl rfl (fun h => h) rfl)

theorem gather {round round' : Round} {leaver : Option ClientId} {intake : Intake}
    (hunheard : floor.Unheard id) (hactivity : floor.activity = .gathering round leaver)
    (hgather : floor.exchange.intake.gather round = some (intake, round')) :
    Flows id floor [] { floor with
      exchange := { floor.exchange with intake }, activity := .gathering round' leaver } := by
  have hoffered : (intake.holding id).offered? = (floor.exchange.intake.holding id).offered? :=
    (Intake.keeps_gather hgather).1
  refine .of_eq (fun hsome => hunheard (hoffered ▸ hsome)) rfl rfl ?_
  show textsOf (reportsIn id round'.batch) ++ (intake.holding id).texts = _
  rw [underway, hactivity]
  exact Intake.texts_gather hgather

/-- With the feeds that have ended goes what was written to them since. -/
theorem conclude {round : Round} {leaver : Option ClientId} (hunheard : floor.Unheard id)
    (hexclusive : (floor.exchange.intake.holding id).offered? = none ∨
      (floor.exchange.intake.holding id).reports = [])
    (hactivity : floor.activity = .gathering round leaver) :
    Flows id floor [] { floor with
      exchange := { floor.exchange with intake := floor.exchange.intake.conclude round }
      activity := .handling (round.batch.map Envelope.event ++ leaver.toList.map Event.exited) } := by
  obtain ⟨reports, hreports, hholding⟩ := @Intake.holding_conclude floor.exchange.intake round id
  refine .of_spares (.closed ∈ reportsIn id round.batch) hunheard hexclusive ?_ ?_ rfl
  · exact ⟨fun h => h, Iff.rfl, Or.inl, fun h => h, reports, _, hreports, Or.inl rfl, hholding⟩
  · rw [hactivity, textsOf_reportsOf_handling]
    rfl

end Flows

/-- What one step preserves, and what it does to the lines of one client. -/
theorem Step.flows (hstep : Step floor happenings floor') (hsound : Sound settings trace floor)
    (hattended : floor.exchange.Attended) (hunheard : floor.Unheard id) :
    Flows id floor happenings floor' := by
  -- A feed still offered is not visited yet, so it has no reports to drain.
  have hexclusive := (offered_or_visits hsound.exchange hattended hunheard).elim Or.inl
    Intake.reports_eq_nil_of_not_visits
  have hintact := hsound.exchange.reachable.intact
  have spares {exchange : Exchange} (hspares : floor.exchange.Spares id False exchange)
      {holders : ExtTreeSet ClientId} {ringers : List ClientId}
      (hforwarded : forwardedLines id happenings = []) (hhandled : handledLines id happenings = []) :
      Flows id floor happenings ⟨exchange, floor.activity, holders, ringers⟩ :=
    .of_spares _ hunheard hexclusive hspares (by rw [hhandled, List.nil_append]) hforwarded
  have same {intake : Intake} (hholding : intake.holding id = floor.exchange.intake.holding id)
      {activity : Activity}
      (hactivity : textsOf (activity.reportsOf id) = textsOf (floor.activity.reportsOf id))
      {holders : ExtTreeSet ClientId} {ringers : List ClientId}
      (hforwarded : forwardedLines id happenings = []) (hhandled : handledLines id happenings = []) :
      Flows id floor happenings ⟨{ floor.exchange with intake }, activity, holders, ringers⟩ := by
    refine .of_spares False hunheard hexclusive ?_ ?_ hforwarded
    · exact .of_same rfl rfl (fun h => h) hholding
    · rw [hhandled, hactivity, List.nil_append]
  cases hstep with
  | @connect other capacity outbox hnew houtbox =>
    by_cases hid : other = id
    · subst hid
      exact .connect outbox
    · exact spares (.connect hid outbox) rfl rfl
  | post hgives hpost =>
    obtain rfl := Exchange.eq_of_post hpost
    exact .of_eq hunheard rfl rfl rfl
  | giveUp hpending _ => exact spares (.refuse hpending) rfl rfl
  | @write other line intake _ _ _ hwrite =>
    by_cases hid : other = id
    · subst hid
      exact .write hunheard hwrite
    · refine same (Intake.holding_write_of_ne hwrite hid) rfl ?_ rfl
      simp [forwardedLines, Happening.forwarded?, hid]
  | @letGo other intake _ _ hletGo =>
    by_cases hid : other = id
    · subst hid
      obtain ⟨htexts, hoffered⟩ := Intake.texts_letGo hletGo
      refine .of_eq (fun hsome => hunheard fun hnone => hsome ?_) rfl rfl ?_
      · show (intake.holding other).offered? = none
        rw [hoffered, hnone]
        rfl
      · show textsOf _ ++ (intake.holding other).texts = _
        rw [htexts, underway]
    · exact same (Intake.holding_letGo_of_ne hletGo hid) rfl rfl rfl
  | vanish => exact .of_eq hunheard rfl rfl rfl
  | ring => exact same Intake.holding_ring rfl rfl rfl
  | take | stopReading | pass | dropHandles => exact .of_eq hunheard rfl rfl rfl
  | order _ _ horders hstays =>
    exact .order hunheard hexclusive hsound.exchange horders (Exchange.obeys_takeOrder hstays)
  -- A round begins with nothing gathered.
  | leave hfree _ _ hbegins =>
    refine .of_eq hunheard rfl rfl ?_
    show textsOf (reportsIn id _) ++ (floor.exchange.intake.holding id).texts = _
    rw [underway, hfree, Intake.reportsIn_of_begins hbegins id]
    rfl
  | answer hfree _ _ hbegins =>
    refine same Intake.holding_hush ?_ rfl rfl
    rw [hfree]
    exact congrArg textsOf (Intake.reportsIn_of_begins hbegins id)
  | gather hactivity hgather => exact .gather hunheard hactivity hgather
  | conclude hactivity _ => exact .conclude hunheard hexclusive hactivity
  | @handle event events hactivity _ =>
    refine .of_spares _ hunheard hexclusive (.handle hintact fun peer => ?_) ?_ rfl
    · have hevents := hsound.events event
      rw [hactivity] at hevents
      exact hevents List.mem_cons_self id peer
    · rw [hactivity, Kept.reportsOf_handling, textsOf_append, handledLines_handled]
  | close => exact spares (.beginClosing hintact) rfl rfl
  | stop => exact spares (.halt floor.exchange _) rfl rfl

theorem Stir.flows (hstir : Stir floor happenings floor') (hsound : Sound settings trace floor)
    (hattended : floor.exchange.Attended) (hunheard : floor.Unheard id) :
    Flows id floor happenings floor' := by
  have hexclusive := (offered_or_visits hsound.exchange hattended hunheard).elim Or.inl
    Intake.reports_eq_nil_of_not_visits
  cases hstir with
  | step hstep => exact hstep.flows hsound hattended hunheard
  | @write other line intake _ _ hwrite =>
    by_cases hid : other = id
    · subst hid
      exact .write hunheard hwrite
    · refine .of_spares False hunheard hexclusive ?_ ?_ ?_
      · exact .of_same rfl rfl (fun h => h) (Intake.holding_write_of_ne hwrite hid)
      · rfl
      · simp [forwardedLines, Happening.forwarded?, hid]
  | report hpost =>
    obtain rfl := Exchange.eq_of_post hpost
    exact .of_eq hunheard rfl rfl rfl

theorem Bustle.attended (h : Bustle settings trace floor) : floor.exchange.Attended := by
  obtain ⟨⟨moments, hmoments⟩, -⟩ := h.chronicle
  exact hmoments.attended

theorem Bustle.unheard (h : Bustle settings trace floor) (id : ClientId) : floor.Unheard id := by
  refine h.preserves (P := fun _ floor => floor.Unheard id) (fun exchange hnew => ?_)
    fun hbefore hunheard hstir => (hstir.flows hbefore.sound hbefore.attended hunheard).unheard
  obtain ⟨room, -, rfl⟩ := Exchange.exists_of_new hnew
  intro _ haccepted
  simp at haccepted

theorem Bustle.flows (h : Bustle settings trace floor) (hstir : Stir floor happenings floor')
    (id : ClientId) : Flows id floor happenings floor' :=
  hstir.flows h.sound h.attended (h.unheard id)

theorem Bustle.underway_eq_nil (h : Bustle settings trace floor)
    (hsilent : forwardedLines id trace = []) : floor.underway id = [] := by
  revert hsilent
  refine h.preserves (P := fun trace floor => forwardedLines id trace = [] → floor.underway id = [])
    (fun exchange hnew _ => ?_) fun hbefore hnothing hstir hsilent => ?_
  · obtain ⟨room, -, rfl⟩ := Exchange.exists_of_new hnew
    show [] ++ (Intake.holding _ id).texts = []
    rw [Intake.holding_atRest ExtTreeMap.not_mem_empty]
    rfl
  · rw [forwardedLines_append, List.append_eq_nil_iff] at hsilent
    obtain ⟨rest, hlines, hrest⟩ := (hbefore.flows hstir id).lines
    rw [hnothing hsilent.1, hsilent.2, List.nil_append, eq_comm, List.append_eq_nil_iff] at hlines
    rw [hlines.2] at hrest
    exact List.prefix_nil.1 hrest

end Floor

end ChatRooms
