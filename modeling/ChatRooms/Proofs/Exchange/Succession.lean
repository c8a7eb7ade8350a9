import ChatRooms.Proofs.Exchange.Upshot

namespace ChatRooms

open Std

/-- What stands at the place in a trace. -/
def HappensAt (happenings : List Happening) (place : Nat) (happening : Happening) : Prop :=
  happenings[place]? = some happening

namespace HappensAt

variable {trace : List Happening} {place : Nat} {happening : Happening}

theorem lt (h : HappensAt trace place happening) : place < trace.length :=
  (List.getElem?_eq_some_iff.1 h).1

theorem append (h : HappensAt trace place happening) (more : List Happening) :
    HappensAt (trace ++ more) place happening := by
  rw [HappensAt, List.getElem?_append_left h.lt]
  exact h

theorem last : HappensAt (trace ++ [happening]) trace.length happening :=
  List.getElem?_concat_length

end HappensAt

namespace Intake

/-- Lines of the client are taken in, if there is a place for them. -/
def Listens (intake : Intake) (id : ClientId) : Prop :=
  intake.mode = .addressed ∨ intake.Visits id ∨ (intake.holding id).offered? ≠ none

/-- Nothing of the client's lines is lost, unless from now on no more are taken in. -/
def Retains (id : ClientId) (after before : Intake) : Prop :=
  after.Listens id → before.Listens id ∧ (after.holding id).texts = (before.holding id).texts

variable {intake after before between : Intake} {id other : ClientId} {line : String} {event : Event}

theorem listens_of_write (h : intake.write id line = .accepted after) : intake.Listens id := by
  cases intake with
  | addressed queue => exact Or.inl rfl
  | sweep sweeper offered =>
    unfold write at h
    dsimp only at h
    right
    split at h
    next feed hfeed => exact Or.inr (by simp [holding, hfeed])
    next =>
      split at h
      next hattached => exact Or.inl hattached
      next => cases h

namespace Retains

theorem refl (intake : Intake) : Retains id intake intake :=
  fun hlistens => ⟨hlistens, rfl⟩

theorem of_holding (hvisits : after.Visits id → before.Visits id)
    (hholding : after.holding id = before.holding id) : Retains id after before := by
  rintro (hmode | hafter | hoffered)
  · rw [← mode_holding after id, hholding, mode_holding] at hmode
    exact ⟨Or.inl hmode, by rw [hholding]⟩
  · exact ⟨Or.inr (Or.inl (hvisits hafter)), by rw [hholding]⟩
  · rw [hholding] at hoffered
    exact ⟨Or.inr (Or.inr hoffered), by rw [hholding]⟩

/-- What is lost with a feed on offer is lost for good, since nobody visits it. -/
theorem withdraw (hexclusive : (intake.holding id).offered? = none ∨ ¬intake.Visits id) :
    Retains id (intake.withdraw id) intake := by
  cases intake with
  | addressed queue => exact .refl _
  | sweep sweeper offered =>
    rintro (hmode | hvisits | hoffered)
    · cases hmode
    · have hnone := hexclusive.resolve_right fun hnot => hnot hvisits
      refine ⟨Or.inr (Or.inl hvisits), ?_⟩
      rw [holding_withdraw, Holding.texts, Holding.texts, hnone]
    · rw [holding_withdraw] at hoffered
      exact absurd rfl hoffered

/-- What is lost with a visited feed is lost for good, since none is on offer. -/
theorem detach (hexclusive : (intake.holding id).offered? = none ∨ ¬intake.Visits id) :
    Retains id (intake.detach id) intake := by
  cases intake with
  | addressed queue => exact .refl _
  | sweep sweeper offered =>
    intro hlistens
    have hoffered : offered[id]? ≠ none := by
      rcases hlistens with hmode | hvisits | hoffered
      · cases hmode
      · exact absurd rfl (visits_detach hvisits).2
      · exact hoffered
    have hnot := hexclusive.resolve_left hoffered
    rw [detach_of_not_visits hnot]
    exact ⟨Or.inr (Or.inr hoffered), rfl⟩

theorem conclude (hexclusive : (intake.holding id).offered? = none ∨ ¬intake.Visits id)
    (round : Round) : Retains id (intake.conclude round) intake := by
  cases intake with
  | addressed queue => exact .refl _
  | sweep sweeper offered =>
    cases round with
    | queue taken => exact .refl _
    | feeds tour =>
      have hfeed : (sweeper.conclude tour).feeds[id]? =
          if id ∈ tour.haul.ended then none else sweeper.feeds[id]? :=
        sweeper.getElem?_foldl_detach id
      by_cases hended : id ∈ tour.haul.ended
      · rw [if_pos hended] at hfeed
        intro hlistens
        have hoffered : offered[id]? ≠ none := by
          rcases hlistens with hmode | hvisits | hoffered
          · cases hmode
          · exact absurd hvisits (Maps.not_mem_of_getElem? hfeed)
          · exact hoffered
        have hnone := ExtTreeMap.getElem?_eq_none (hexclusive.resolve_left hoffered)
        refine ⟨Or.inr (Or.inr hoffered), ?_⟩
        simp [Intake.conclude, Holding.texts, holding, hfeed, hnone]
      · rw [if_neg hended] at hfeed
        refine .of_holding (Narrows.conclude _ (.feeds tour) id) ?_
        simp [Intake.conclude, holding, hfeed]

theorem follow (hexclusive : (intake.holding id).offered? = none ∨ ¬intake.Visits id)
    (hevent : ∀ peer, event ≠ .register id peer) : Retains id (intake.follow event) intake := by
  have hdetach (other : ClientId) : Retains id (intake.detach other) intake := by
    by_cases hid : other = id
    · subst hid
      exact .detach hexclusive
    · exact .of_holding (Narrows.detach id) (holding_detach_of_ne hid)
  cases event with
  | register other peer =>
    have hne : other ≠ id := fun heq => hevent peer (heq ▸ rfl)
    refine .of_holding (fun hvisits => ?_) (holding_attach_of_ne hne)
    exact (visits_attach hvisits).resolve_right (Ne.symm hne)
  | closed other | exited other => exact hdetach other
  | line | shutdown => exact .refl _

end Retains

theorem listens_attach (h : (intake.attach id).Listens id) : intake.Listens id := by
  cases intake with
  | addressed queue => exact Or.inl rfl
  | sweep sweeper offered =>
    rw [attach] at h
    cases hfeed : offered[id]? with
    | none =>
      rw [hfeed] at h
      exact h
    | some feed => exact Or.inr (Or.inr (by simp [holding, hfeed]))

theorem listens_gather {round round' : Round} (hgather : intake.gather round = some (after, round'))
    (h : after.Listens id) : intake.Listens id := by
  have hoffered : (after.holding id).offered? = (intake.holding id).offered? :=
    (keeps_gather hgather).1
  cases intake with
  | addressed queue => exact Or.inl rfl
  | sweep sweeper offered =>
    right
    rcases h with hmode | hvisits | hafter
    · cases round with
      | queue taken => cases hgather
      | feeds tour =>
        obtain ⟨found, -, heq⟩ := Option.map_eq_some_iff.1 hgather
        obtain ⟨rfl, -⟩ := Prod.mk.inj heq
        cases hmode
    · exact Or.inl (Narrows.gather hgather id hvisits)
    · exact Or.inr (hoffered ▸ hafter)

theorem listens_letGo (hletGo : intake.letGo id = .accepted after) (h : after.Listens id) :
    intake.Listens id := by
  have hoffered := (texts_letGo hletGo).2
  cases intake with
  | addressed queue => exact Or.inl rfl
  | sweep sweeper offered =>
    right
    rcases h with hmode | hvisits | hafter
    · unfold letGo at hletGo
      dsimp only at hletGo
      split at hletGo <;>
      · obtain rfl := Posting.accepted.inj hletGo
        cases hmode
    · exact Or.inl (Narrows.letGo hletGo id hvisits)
    · rw [hoffered, ne_eq, Option.map_eq_none_iff] at hafter
      exact Or.inr hafter

end Intake

namespace Exchange

variable {exchange exchange' : Exchange} {id : ClientId} {event : Event}

theorem retains_handle (hexclusive : (exchange.intake.holding id).offered? = none ∨
      ¬exchange.intake.Visits id) (hevent : ∀ peer, event ≠ .register id peer) :
    Intake.Retains id (exchange.handle [event]).intake exchange.intake := by
  rcases handle_eq exchange event with ⟨hub, effects, outboxes, hhandle, heq⟩ | ⟨defect, -, heq⟩
  · rw [heq]
    show Intake.Retains id (effects.foldl Intake.absorb exchange.intake) exchange.intake
    rw [(Hub.steps_of_handle hhandle).foldl_absorb]
    exact .follow hexclusive hevent
  · rw [heq]
    exact .refl _

end Exchange

namespace Floor

variable {settings : Settings} {id : ClientId} {trace happenings : List Happening}
  {floor floor' : Floor}

/-- As long as lines of the client are taken in, all that were taken in are handled or on their way. -/
def Heeds (id : ClientId) (floor : Floor) (happenings : List Happening) (floor' : Floor) : Prop :=
  floor'.exchange.intake.Listens id → floor.exchange.intake.Listens id ∧
    floor.underway id ++ forwardedLines id happenings = handledLines id happenings ++ floor'.underway id

namespace Heeds

theorem of_retains (hretains : Intake.Retains id floor'.exchange.intake floor.exchange.intake)
    (hactivity : textsOf (floor.activity.reportsOf id) =
      handledLines id happenings ++ textsOf (floor'.activity.reportsOf id))
    (hforwarded : forwardedLines id happenings = []) : Heeds id floor happenings floor' := by
  intro hlistens
  obtain ⟨hbefore, htexts⟩ := hretains hlistens
  refine ⟨hbefore, ?_⟩
  rw [underway, underway, hactivity, hforwarded, htexts, List.append_nil, List.append_assoc]

theorem attach {exchange : Exchange}
    (hexclusive : (floor.exchange.intake.holding id).offered? = none ∨
      ¬floor.exchange.intake.Visits id)
    (hintake : exchange.intake = floor.exchange.intake.attach id)
    (hforwarded : forwardedLines id happenings = []) (hhandled : handledLines id happenings = []) :
    Heeds id floor happenings { floor with exchange } := by
  intro hlistens
  change exchange.intake.Listens id at hlistens
  have htexts := (Intake.texts_attach (hexclusive.elim Or.inl Intake.reports_eq_nil_of_not_visits)).2
  rw [← hintake] at htexts
  rw [hintake] at hlistens
  refine ⟨Intake.listens_attach hlistens, ?_⟩
  rw [hforwarded, hhandled, List.append_nil, List.nil_append, underway, underway, htexts]

theorem order {order : Order} {orders : List Order} {exchange : Exchange}
    (hexclusive : (floor.exchange.intake.holding id).offered? = none ∨
      ¬floor.exchange.intake.Visits id)
    (hobeys : Exchange.Obeys { floor.exchange with orders } order happenings exchange) :
    Heeds id floor happenings { floor with exchange } := by
  obtain ⟨hforwarded, hhandled⟩ := hobeys.lines_eq_nil id
  have retains {exchange : Exchange}
      (hretains : Intake.Retains id exchange.intake floor.exchange.intake) :
      Heeds id floor happenings { floor with exchange } :=
    .of_retains hretains (by rw [hhandled, List.nil_append]) hforwarded
  cases hobeys with
  | @registered other peer hub effects outboxes hhandle _ =>
    have hintake := (Hub.steps_of_handle hhandle).foldl_absorb floor.exchange.intake
    by_cases hid : other = id
    · subst hid
      exact .attach hexclusive hintake hforwarded hhandled
    · apply retains
      dsimp only
      rw [hintake]
      exact .follow hexclusive fun peer' heq => hid (Event.register.inj heq).1
  | failed => exact retains (.refl _)
  | refused other _ =>
    apply retains
    show Intake.Retains id (floor.exchange.intake.withdraw other) floor.exchange.intake
    by_cases hid : other = id
    · subst hid
      exact .withdraw hexclusive
    · exact .of_holding (Intake.Narrows.withdraw id) (Intake.holding_withdraw_of_ne hid)
  | closing => exact retains (Exchange.retains_handle hexclusive (by simp))
  | ignored => exact retains (.refl _)

theorem write {other : ClientId} {line : String} {intake : Intake} {ringers : List ClientId}
    (hwrite : floor.exchange.intake.write other line = .accepted intake) :
    Heeds id floor [.forwarded other line] { floor with
      exchange := { floor.exchange with intake }, ringers } := by
  by_cases hid : other = id
  · subst hid
    intro _
    refine ⟨Intake.listens_of_write hwrite, ?_⟩
    show floor.underway other ++ forwardedLines other [.forwarded other line] =
      textsOf (floor.activity.reportsOf other) ++ (intake.holding other).texts
    rw [(Intake.texts_write hwrite).1, underway, List.append_assoc]
    simp [forwardedLines, Happening.forwarded?]
  · refine .of_retains ?_ rfl (by simp [forwardedLines, Happening.forwarded?, hid])
    exact .of_holding (Intake.Narrows.write hwrite id) (Intake.holding_write_of_ne hwrite hid)

theorem gather {round round' : Round} {leaver : Option ClientId} {intake : Intake}
    (hactivity : floor.activity = .gathering round leaver)
    (hgather : floor.exchange.intake.gather round = some (intake, round')) :
    Heeds id floor [] { floor with
      exchange := { floor.exchange with intake }, activity := .gathering round' leaver } := by
  intro hlistens
  refine ⟨Intake.listens_gather hgather hlistens, ?_⟩
  show floor.underway id ++ [] = [] ++ (textsOf (reportsIn id round'.batch) ++ (intake.holding id).texts)
  rw [Intake.texts_gather hgather, List.append_nil, List.nil_append, underway, hactivity]
  rfl

end Heeds

/-- What one step preserves of the lines of a client that is known already. -/
theorem Step.heeds (hstep : Step floor happenings floor') (hsound : Sound settings trace floor)
    (hexclusive : (floor.exchange.intake.holding id).offered? = none ∨
      ¬floor.exchange.intake.Visits id)
    (hknown : floor.exchange.registrations[id]? ≠ none) : Heeds id floor happenings floor' := by
  have same (hintake : floor'.exchange.intake = floor.exchange.intake)
      (hactivity : textsOf (floor'.activity.reportsOf id) = textsOf (floor.activity.reportsOf id))
      (hforwarded : forwardedLines id happenings = []) (hhandled : handledLines id happenings = []) :
      Heeds id floor happenings floor' := by
    apply Heeds.of_retains
    · rw [hintake]
      exact .refl _
    · rw [hhandled, hactivity, List.nil_append]
    · exact hforwarded
  cases hstep with
  -- A client known already is not the newcomer.
  | @connect other capacity outbox hnew =>
    have hne : other ≠ id := fun heq => hknown (heq ▸ hnew)
    refine .of_retains ?_ rfl rfl
    exact .of_holding (Intake.Narrows.offer id) (Intake.holding_offer_of_ne hne)
  | post _ hpost =>
    obtain rfl := Exchange.eq_of_post hpost
    exact same rfl rfl rfl rfl
  | @giveUp other =>
    refine .of_retains ?_ rfl rfl
    show Intake.Retains id (floor.exchange.intake.withdraw other) _
    by_cases hid : other = id
    · subst hid
      exact .withdraw hexclusive
    · exact .of_holding (Intake.Narrows.withdraw id) (Intake.holding_withdraw_of_ne hid)
  | write _ _ _ hwrite => exact .write hwrite
  | @letGo other intake _ _ hletGo =>
    by_cases hid : other = id
    · subst hid
      exact .of_retains
        (fun hlistens => ⟨Intake.listens_letGo hletGo hlistens, (Intake.texts_letGo hletGo).1⟩) rfl rfl
    · refine .of_retains ?_ rfl rfl
      exact .of_holding (Intake.Narrows.letGo hletGo id) (Intake.holding_letGo_of_ne hletGo hid)
  | vanish | take | stopReading | pass | dropHandles | stop => exact same rfl rfl rfl rfl
  | ring =>
    exact .of_retains (.of_holding (Intake.Narrows.ring id) Intake.holding_ring) rfl rfl
  | order _ _ _ hstays => exact .order hexclusive (Exchange.obeys_takeOrder hstays)
  | leave hfree _ _ hbegins =>
    refine same rfl ?_ rfl rfl
    rw [hfree]
    exact congrArg textsOf (Intake.reportsIn_of_begins hbegins id)
  | answer hfree _ _ hbegins =>
    refine .of_retains (.of_holding (Intake.Narrows.hush id) Intake.holding_hush) ?_ rfl
    rw [hfree]
    exact (congrArg textsOf (Intake.reportsIn_of_begins hbegins id)).symm
  | gather hactivity hgather => exact .gather hactivity hgather
  | @conclude round leaver hactivity =>
    refine .of_retains (.conclude hexclusive round) ?_ rfl
    rw [hactivity, textsOf_reportsOf_handling]
    rfl
  | @handle event events hactivity =>
    have hevents := hsound.events event
    rw [hactivity] at hevents
    refine .of_retains (Exchange.retains_handle hexclusive (hevents List.mem_cons_self id)) ?_ rfl
    rw [hactivity, Kept.reportsOf_handling, textsOf_append, handledLines_handled]
  | close =>
    exact .of_retains (Exchange.retains_handle hexclusive (by simp)) rfl rfl

theorem Stir.heeds (hstir : Stir floor happenings floor') (hsound : Sound settings trace floor)
    (hexclusive : (floor.exchange.intake.holding id).offered? = none ∨
      ¬floor.exchange.intake.Visits id)
    (hknown : floor.exchange.registrations[id]? ≠ none) : Heeds id floor happenings floor' := by
  cases hstir with
  | step hstep => exact hstep.heeds hsound hexclusive hknown
  | write _ _ hwrite => exact .write hwrite
  | report hpost =>
    obtain rfl := Exchange.eq_of_post hpost
    exact .of_retains (.refl _) rfl rfl

/-- Lines come in only from workers, and only as long as they are listened to. -/
theorem Stir.of_forwarded (hstir : Stir floor happenings floor')
    (hforwarded : forwardedLines id happenings ≠ []) :
    id ∈ floor.holders ∧ floor.exchange.intake.Listens id := by
  have hwritten {other : ClientId} {line : String} {intake : Intake} (hholds : other ∈ floor.holders)
      (hwrite : floor.exchange.intake.write other line = .accepted intake)
      (hforwarded : forwardedLines id [.forwarded other line] ≠ []) :
      id ∈ floor.holders ∧ floor.exchange.intake.Listens id := by
    by_cases hid : other = id
    · subst hid
      exact ⟨hholds, Intake.listens_of_write hwrite⟩
    · exact absurd (by simp [forwardedLines, Happening.forwarded?, hid]) hforwarded
  cases hstir with
  | write hholds _ hwrite => exact hwritten hholds hwrite hforwarded
  | report => exact absurd rfl hforwarded
  | step hstep =>
    cases hstep with
    | write hholds _ _ hwrite => exact hwritten hholds hwrite hforwarded
    | order =>
      refine absurd ?_ hforwarded
      unfold Exchange.announced
      split <;> rfl
    | connect | post | giveUp | letGo | vanish | ring | take | stopReading | pass | dropHandles | leave
      | answer | gather | conclude | handle | close | stop => exact absurd rfl hforwarded

theorem Stir.known (hstir : Stir floor happenings floor') (hid : id ∈ floor'.holders) :
    id ∈ floor.holders ∨ floor'.exchange.registrations[id]? ≠ none := by
  cases hstir with
  | write | report => exact Or.inl hid
  | step hstep =>
    cases hstep with
    | @connect other =>
      rcases ExtTreeSet.mem_insert.1 hid with hother | hid
      · obtain rfl := Std.compare_eq_iff_eq.1 hother
        right
        show (floor.exchange.registrations.insert other .pending)[other]? ≠ none
        rw [ExtTreeMap.getElem?_insert_self]
        exact Option.some_ne_none _
      · exact Or.inl hid
    | letGo | vanish => exact Or.inl (ExtTreeSet.mem_erase.1 hid).2
    | post | giveUp | write | ring | take | stopReading | pass | dropHandles | order | leave
      | answer | gather | conclude | handle | close | stop => exact Or.inl hid

/-- What has become of the lines of a client: they are handled or on their way, but for some that came
last. -/
structure Conserved (id : ClientId) (trace : List Happening) (floor : Floor) : Prop where
  known : id ∈ floor.holders → floor.exchange.registrations[id]? ≠ none
  silent : floor.exchange.registrations[id]? = none → forwardedLines id trace = []
  lines : ∃ lost, forwardedLines id trace = handledLines id trace ++ (floor.underway id ++ lost) ∧
    (lost ≠ [] → ¬floor.exchange.intake.Listens id)

theorem Bustle.conserved (h : Bustle settings trace floor) (id : ClientId) :
    Conserved id trace floor := by
  refine h.preserves (P := Conserved id) (fun exchange hnew => ?_)
    fun {trace happenings floor floor'} hbefore hconserved hstir => ?_
  · obtain ⟨room, -, rfl⟩ := Exchange.exists_of_new hnew
    have hstart : Bustle settings [] { exchange := _ } := .start hnew
    refine ⟨fun hid => absurd hid ExtTreeSet.not_mem_empty, fun _ => rfl, [], ?_, absurd rfl⟩
    rw [hstart.underway_eq_nil rfl]
    rfl
  · have hupholds := (hstir.upshot hbefore.sound id).upholds
    obtain ⟨hknown, hsilent, lost, hlines, hlost⟩ := hconserved
    have hknown' (hid : id ∈ floor'.holders) : floor'.exchange.registrations[id]? ≠ none :=
      (hstir.known hid).elim (fun hid => mt hupholds.known (hknown hid)) fun h => h
    have hforwarded : forwardedLines id happenings ≠ [] →
        floor.exchange.registrations[id]? ≠ none ∧ lost = [] := by
      intro hnow
      obtain ⟨hholds, hlistens⟩ := hstir.of_forwarded hnow
      exact ⟨hknown hholds, by_contra fun h => hlost h hlistens⟩
    have hsilent' (hnone : floor'.exchange.registrations[id]? = none) :
        forwardedLines id (trace ++ happenings) = [] := by
      have hbefore := hupholds.known hnone
      rw [forwardedLines_append, hsilent hbefore, List.nil_append]
      exact by_contra fun hnow => (hforwarded hnow).1 hbefore
    refine ⟨hknown', hsilent', ?_⟩
    obtain ⟨rest, hflows, gone, rfl⟩ := (hbefore.flows hstir id).lines
    -- Either nothing comes in now, or nothing was lost before.
    have hswap : lost ++ forwardedLines id happenings = forwardedLines id happenings ++ lost := by
      by_cases hnow : forwardedLines id happenings = []
      · rw [hnow, List.append_nil, List.nil_append]
      · rw [(hforwarded hnow).2, List.append_nil, List.nil_append]
    refine ⟨gone ++ lost, ?_, fun hgone hlistens => hgone ?_⟩
    · calc forwardedLines id (trace ++ happenings)
          = handledLines id trace ++ (floor.underway id ++ (lost ++ forwardedLines id happenings)) := by
            rw [forwardedLines_append, hlines, List.append_assoc, List.append_assoc]
        _ = handledLines id trace ++ ((floor.underway id ++ forwardedLines id happenings) ++ lost) := by
            rw [hswap, List.append_assoc]
        _ = handledLines id (trace ++ happenings) ++ (floor'.underway id ++ (gone ++ lost)) := by
            rw [hflows, handledLines_append]
            simp only [List.append_assoc]
    · by_cases hunknown : floor.exchange.registrations[id]? = none
      · have hnothing := hsilent hunknown
        have hnow : forwardedLines id happenings = [] :=
          by_contra fun hnow => (hforwarded hnow).1 hunknown
        rw [hbefore.underway_eq_nil hnothing, hnow, List.append_nil, eq_comm,
          List.append_eq_nil_iff, List.append_eq_nil_iff] at hflows
        rw [hnothing, eq_comm, List.append_eq_nil_iff, List.append_eq_nil_iff] at hlines
        rw [hflows.2.2, hlines.2.2]
        rfl
      · have hexclusive := offered_or_visits hbefore.sound.exchange hbefore.attended (hbefore.unheard id)
        obtain ⟨hlistened, hall⟩ := hstir.heeds hbefore.sound hexclusive hunknown hlistens
        rw [hall, List.append_cancel_left_eq, List.self_eq_append_right] at hflows
        rw [hflows, List.nil_append]
        exact by_contra fun h => hlost h hlistened

/-- The n-th line of a client that the hub handles is the n-th that was taken in from it. -/
theorem Bustle.handled_prefix (h : Bustle settings trace floor) (id : ClientId) :
    handledLines id trace <+: forwardedLines id trace := by
  obtain ⟨lost, hlines, -⟩ := (h.conserved id).lines
  rw [hlines]
  exact List.prefix_append _ _

end Floor

end ChatRooms
