import ChatRooms.Proofs.Intake.Passage
import ChatRooms.Proofs.Intake.Visits

namespace ChatRooms

open Std

namespace Intake

variable {intake intake' : Intake} {id : ClientId} {round round' : Round}

theorem mode_eq_of_holding {held : Holding} (h : intake'.holding id = held)
    (hmode : held.mode = (intake.holding id).mode) : intake'.mode = intake.mode := by
  rw [← mode_holding intake' id, h, hmode, mode_holding]

theorem mode_gather (h : intake.gather round = some (intake', round')) :
    intake'.mode = intake.mode := by
  unfold gather at h
  split at h
  next =>
    split at h
    next => cases h
    next =>
      obtain ⟨rfl, -⟩ := Prod.mk.inj (Option.some.inj h)
      rfl
  next =>
    obtain ⟨_, -, heq⟩ := Option.map_eq_some_iff.1 h
    obtain ⟨rfl, -⟩ := Prod.mk.inj heq
    rfl
  next => cases h
  next => cases h

end Intake

namespace Round

/-- What has been gathered of a client, apart from an ending that a sweep has noted. -/
def taken (id : ClientId) : Round → List Report
  | queue taken => reportsIn id taken
  | feeds tour => reportsIn id tour.haul.lines

/-- The ending of a client whose feed a sweep has found at its end. -/
def noted (id : ClientId) : Round → List Report
  | queue _ => []
  | feeds tour => reportsIn id (tour.haul.ended.map fun id => { id, report := .closed })

def ahead : Round → List ClientId
  | queue _ => []
  | feeds tour => tour.ahead

/-- What the round has to do with one client agrees with what the intake holds of it. -/
structure Fits (round : Round) (id : ClientId) (intake : Intake) : Prop where
  mode : round.mode = intake.mode
  nodup : round.ahead.Nodup
  lines : round.mode = .sweep → .closed ∉ round.taken id
  noted : round.noted id = [] ∨ ¬round.WillVisit id ∧ round.noted id = [.closed] ∧
    (intake.holding id).reports = [.closed]

variable {round : Round} {id : ClientId} {intake intake' : Intake}

theorem reportsIn_batch : reportsIn id round.batch = round.taken id ++ round.noted id := by
  cases round with
  | queue taken => exact (List.append_nil _).symm
  | feeds tour => exact reportsIn_append

theorem Fits.noted_eq_nil (h : round.Fits id intake) (hopen : .closed ∉ (intake.holding id).reports) :
    round.noted id = [] := by
  rcases h.noted with hnil | ⟨-, -, hreports⟩
  · exact hnil
  · rw [hreports] at hopen
    exact absurd (List.mem_singleton_self _) hopen

theorem Fits.of_open (h : round.Fits id intake) (hopen : .closed ∉ (intake.holding id).reports)
    (hmode : intake'.mode = intake.mode) : round.Fits id intake' :=
  ⟨h.mode.trans hmode.symm, h.nodup, h.lines, Or.inl (h.noted_eq_nil hopen)⟩

theorem Fits.of_reports (h : round.Fits id intake) (hmode : intake'.mode = intake.mode)
    (hreports : (intake'.holding id).reports = (intake.holding id).reports) :
    round.Fits id intake' := by
  refine ⟨h.mode.trans hmode.symm, h.nodup, h.lines, ?_⟩
  rw [hreports]
  exact h.noted

theorem Fits.of_same (h : round.Fits id intake) (hholding : intake'.holding id = intake.holding id) :
    round.Fits id intake' :=
  h.of_reports (Intake.mode_eq_of_holding hholding rfl)
    (congrArg Holding.reports hholding)

end Round

namespace Sweeper

variable {sweeper : Sweeper} {haul : Haul} {id visited : ClientId}

theorem reportsIn_linesOf : reportsIn id (sweeper.linesOf id) =
    sweeper.feeds[id]?.elim [] fun feed => feed.lines.map .line := by
  rw [linesOf, reportsIn_lines]
  cases sweeper.feeds[id]? <;> rfl

theorem reportsIn_linesOf_of_ne (hne : visited ≠ id) : reportsIn id (sweeper.linesOf visited) = [] :=
  reportsIn_lines_of_ne hne

theorem reportsIn_ended_visit : reportsIn id
    ((visit (sweeper, haul) visited).2.ended.map fun id => { id, report := .closed }) =
      reportsIn id (haul.ended.map fun id => { id, report := .closed }) ++
        if visited = id ∧ sweeper.endsOf id = true then [.closed] else [] := by
  rw [visit_snd]
  dsimp only
  by_cases hid : visited = id
  · subst hid
    cases sweeper.endsOf visited <;> simp
  · cases sweeper.endsOf visited <;> simp [hid, reportsIn_cons_of_ne]

theorem getElem?_conclude (sweeper : Sweeper) (tour : Tour) (id : ClientId) :
    (sweeper.conclude tour).feeds[id]? =
      if (Round.feeds tour).noted id = [] then sweeper.feeds[id]? else none := by
  have hended : id ∈ tour.haul.ended ↔ (Round.feeds tour).noted id ≠ [] := by
    simp [Round.noted, reportsIn, List.filterMap_eq_nil_iff]
  rw [conclude, getElem?_foldl_detach]
  by_cases hid : id ∈ tour.haul.ended
  · rw [if_pos hid, if_neg (hended.1 hid)]
  · rw [if_neg hid, if_pos (not_not.1 (mt hended.2 hid))]

end Sweeper

namespace Intake

/-- What one step of gathering means to one client. -/
structure Progress (id : ClientId) (intake : Intake) (round : Round) (intake' : Intake)
    (round' : Round) : Prop where
  fits : round'.Fits id intake'
  account : round'.taken id ++ (intake'.holding id).reports =
    round.taken id ++ (intake.holding id).reports
  /-- A visit leaves nothing but the ending, and that has been noted. -/
  visited : round.WillVisit id → round'.WillVisit id ∨ round'.noted id = (intake'.holding id).reports
  /-- After a visit nothing is added. -/
  passed : ¬round.WillVisit id → reportsIn id round'.batch = reportsIn id round.batch ∧
    ¬round'.WillVisit id

variable {intake intake' : Intake} {id : ClientId} {round round' : Round}

theorem Progress.queue {queue : SharedQueue} {taken : List Envelope} {envelope : Envelope}
    {envelopes : List Envelope} (hqueue : queue.envelopes = envelope :: envelopes) :
    Progress id (addressed queue) (.queue taken) (addressed { queue with envelopes })
      (.queue (taken ++ [envelope])) where
  fits := ⟨rfl, List.nodup_nil, fun h => (by cases h), Or.inl rfl⟩
  account := by
    simp only [Round.taken, holding, ← reportsIn_append, List.append_assoc, List.singleton_append,
      hqueue]
  visited _ := Or.inl trivial
  passed h := absurd trivial h

theorem Progress.own_feed {sweeper : Sweeper} {offered : ExtTreeMap ClientId Feed} {haul : Haul}
    {ahead : List ClientId}
    (hfits : (Round.feeds { haul, ahead := id :: ahead }).Fits id (sweep sweeper offered)) :
    Progress id (sweep sweeper offered) (.feeds { haul, ahead := id :: ahead })
      (sweep (Sweeper.visit (sweeper, haul) id).1 offered)
      (.feeds { haul := (Sweeper.visit (sweeper, haul) id).2, ahead }) := by
  obtain ⟨hnot, hnodup⟩ := List.nodup_cons.1 hfits.nodup
  have hwill : (Round.feeds { haul, ahead := id :: ahead }).WillVisit id := List.mem_cons_self
  have hnone : reportsIn id (haul.ended.map fun id => { id, report := .closed }) = [] :=
    hfits.noted.resolve_right fun h => h.1 hwill
  have hnoted : (Round.feeds { haul := (Sweeper.visit (sweeper, haul) id).2, ahead }).noted id =
      ((sweep (Sweeper.visit (sweeper, haul) id).1 offered).holding id).reports := by
    rw [Round.noted, Sweeper.reportsIn_ended_visit, hnone]
    dsimp only [holding]
    rw [Sweeper.getElem?_visit, Sweeper.endsOf]
    cases sweeper.feeds[id]? with
    | none => simp
    | some feed => simp [Feed.reports, Feed.drained]
  have htaken : (Round.feeds { haul := (Sweeper.visit (sweeper, haul) id).2, ahead }).taken id =
      reportsIn id haul.lines ++ sweeper.feeds[id]?.elim [] fun feed => feed.lines.map .line := by
    rw [Round.taken, Sweeper.visit_snd, reportsIn_append, Sweeper.reportsIn_linesOf]
  refine ⟨⟨rfl, hnodup, fun hmode => ?_, ?_⟩, ?_, fun _ => Or.inr hnoted,
    fun hpassed => absurd hwill hpassed⟩
  · rw [htaken, List.mem_append]
    rintro (hmem | hmem)
    · exact hfits.lines hmode hmem
    · cases hfeed : sweeper.feeds[id]? with
      | none => simp [hfeed] at hmem
      | some feed => simp [hfeed] at hmem
  · rw [← hnoted, Round.noted, Sweeper.reportsIn_ended_visit, hnone, List.nil_append]
    split
    next => exact Or.inr ⟨hnot, rfl, rfl⟩
    next => exact Or.inl rfl
  · rw [htaken]
    dsimp only [holding, Round.taken]
    rw [Sweeper.getElem?_visit]
    cases sweeper.feeds[id]? with
    | none => simp
    | some feed => simp [Feed.reports, Feed.drained]

theorem Progress.other_feed {sweeper : Sweeper} {offered : ExtTreeMap ClientId Feed} {haul : Haul}
    {visited : ClientId} {ahead : List ClientId} (hne : visited ≠ id)
    (hfits : (Round.feeds { haul, ahead := visited :: ahead }).Fits id (sweep sweeper offered)) :
    Progress id (sweep sweeper offered) (.feeds { haul, ahead := visited :: ahead })
      (sweep (Sweeper.visit (sweeper, haul) visited).1 offered)
      (.feeds { haul := (Sweeper.visit (sweeper, haul) visited).2, ahead }) := by
  have hholding : (sweep (Sweeper.visit (sweeper, haul) visited).1 offered).holding id =
      (sweep sweeper offered).holding id := by
    simp only [holding, Sweeper.getElem?_visit, if_neg hne]
  have htaken : (Round.feeds { haul := (Sweeper.visit (sweeper, haul) visited).2, ahead }).taken id =
      (Round.feeds { haul, ahead := visited :: ahead }).taken id := by
    rw [Round.taken, Sweeper.visit_snd, reportsIn_append, Sweeper.reportsIn_linesOf_of_ne hne,
      List.append_nil, Round.taken]
  have hnoted : (Round.feeds { haul := (Sweeper.visit (sweeper, haul) visited).2, ahead }).noted id =
      (Round.feeds { haul, ahead := visited :: ahead }).noted id := by
    rw [Round.noted, Sweeper.reportsIn_ended_visit, if_neg fun h => hne h.1, List.append_nil,
      Round.noted]
  have hwill : (Round.feeds { haul, ahead := visited :: ahead }).WillVisit id ↔
      (Round.feeds { haul := (Sweeper.visit (sweeper, haul) visited).2, ahead }).WillVisit id :=
    List.mem_cons.trans (or_iff_right (Ne.symm hne))
  refine ⟨⟨rfl, (List.nodup_cons.1 hfits.nodup).2, ?_, ?_⟩, ?_,
    fun h => Or.inl (hwill.1 h), fun h => ⟨?_, mt hwill.2 h⟩⟩
  · rw [htaken]
    exact hfits.lines
  · rw [hnoted, hholding, ← hwill]
    exact hfits.noted
  · rw [htaken, hholding]
  · rw [Round.reportsIn_batch, Round.reportsIn_batch, htaken, hnoted]

theorem fits_of_begins (h : intake.Begins round) : round.Fits id intake := by
  have hnil := reportsIn_of_begins h id
  rw [Round.reportsIn_batch, List.append_eq_nil_iff] at hnil
  refine ⟨(empties_of_begins h id).1.trans (mode_holding intake id), ?_, fun _ => ?_, Or.inl hnil.2⟩
  · cases intake with
    | addressed queue =>
      cases round with
      | feeds tour => cases h
      | queue taken => exact List.nodup_nil
    | sweep sweeper offered =>
      cases round with
      | queue taken => cases h
      | feeds tour => exact h.2.nodup_iff.2 ExtTreeMap.nodup_keys
  · rw [hnil.1]
    exact List.not_mem_nil

theorem willVisit_of_begins (h : intake.Begins round) :
    round.WillVisit id ∨ (intake.holding id).reports = [] := by
  cases intake with
  | addressed queue =>
    cases round with
    | feeds tour => cases h
    | queue taken => exact Or.inl trivial
  | sweep sweeper offered =>
    cases round with
    | queue taken => cases h
    | feeds tour =>
      cases hfeed : sweeper.feeds[id]? with
      | none => exact Or.inr (by simp [holding, hfeed])
      | some feed => exact Or.inl (Sweeper.Begins.mem_ahead h hfeed)

theorem Progress.of_gather (hfits : round.Fits id intake)
    (h : intake.gather round = some (intake', round')) : Progress id intake round intake' round' := by
  cases intake with
  | addressed queue =>
    cases round with
    | feeds tour => cases h
    | queue taken =>
      cases hqueue : queue.envelopes with
      | nil => simp [gather, hqueue] at h
      | cons envelope envelopes =>
        simp only [gather, hqueue] at h
        obtain ⟨rfl, rfl⟩ := Prod.mk.inj (Option.some.inj h)
        exact .queue hqueue
  | sweep sweeper offered =>
    cases round with
    | queue taken => cases h
    | feeds tour =>
      obtain ⟨⟨sweeper', tour'⟩, hproceed, hafter⟩ := Option.map_eq_some_iff.1 h
      obtain ⟨rfl, rfl⟩ := Prod.mk.inj hafter
      obtain ⟨visited, ahead, hahead, rfl, rfl⟩ := Sweeper.exists_of_proceed hproceed
      obtain ⟨haul, _⟩ := tour
      obtain rfl : _ = visited :: ahead := hahead
      by_cases hid : visited = id
      · subst hid
        exact .own_feed hfits
      · exact .other_feed hid hfits

/-- When there is no more to gather, nothing is left of a client but an ending that is noted. -/
theorem noted_of_end (hfits : round.Fits id intake) (hend : intake.gather round = none)
    (hvisit : round.WillVisit id) : round.noted id = (intake.holding id).reports := by
  cases intake with
  | addressed queue =>
    cases round with
    | feeds tour => cases hfits.mode
    | queue taken =>
      cases hqueue : queue.envelopes with
      | nil => simp [Round.noted, holding, hqueue]
      | cons envelope envelopes => simp [gather, hqueue] at hend
  | sweep sweeper offered =>
    cases round with
    | queue taken => cases hfits.mode
    | feeds tour =>
      have hahead := Sweeper.proceed_eq_none.1 (Option.map_eq_none_iff.1 hend)
      rw [Round.WillVisit, hahead] at hvisit
      cases hvisit

theorem holding_conclude_of_fits (hfits : round.Fits id intake) :
    ((intake.conclude round).holding id).reports =
      if round.noted id = [] then (intake.holding id).reports else [] := by
  cases intake with
  | addressed queue =>
    cases round with
    | feeds tour => cases hfits.mode
    | queue taken => rfl
  | sweep sweeper offered =>
    cases round with
    | queue taken => cases hfits.mode
    | feeds tour =>
      dsimp only [conclude, holding]
      rw [Sweeper.getElem?_conclude]
      split <;> rfl

theorem account_conclude (hfits : round.Fits id intake) :
    reportsIn id round.batch ++ ((intake.conclude round).holding id).reports =
      round.taken id ++ (intake.holding id).reports := by
  rw [Round.reportsIn_batch, holding_conclude_of_fits hfits]
  rcases hfits.noted with hnil | ⟨-, hnoted, hreports⟩
  · rw [if_pos hnil, hnil, List.append_nil]
  · rw [hnoted, hreports, if_neg (List.cons_ne_nil _ _), List.append_nil]

theorem visits_conclude (hfits : round.Fits id intake) : (intake.conclude round).Visits id ↔
    intake.Visits id ∧ round.noted id = [] := by
  cases intake with
  | addressed queue => exact ⟨fun h => h.elim, fun h => h.1.elim⟩
  | sweep sweeper offered =>
    cases round with
    | queue taken => cases hfits.mode
    | feeds tour =>
      dsimp only [conclude, Visits]
      rw [ExtTreeMap.mem_iff_isSome_getElem?, ExtTreeMap.mem_iff_isSome_getElem?,
        Sweeper.getElem?_conclude]
      split
      next hnil => exact (and_iff_left hnil).symm
      next hnoted => exact ⟨fun h => (by cases h), fun h => absurd h.2 hnoted⟩

theorem offered_offer : ((intake.offer id).holding id).offered? =
    if intake.mode = .sweep then some {} else none := by
  cases intake with
  | addressed queue => rfl
  | sweep sweeper offered => simp [offer, holding, mode]

theorem attach_unused (hoffered : (intake.holding id).offered? =
      if intake.mode = .sweep then some {} else none) (hempty : (intake.holding id).reports = []) :
    (intake.attach id).holding id = { mode := intake.mode, reports := [], offered? := none } ∧
      ((intake.attach id).Visits id ↔ intake.mode = .sweep) := by
  cases intake with
  | addressed queue =>
    refine ⟨?_, ⟨fun h => h.elim, fun h => (by cases h)⟩⟩
    have hreports : reportsIn id queue.envelopes = [] := hempty
    simp [attach, holding, mode, hreports]
  | sweep sweeper offered =>
    have hfound : offered[id]? = some {} := hoffered
    simp [attach, hfound, holding, mode, Visits, Sweeper.attach, Feed.reports]

theorem visits_attach_of_ne {other : ClientId} (hne : other ≠ id) :
    (intake.attach other).Visits id ↔ intake.Visits id := by
  refine ⟨fun h => (visits_attach h).resolve_right (Ne.symm hne), fun h => ?_⟩
  cases intake with
  | addressed queue => exact h
  | sweep sweeper offered =>
    unfold attach
    dsimp only
    split
    next => exact ExtTreeMap.mem_insert.2 (Or.inr h)
    next => exact h

theorem visits_detach_of_ne {other : ClientId} (hne : other ≠ id) :
    (intake.detach other).Visits id ↔ intake.Visits id := by
  refine ⟨fun h => (visits_detach h).1, fun h => ?_⟩
  cases intake with
  | addressed queue => exact h
  | sweep sweeper offered => exact ExtTreeMap.mem_erase.2 ⟨mt Std.compare_eq_iff_eq.1 hne, h⟩

/-- An ending reaches the intake, unless the client has a feed that nobody visits. -/
theorem holding_letGo_of_heard (h : intake.letGo id = .accepted intake')
    (hoffered : (intake.holding id).offered? = none) (hopen : .closed ∉ (intake.holding id).reports)
    (hheard : intake.mode = .sweep → intake.Visits id) : intake'.holding id =
      { intake.holding id with reports := (intake.holding id).reports ++ [.closed] } := by
  cases intake with
  | addressed queue =>
    obtain rfl := eq_of_enqueue h
    simp [holding]
  | sweep sweeper offered =>
    have hnone : offered[id]? = none := hoffered
    obtain ⟨feed, hfeed⟩ := Maps.mem_iff_exists.1 (hheard rfl)
    have hended : feed.hasEnded = false := by
      simpa [holding, hfeed, Feed.reports] using hopen
    simp only [letGo, hnone] at h
    obtain rfl := Posting.accepted.inj h
    simp [holding, Sweeper.getElem?_update, hfeed, Feed.reports, Feed.finish, hended]

end Intake

end ChatRooms
