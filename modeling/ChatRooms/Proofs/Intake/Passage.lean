import ChatRooms.Proofs.Intake.Rest
import ChatRooms.Proofs.Intake.Watch

namespace ChatRooms

open Std

def Report.text? : Report → Option String
  | line text => some text
  | closed => none

/-- The lines among reports. -/
def textsOf (reports : List Report) : List String :=
  reports.filterMap Report.text?

/-- There are no lines among reports. -/
def Endings (reports : List Report) : Prop :=
  ∀ report ∈ reports, report = .closed

/-- No line comes after an ending. -/
def Orderly (reports : List Report) : Prop :=
  reports.Pairwise fun earlier later => earlier = .closed → later = .closed

/-- The same lines in the same order, and an ending only if there was one. -/
structure Keeps (before after : List Report) : Prop where
  texts : textsOf after = textsOf before
  orderly : Orderly before → Orderly after
  closed : .closed ∈ after → .closed ∈ before

section Reports

variable {reports more before after : List Report} {text : String}

@[simp] theorem textsOf_nil : textsOf [] = [] := rfl

@[simp] theorem textsOf_append : textsOf (reports ++ more) = textsOf reports ++ textsOf more :=
  List.filterMap_append

@[simp] theorem textsOf_line : textsOf (.line text :: reports) = text :: textsOf reports := rfl

@[simp] theorem textsOf_closed : textsOf (.closed :: reports) = textsOf reports := rfl

theorem Endings.textsOf_eq_nil (h : Endings reports) : textsOf reports = [] := by
  rw [textsOf, List.filterMap_eq_nil_iff]
  intro report hmem
  rw [h report hmem]
  rfl

theorem endings_iff_textsOf : Endings reports ↔ textsOf reports = [] := by
  refine ⟨Endings.textsOf_eq_nil, fun h report hmem => ?_⟩
  have hnone := List.filterMap_eq_nil_iff.1 h report hmem
  cases report with
  | line text => cases hnone
  | closed => rfl

theorem Endings.append (h : Endings reports) (h' : Endings more) : Endings (reports ++ more) := by
  intro report hmem
  exact (List.mem_append.1 hmem).elim (h report) (h' report)

theorem Endings.orderly (h : Endings reports) : Orderly reports :=
  List.pairwise_of_forall_mem_list fun _ _ later hlater _ => h later hlater

theorem Orderly.sublist (h : Orderly reports) (hsublist : more.Sublist reports) : Orderly more :=
  List.Pairwise.sublist hsublist h

theorem Orderly.append_endings (h : Orderly reports) (hmore : Endings more) :
    Orderly (reports ++ more) :=
  List.pairwise_append.2 ⟨h, hmore.orderly, fun _ _ later hlater _ => hmore later hlater⟩

theorem Orderly.endings_of_closed (h : Orderly (reports ++ more)) (hclosed : .closed ∈ reports) :
    Endings more :=
  fun later hlater => (List.pairwise_append.1 h).2.2 .closed hclosed later hlater rfl

theorem Orderly.endings_of_cons (h : Orderly (.closed :: reports)) : Endings reports :=
  fun later hlater => (List.pairwise_cons.1 h).1 later hlater rfl

theorem Orderly.append_line (h : Orderly reports) (hopen : .closed ∉ reports) :
    Orderly (reports ++ [.line text]) :=
  List.pairwise_append.2 ⟨h, List.pairwise_singleton _ _,
    fun _ hearlier _ _ hclosed => absurd (hclosed ▸ hearlier) hopen⟩

theorem Keeps.refl (reports : List Report) : Keeps reports reports :=
  ⟨rfl, fun h => h, fun h => h⟩

theorem Keeps.put_off {lines endings rest : List Report} (hendings : Endings endings)
    (hrest : Endings rest) : Keeps (before ++ endings ++ (lines ++ rest))
      (before ++ lines ++ (endings ++ rest) ++ rest) where
  texts := by
    simp only [textsOf_append, hendings.textsOf_eq_nil, hrest.textsOf_eq_nil, List.append_nil]
  orderly h := by
    have hlines : Orderly (before ++ lines) := h.sublist
      ((List.sublist_append_left before endings).append (List.sublist_append_left lines rest))
    exact (hlines.append_endings (hendings.append hrest)).append_endings hrest
  closed h := by
    simp only [List.mem_append] at h ⊢
    tauto

theorem Keeps.drop_rest {rest : List Report} (h : Orderly (before ++ more))
    (hrest : rest = more ∨ .closed ∈ before ∧ rest = []) : Keeps (before ++ more) (before ++ rest) := by
  rcases hrest with rfl | ⟨hclosed, rfl⟩
  · exact .refl _
  · have hendings := h.endings_of_closed hclosed
    refine ⟨?_, fun _ => ?_, fun hmem => ?_⟩
    · rw [textsOf_append, textsOf_append, hendings.textsOf_eq_nil, textsOf_nil]
    · exact h.sublist ((List.nil_sublist more).append_left before)
    · rw [List.append_nil] at hmem
      exact List.mem_append_left more hmem

end Reports

def Feed.reports (feed : Feed) : List Report :=
  feed.lines.map .line ++ if feed.hasEnded then [.closed] else []

theorem Feed.endings_reports {feed : Feed} (hempty : feed.lines = []) : Endings feed.reports := by
  intro report hmem
  rw [reports, hempty, List.map_nil, List.nil_append] at hmem
  split at hmem
  next => exact List.mem_singleton.1 hmem
  next => cases hmem

theorem Feed.hasEnded_of_closed {feed : Feed} (h : .closed ∈ feed.reports) : feed.hasEnded = true := by
  simpa [reports] using h

/-- What envelopes say of one client. -/
def reportsIn (id : ClientId) (envelopes : List Envelope) : List Report :=
  envelopes.filterMap fun envelope => if envelope.id = id then some envelope.report else none

/-- All that the intake has to do with one client. -/
structure Holding where
  mode : IntakeMode
  reports : List Report
  /-- Its feed, as long as nobody visits it. -/
  offered? : Option Feed

def Intake.holding (intake : Intake) (id : ClientId) : Holding :=
  match intake with
  | addressed queue =>
    { mode := .addressed, reports := reportsIn id queue.envelopes, offered? := none }
  | sweep sweeper offered =>
    { mode := .sweep, reports := sweeper.feeds[id]?.elim [] Feed.reports, offered? := offered[id]? }

section Envelopes

variable {id other : ClientId} {envelopes more : List Envelope} {lines : List String}
  {ids : List ClientId}

@[simp] theorem reportsIn_nil : reportsIn id [] = [] := rfl

@[simp] theorem reportsIn_append :
    reportsIn id (envelopes ++ more) = reportsIn id envelopes ++ reportsIn id more :=
  List.filterMap_append

@[simp] theorem reportsIn_cons_self {report : Report} :
    reportsIn id ({ id, report } :: envelopes) = report :: reportsIn id envelopes := by
  simp [reportsIn]

theorem reportsIn_cons_of_ne {report : Report} (hne : other ≠ id) :
    reportsIn id ({ id := other, report } :: envelopes) = reportsIn id envelopes := by
  simp [reportsIn, hne]

theorem reportsIn_lines : reportsIn id (lines.map fun line => { id, report := .line line }) =
    lines.map .line := by
  simp [reportsIn, List.filterMap_map]

theorem reportsIn_lines_of_ne (hne : other ≠ id) :
    reportsIn id (lines.map fun line => { id := other, report := .line line }) = [] := by
  simp [reportsIn, List.filterMap_map, hne]

theorem endings_reportsIn (ids : List ClientId) :
    Endings (reportsIn id (ids.map fun id => { id, report := .closed })) := by
  intro report hmem
  obtain ⟨envelope, henvelope, hreport⟩ := List.mem_filterMap.1 hmem
  obtain ⟨other, -, rfl⟩ := List.mem_map.1 henvelope
  dsimp only at hreport
  split at hreport
  next => exact (Option.some.inj hreport).symm
  next => cases hreport

theorem closed_mem_reportsIn (hid : id ∈ ids) :
    .closed ∈ reportsIn id (ids.map fun id => { id, report := .closed }) :=
  List.mem_filterMap.2 ⟨_, List.mem_map_of_mem hid, if_pos rfl⟩

end Envelopes

namespace Sweeper

variable {sweeper : Sweeper} {haul : Haul} {id visited : ClientId} {feed : Feed}

theorem reportsIn_batch_visit (hfeed : sweeper.feeds[id]? = some feed) :
    reportsIn id (visit (sweeper, haul) id).2.batch =
      reportsIn id haul.lines ++ feed.lines.map .line ++
        (reportsIn id (haul.ended.map fun id => { id, report := .closed }) ++
          if feed.hasEnded then [.closed] else []) := by
  unfold visit Haul.batch
  dsimp only
  rw [hfeed]
  dsimp only
  rw [reportsIn_append, reportsIn_append, reportsIn_lines]
  split <;> simp

theorem reportsIn_batch_visit_of_none (hnone : sweeper.feeds[id]? = none) :
    reportsIn id (visit (sweeper, haul) id).2.batch = reportsIn id haul.batch := by
  unfold visit
  dsimp only
  rw [hnone]

theorem reportsIn_batch_visit_of_ne (hne : visited ≠ id) :
    reportsIn id (visit (sweeper, haul) visited).2.batch = reportsIn id haul.batch := by
  unfold visit Haul.batch
  dsimp only
  split
  next => rfl
  next feed _ =>
    rw [reportsIn_append, reportsIn_append, reportsIn_append, reportsIn_lines_of_ne hne,
      List.append_nil]
    split <;> simp [reportsIn_cons_of_ne hne]

end Sweeper

namespace Intake

variable {intake intake' : Intake} {id other : ClientId} {line : String} {round round' : Round}

theorem mode_holding (intake : Intake) (id : ClientId) : (intake.holding id).mode = intake.mode := by
  cases intake <;> rfl

theorem holding_atRest {mode : IntakeMode} {capacity : Nat} {directory : Directory}
    (hid : id ∉ directory.occupants) :
    (atRest mode capacity directory).holding id = { mode, reports := [], offered? := none } := by
  cases mode with
  | addressed => rfl
  | sweep => simp [atRest, holding, Directory.getElem?_feeds_of_not_mem hid]

theorem holding_ring : intake.ring.holding id = intake.holding id := by
  cases intake <;> rfl

theorem holding_hush : intake.hush.holding id = intake.holding id := by
  cases intake <;> rfl

theorem holding_offer : ∃ offered?, (∀ feed, offered? = some feed → feed = {}) ∧
    (intake.offer id).holding id = { intake.holding id with offered? } := by
  cases intake with
  | addressed queue => exact ⟨none, by simp, rfl⟩
  | sweep sweeper offered =>
    refine ⟨some {}, by simp, ?_⟩
    simp [offer, holding]

theorem holding_offer_of_ne (hne : id ≠ other) :
    (intake.offer id).holding other = intake.holding other := by
  cases intake with
  | addressed queue => rfl
  | sweep sweeper offered => simp only [offer, holding, Maps.getElem?_insert_of_ne hne]

theorem holding_withdraw :
    (intake.withdraw id).holding id = { intake.holding id with offered? := none } := by
  cases intake with
  | addressed queue => rfl
  | sweep sweeper offered => simp [withdraw, holding]

theorem holding_withdraw_of_ne (hne : id ≠ other) :
    (intake.withdraw id).holding other = intake.holding other := by
  cases intake with
  | addressed queue => rfl
  | sweep sweeper offered => simp only [withdraw, holding, Maps.getElem?_erase_of_ne hne]

theorem holding_attach : (intake.attach id).holding id =
    match (intake.holding id).offered? with
    | some feed => { intake.holding id with reports := feed.reports, offered? := none }
    | none => intake.holding id := by
  cases intake with
  | addressed queue => rfl
  | sweep sweeper offered =>
    unfold attach
    dsimp only [holding]
    cases hfeed : offered[id]? with
    | none => simp only [hfeed]
    | some feed => simp [Sweeper.attach]

theorem holding_attach_of_ne (hne : id ≠ other) :
    (intake.attach id).holding other = intake.holding other := by
  cases intake with
  | addressed queue => rfl
  | sweep sweeper offered =>
    unfold attach
    dsimp only
    split
    next => simp only [holding, Sweeper.attach, Maps.getElem?_insert_of_ne hne,
      Maps.getElem?_erase_of_ne hne]
    next => rfl

/-- A feed that is not visited any more is gone with what it holds. The queue stays. -/
theorem holding_detach : ∃ reports, (reports = (intake.holding id).reports ∨ reports = []) ∧
    (intake.detach id).holding id = { intake.holding id with reports } := by
  cases intake with
  | addressed queue => exact ⟨_, Or.inl rfl, rfl⟩
  | sweep sweeper offered =>
    refine ⟨[], Or.inr rfl, ?_⟩
    simp [detach, Sweeper.detach, holding]

theorem holding_detach_of_ne (hne : id ≠ other) :
    (intake.detach id).holding other = intake.holding other := by
  cases intake with
  | addressed queue => rfl
  | sweep sweeper offered =>
    simp only [detach, Sweeper.detach, holding, Maps.getElem?_erase_of_ne hne]

/-- An event is nothing to the reports of a client that neither comes nor goes by it. -/
theorem holding_follow {event : Event} (hevent : ∀ peer, event ≠ .register id peer) :
    ∃ reports, (reports = (intake.holding id).reports ∨
        (event = .closed id ∨ event = .exited id) ∧ reports = []) ∧
      (intake.follow event).holding id = { intake.holding id with reports } := by
  have hdetached (other : ClientId) : ∃ reports, (reports = (intake.holding id).reports ∨
        other = id ∧ reports = []) ∧
      (intake.detach other).holding id = { intake.holding id with reports } := by
    by_cases hid : other = id
    · subst hid
      obtain ⟨reports, hreports, hholding⟩ := @holding_detach intake other
      exact ⟨reports, hreports.imp_right fun hnil => ⟨rfl, hnil⟩, hholding⟩
    · exact ⟨_, Or.inl rfl, holding_detach_of_ne hid⟩
  cases event with
  | register other peer =>
    exact ⟨_, Or.inl rfl, holding_attach_of_ne fun heq => hevent peer (heq ▸ rfl)⟩
  | closed other | exited other => simpa [follow] using hdetached other
  | line | shutdown => exact ⟨_, Or.inl rfl, rfl⟩

theorem eq_of_enqueue {queue : SharedQueue} {envelope : Envelope}
    (h : enqueue queue envelope = .accepted intake') :
    intake' = addressed { queue with envelopes := queue.envelopes ++ [envelope] } := by
  unfold enqueue at h
  split at h
  next => cases h
  next => exact (Posting.accepted.inj h).symm

theorem holding_write (h : intake.write id line = .accepted intake')
    (hoffered : (intake.holding id).offered? = none) (hopen : .closed ∉ (intake.holding id).reports) :
    intake'.holding id =
      { intake.holding id with reports := (intake.holding id).reports ++ [.line line] } := by
  cases intake with
  | addressed queue =>
    obtain rfl := eq_of_enqueue h
    simp [holding]
  | sweep sweeper offered =>
    have hnone : offered[id]? = none := hoffered
    unfold write at h
    dsimp only at h
    rw [hnone] at h
    dsimp only at h
    split at h
    next hattached =>
      obtain rfl := Posting.accepted.inj h
      obtain ⟨feed, hfeed⟩ := Maps.mem_iff_exists.1 (ExtTreeMap.mem_iff_contains.2 hattached)
      have hended : feed.hasEnded = false := by
        simpa [holding, hfeed, Feed.reports] using hopen
      simp [holding, Sweeper.getElem?_update, hfeed, Feed.reports, Feed.push, hended]
    next => cases h

theorem holding_write_of_ne (h : intake.write id line = .accepted intake') (hne : id ≠ other) :
    intake'.holding other = intake.holding other := by
  cases intake with
  | addressed queue =>
    obtain rfl := eq_of_enqueue h
    simp [holding, reportsIn_cons_of_ne hne]
  | sweep sweeper offered =>
    unfold write at h
    dsimp only at h
    split at h
    next =>
      obtain rfl := Posting.accepted.inj h
      simp only [holding, Maps.getElem?_insert_of_ne hne]
    next =>
      split at h
      next =>
        obtain rfl := Posting.accepted.inj h
        simp only [holding, Sweeper.getElem?_update, if_neg hne]
      next => cases h

theorem holding_letGo (h : intake.letGo id = .accepted intake')
    (hopen : .closed ∉ (intake.holding id).reports) :
    ∃ reports, (reports = (intake.holding id).reports ∨
        reports = (intake.holding id).reports ++ [.closed]) ∧
      intake'.holding id = { intake.holding id with
        reports, offered? := (intake.holding id).offered?.map Feed.finish } := by
  cases intake with
  | addressed queue =>
    obtain rfl := eq_of_enqueue h
    exact ⟨_, Or.inr rfl, by simp [holding]⟩
  | sweep sweeper offered =>
    unfold letGo at h
    dsimp only at h
    split at h
    next feed hfeed =>
      obtain rfl := Posting.accepted.inj h
      exact ⟨_, Or.inl rfl, by simp [holding, hfeed]⟩
    next hnone =>
      obtain rfl := Posting.accepted.inj h
      cases hfeed : sweeper.feeds[id]? with
      | none => exact ⟨_, Or.inl rfl, by simp [holding, Sweeper.getElem?_update, hfeed, hnone]⟩
      | some feed =>
        have hended : feed.hasEnded = false := by
          simpa [holding, hfeed, Feed.reports] using hopen
        refine ⟨_, Or.inr rfl, ?_⟩
        simp [holding, Sweeper.getElem?_update, hfeed, hnone, Feed.reports, Feed.finish, hended]

theorem holding_letGo_of_ne (h : intake.letGo id = .accepted intake') (hne : id ≠ other) :
    intake'.holding other = intake.holding other := by
  cases intake with
  | addressed queue =>
    obtain rfl := eq_of_enqueue h
    simp [holding, reportsIn_cons_of_ne hne]
  | sweep sweeper offered =>
    unfold letGo at h
    dsimp only at h
    split at h
    next =>
      obtain rfl := Posting.accepted.inj h
      simp only [holding, Maps.getElem?_insert_of_ne hne]
    next =>
      obtain rfl := Posting.accepted.inj h
      simp only [holding, Sweeper.getElem?_update, if_neg hne]

/-- What a round has gathered of a client stays in front of what it has not. -/
theorem keeps_gather (h : intake.gather round = some (intake', round')) :
    (intake'.holding id).offered? = (intake.holding id).offered? ∧
      Keeps (reportsIn id round.batch ++ (intake.holding id).reports)
        (reportsIn id round'.batch ++ (intake'.holding id).reports) := by
  cases intake with
  | addressed queue =>
    cases round with
    | feeds tour => cases h
    | queue taken =>
      obtain ⟨capacity, envelopes⟩ := queue
      cases envelopes with
      | nil => cases h
      | cons envelope envelopes =>
        obtain ⟨rfl, rfl⟩ := Prod.mk.inj (Option.some.inj h)
        refine ⟨rfl, ?_⟩
        simp only [Round.batch, holding, ← reportsIn_append, List.append_assoc, List.singleton_append]
        exact .refl _
  | sweep sweeper offered =>
    cases round with
    | queue taken => cases h
    | feeds tour =>
      obtain ⟨⟨sweeper', tour'⟩, hproceed, hafter⟩ := Option.map_eq_some_iff.1 h
      obtain ⟨rfl, rfl⟩ := Prod.mk.inj hafter
      obtain ⟨visited, ahead, -, rfl, rfl⟩ := Sweeper.exists_of_proceed hproceed
      refine ⟨rfl, ?_⟩
      simp only [Round.batch, holding, Sweeper.getElem?_visit]
      by_cases hid : visited = id
      · subst hid
        rw [if_pos rfl]
        obtain hfeed | ⟨feed, hfeed⟩ := Option.eq_none_or_eq_some sweeper.feeds[visited]?
        · rw [Sweeper.reportsIn_batch_visit_of_none hfeed, hfeed]
          exact .refl _
        · rw [Sweeper.reportsIn_batch_visit hfeed, hfeed, Haul.batch, reportsIn_append]
          have hrest : Endings feed.drained.reports := Feed.endings_reports rfl
          exact Keeps.put_off (endings_reportsIn _) hrest
      · rw [if_neg hid, Sweeper.reportsIn_batch_visit_of_ne hid]
        exact .refl _

theorem holding_conclude (id : ClientId) : ∃ reports, (reports = (intake.holding id).reports ∨
      .closed ∈ reportsIn id round.batch ∧ reports = []) ∧
    (intake.conclude round).holding id = { intake.holding id with reports } := by
  cases intake with
  | addressed queue => exact ⟨_, Or.inl rfl, rfl⟩
  | sweep sweeper offered =>
    cases round with
    | queue taken => exact ⟨_, Or.inl rfl, rfl⟩
    | feeds tour =>
      by_cases hended : id ∈ tour.haul.ended
      · have hclosed : .closed ∈ reportsIn id (Round.feeds tour).batch := by
          rw [Round.batch, Haul.batch, reportsIn_append]
          exact List.mem_append_right _ (closed_mem_reportsIn hended)
        refine ⟨[], Or.inr ⟨hclosed, rfl⟩, ?_⟩
        simp [conclude, Sweeper.conclude, holding, Sweeper.getElem?_foldl_detach, hended]
      · refine ⟨_, Or.inl rfl, ?_⟩
        simp [conclude, Sweeper.conclude, holding, Sweeper.getElem?_foldl_detach, hended]

end Intake

def Round.mode : Round → IntakeMode
  | queue _ => .addressed
  | feeds _ => .sweep

/-- The round has yet to come to what the client may have reported. -/
def Round.WillVisit (id : ClientId) : Round → Prop
  | queue _ => True
  | feeds tour => id ∈ tour.ahead

/-- A round that leaves nothing of a client behind, unless there is something new. -/
def Round.Empties (round : Round) (id : ClientId) (holding : Holding) : Prop :=
  round.mode = holding.mode ∧ (round.WillVisit id ∨ Endings holding.reports)

namespace Intake

variable {intake intake' : Intake} {id : ClientId} {round round' : Round}

theorem reportsIn_of_begins (h : intake.Begins round) (id : ClientId) :
    reportsIn id round.batch = [] := by
  cases intake with
  | addressed queue =>
    cases round with
    | feeds tour => cases h
    | queue taken =>
      obtain rfl : taken = [] := h
      rfl
  | sweep sweeper offered =>
    cases round with
    | queue taken => cases h
    | feeds tour =>
      rw [Round.batch, h.1]
      rfl

theorem empties_of_begins (h : intake.Begins round) (id : ClientId) :
    round.Empties id (intake.holding id) := by
  cases intake with
  | addressed queue =>
    cases round with
    | feeds tour => cases h
    | queue taken => exact ⟨rfl, Or.inl trivial⟩
  | sweep sweeper offered =>
    cases round with
    | queue taken => cases h
    | feeds tour =>
      refine ⟨rfl, ?_⟩
      cases hfeed : sweeper.feeds[id]? with
      | none => exact Or.inr (by simp [holding, hfeed, Endings])
      | some feed => exact Or.inl (Sweeper.Begins.mem_ahead h hfeed)

theorem empties_gather (h : round.Empties id (intake.holding id))
    (hgather : intake.gather round = some (intake', round')) :
    round'.Empties id (intake'.holding id) := by
  obtain ⟨hmode, hempties⟩ := h
  cases intake with
  | addressed queue =>
    cases round with
    | feeds tour => cases hmode
    | queue taken =>
      obtain ⟨capacity, envelopes⟩ := queue
      cases envelopes with
      | nil => cases hgather
      | cons envelope envelopes =>
        obtain ⟨rfl, rfl⟩ := Prod.mk.inj (Option.some.inj hgather)
        exact ⟨rfl, Or.inl trivial⟩
  | sweep sweeper offered =>
    cases round with
    | queue taken => cases hmode
    | feeds tour =>
      obtain ⟨⟨sweeper', tour'⟩, hproceed, hafter⟩ := Option.map_eq_some_iff.1 hgather
      obtain ⟨rfl, rfl⟩ := Prod.mk.inj hafter
      obtain ⟨visited, ahead, hahead, rfl, rfl⟩ := Sweeper.exists_of_proceed hproceed
      refine ⟨rfl, ?_⟩
      simp only [holding, Sweeper.getElem?_visit]
      by_cases hid : visited = id
      · refine Or.inr ?_
        rw [if_pos hid]
        cases sweeper.feeds[id]? with
        | none => exact endings_iff_textsOf.2 rfl
        | some feed => exact Feed.endings_reports rfl
      · rw [if_neg hid]
        refine hempties.imp_left fun hvisit => ?_
        rw [Round.WillVisit, hahead] at hvisit
        exact (List.mem_cons.1 hvisit).resolve_left (Ne.symm hid)

theorem endings_of_empties (h : round.Empties id (intake.holding id))
    (hend : intake.gather round = none) : Endings (intake.holding id).reports := by
  obtain ⟨hmode, hvisit | hendings⟩ := h
  · cases intake with
    | addressed queue =>
      cases round with
      | feeds tour => cases hmode
      | queue taken =>
        obtain ⟨capacity, envelopes⟩ := queue
        cases envelopes with
        | nil => exact fun report hmem => absurd hmem List.not_mem_nil
        | cons envelope envelopes => cases hend
    | sweep sweeper offered =>
      cases round with
      | queue taken => cases hmode
      | feeds tour =>
        have hahead := Sweeper.proceed_eq_none.1 (Option.map_eq_none_iff.1 hend)
        rw [Round.WillVisit, hahead] at hvisit
        cases hvisit
  · exact hendings

end Intake

end ChatRooms
