import ChatRooms.Proofs.Intake.Conduit

namespace ChatRooms.Conduit

variable {id : ClientId} {conduit conduit' : Conduit} {batch : List Envelope} {farewell : Farewell}

theorem ByOthers.same (h : ByOthers id conduit conduit') : conduit'.round = conduit.round ∧
    conduit'.batches = conduit.batches ∧ conduit'.due = conduit.due ∧
      conduit'.uplink = conduit.uplink := by
  cases h <;> exact ⟨rfl, rfl, rfl, rfl⟩

theorem ByHub.same (h : ByHub conduit conduit') :
    conduit'.due = conduit.due ∧ conduit'.uplink = conduit.uplink := by
  cases h <;> exact ⟨rfl, rfl⟩

theorem ByUplink.same (h : ByUplink id conduit conduit') :
    conduit'.round = conduit.round ∧ conduit'.batches = conduit.batches := by
  cases h <;> exact ⟨rfl, rfl⟩

/-- Until it has ended an uplink adds one report after another to what is due, if any. -/
theorem ByUplink.due_cases (h : ByUplink id conduit conduit') : conduit'.due = conduit.due ∨
    conduit.uplink.farewell? = none ∧ ∃ report, conduit'.due = conduit.due ++ [report] := by
  cases h with
  | offer huplink | attach _ _ huplink | close huplink | wait _ huplink _ | abandon huplink
  | dropCrowded _ huplink _ | dropUnheard _ huplink | dropSpent huplink =>
    left
    rw [due, due, huplink]
    rfl
  | detach hfree hreported => exact Or.inl rfl
  | @forward line intake hopen huplink hwrite =>
    refine Or.inr ⟨by rw [huplink]; rfl, .line line, ?_⟩
    simp [due, huplink, Uplink.isHeard, Uplink.farewell?]
  | complete hopen huplink hletGo =>
    refine Or.inr ⟨by rcases huplink with huplink | huplink <;> rw [huplink] <;> rfl, .closed, ?_⟩
    rcases huplink with huplink | huplink <;>
      simp [due, huplink, Uplink.isHeard, Uplink.farewell?, Farewell.isHeard]
  | completeUnheard hgone huplink =>
    left
    rcases huplink with huplink | huplink <;> rw [due, due, huplink] <;> rfl
  | drop hopen huplink hletGo =>
    refine Or.inr ⟨by rw [huplink]; rfl, .closed, ?_⟩
    simp [due, huplink, Uplink.isHeard, Uplink.farewell?, Farewell.isHeard]

theorem ByUplink.keeps_farewell (h : ByUplink id conduit conduit')
    (hfarewell : conduit.uplink.farewell? = some farewell) :
    conduit'.uplink.farewell? = some farewell := by
  cases h with
  | detach hfree hreported | forward hopen huplink hwrite => exact hfarewell
  | dropSpent huplink =>
    rw [huplink] at hfarewell
    exact hfarewell
  | offer huplink | attach _ _ huplink | close huplink | wait _ huplink _ | abandon huplink
  | drop _ huplink _ | dropCrowded _ huplink _ | dropUnheard _ huplink =>
    rw [huplink] at hfarewell
    cases hfarewell
  | complete _ huplink _ | completeUnheard _ huplink =>
    rcases huplink with huplink | huplink <;> rw [huplink] at hfarewell <;> cases hfarewell

theorem Step.due_grows (h : Step id conduit conduit') : conduit.due <+: conduit'.due := by
  rcases h with hothers | hhub | huplink
  · exact hothers.same.2.2.1 ▸ List.prefix_rfl
  · exact hhub.same.1 ▸ List.prefix_rfl
  · rcases huplink.due_cases with hsame | ⟨-, report, hmore⟩
    · exact hsame ▸ List.prefix_rfl
    · exact hmore ▸ List.prefix_append _ _

theorem Step.of_farewell (h : Step id conduit conduit')
    (hfarewell : conduit.uplink.farewell? = some farewell) :
    conduit'.uplink.farewell? = some farewell ∧ conduit'.due = conduit.due := by
  rcases h with hothers | hhub | huplink
  · obtain ⟨-, -, hdue, huplink⟩ := hothers.same
    exact ⟨huplink ▸ hfarewell, hdue⟩
  · exact ⟨hhub.same.2 ▸ hfarewell, hhub.same.1⟩
  · refine ⟨huplink.keeps_farewell hfarewell, huplink.due_cases.resolve_right fun hmore => ?_⟩
    cases hfarewell.symm.trans hmore.1

theorem Leads.due_of_farewell (h : Leads id conduit conduit')
    (hfarewell : conduit.uplink.farewell? = some farewell) : conduit'.due = conduit.due := by
  suffices hboth : conduit'.uplink.farewell? = some farewell ∧ conduit'.due = conduit.due from hboth.2
  induction h with
  | refl => exact ⟨hfarewell, rfl⟩
  | tail _ hstep ih =>
    obtain ⟨hafter, hdue⟩ := hstep.of_farewell ih.1
    exact ⟨hafter, hdue.trans ih.2⟩

theorem Reached.leads (h : Reached id conduit) (hleads : Leads id conduit conduit') :
    Reached id conduit' := by
  induction hleads with
  | refl => exact h
  | tail _ hstep ih => exact ih.step hstep

/-- What the round under way will yield of the client, together with what the hub has got, is all of
`reports` at least. -/
def Covers (id : ClientId) (reports : List Report) (conduit : Conduit) : Prop :=
  conduit.WillVisit id ∨ ∃ round, conduit.round = some round ∧
    reports <+: conduit.reported id ++ reportsIn id round.batch

theorem Covers.of_begins {round : Round} {intake : Intake} {reports : List Report}
    (hbegins : conduit.intake.Begins round)
    (hsound : Sound id { conduit with intake, round := some round })
    (hheld : (intake.holding id).reports = (conduit.intake.holding id).reports)
    (hreports : reports <+: conduit.due) :
    Covers id reports { conduit with intake, round := some round } := by
  rcases @Intake.willVisit_of_begins conduit.intake id round hbegins with hvisit | hempty
  · left
    rintro _ ⟨⟩
    exact hvisit
  · refine Or.inr ⟨round, rfl, hreports.trans ?_⟩
    have haccount := hsound.account
    dsimp only at haccount
    rw [hheld, hempty, List.append_nil] at haccount
    rw [Round.reportsIn_batch, ← List.append_assoc]
    exact haccount ▸ List.prefix_append _ _

/-- Whatever is left of a client after a visit is an ending, and that is noted. -/
theorem Sound.due_of_visited {round : Round} (h : Sound id conduit)
    (hround : conduit.round = some round)
    (hnoted : round.noted id = (conduit.intake.holding id).reports) :
    conduit.reported id ++ reportsIn id round.batch = conduit.due := by
  have haccount := h.account
  rw [taken, hround, ← hnoted, List.append_assoc] at haccount
  rw [Round.reportsIn_batch]
  exact haccount

/-- A round that is going to visit the client goes on to do so, until it has done so. -/
theorem Covers.byHub {reports : List Report} (h : Covers id reports conduit)
    (hsound : Sound id conduit) (hreports : reports <+: conduit.due)
    (hstep : ByHub conduit conduit') :
    conduit'.batches = conduit.batches ∧ Covers id reports conduit' ∨
      ∃ batch, conduit'.batches = conduit.batches ++ [batch] ∧ reports <+: conduit'.reported id := by
  have hafter := hsound.byHub hstep
  cases hstep with
  | answer hopen hfree hannounced hbegins =>
    exact Or.inl ⟨rfl, .of_begins hbegins hafter (by rw [Intake.holding_hush]) hreports⟩
  | drain hopen hfree hbegins => exact Or.inl ⟨rfl, .of_begins hbegins hafter rfl hreports⟩
  | @gather round round' intake hround hgather =>
    have hprogress := Intake.Progress.of_gather (hsound.fits round hround) hgather
    refine Or.inl ⟨rfl, ?_⟩
    by_cases hvisit : round.WillVisit id
    · rcases hprogress.visited hvisit with hstill | hnoted
      · left
        rintro _ ⟨⟩
        exact hstill
      · have hdue := hafter.due_of_visited rfl hnoted
        exact Or.inr ⟨round', rfl, hdue ▸ hreports⟩
    · obtain ⟨found, hfound, hcovered⟩ := h.resolve_left fun hwill => hvisit (hwill round hround)
      obtain rfl := Option.some.inj (hround.symm.trans hfound)
      exact Or.inr ⟨round', rfl, (hprogress.passed hvisit).1 ▸ hcovered⟩
  | @conclude round hround hend =>
    refine Or.inr ⟨round.batch, rfl, ?_⟩
    rw [reported_conclude]
    rcases h with hwill | ⟨found, hfound, hcovered⟩
    · have hnoted := Intake.noted_of_end (hsound.fits round hround) hend (hwill round hround)
      exact hsound.due_of_visited hround hnoted ▸ hreports
    · obtain rfl := Option.some.inj (hround.symm.trans hfound)
      exact hcovered
  | leave hfree => exact Or.inl ⟨rfl, h⟩

theorem Covers.step {reports : List Report} (h : Covers id reports conduit)
    (hsound : Sound id conduit) (hreports : reports <+: conduit.due)
    (hstep : Step id conduit conduit') :
    conduit'.batches = conduit.batches ∧ Covers id reports conduit' ∨
      ∃ batch, conduit'.batches = conduit.batches ++ [batch] ∧ reports <+: conduit'.reported id := by
  have hsame (hround : conduit'.round = conduit.round)
      (hbatches : conduit'.batches = conduit.batches) :
      conduit'.batches = conduit.batches ∧ Covers id reports conduit' := by
    refine ⟨hbatches, ?_⟩
    rw [Covers, WillVisit, reported, hround, hbatches]
    exact h
  rcases hstep with hothers | hhub | huplink
  · exact Or.inl (hsame hothers.same.1 hothers.same.2.1)
  · exact h.byHub hsound hreports hhub
  · exact Or.inl (hsame huplink.same.1 huplink.same.2)

theorem Step.batches_grow (h : Step id conduit conduit') : conduit.batches <+: conduit'.batches := by
  rcases h with hothers | hhub | huplink
  · exact hothers.same.2.1 ▸ List.prefix_rfl
  · cases hhub with
    | conclude hround hend => exact List.prefix_append _ _
    | answer | drain | gather | leave => exact List.prefix_rfl
  · exact huplink.same.2 ▸ List.prefix_rfl

/-- As long as no round has ended, the one that comes to the client has yet to begin or to end. -/
theorem Leads.covers {later : Conduit} (h : Reached id conduit) (hwill : conduit.WillVisit id)
    (hleads : Leads id conduit later) :
    (conduit.due <+: later.due ∧ later.batches = conduit.batches ∧ Covers id conduit.due later) ∨
      ∃ batch, conduit.batches ++ [batch] <+: later.batches ∧
        conduit.due <+: reportsIn id (conduit.batches ++ [batch]).flatten := by
  induction hleads with
  | refl => exact Or.inl ⟨List.prefix_rfl, rfl, Or.inl hwill⟩
  | @tail before after hleads hstep ih =>
    rcases ih with ⟨hdue, hbatches, hcovers⟩ | ⟨batch, hbatch, hyields⟩
    · rcases hcovers.step (h.leads hleads).sound hdue hstep with ⟨hsame, hafter⟩ | ⟨batch, hnew, hyields⟩
      · exact Or.inl ⟨hdue.trans hstep.due_grows, hsame.trans hbatches, hafter⟩
      · rw [hbatches] at hnew
        rw [reported, hnew] at hyields
        exact Or.inr ⟨batch, hnew ▸ List.prefix_rfl, hyields⟩
    · exact Or.inr ⟨batch, hbatch.trans hstep.batches_grow, hyields⟩

/-- The first round that comes to the client from now on yields all that is due by now. -/
theorem Leads.yields {later : Conduit} (h : Reached id conduit) (hwill : conduit.WillVisit id)
    (hleads : Leads id conduit later) (hbatch : conduit.batches ++ [batch] <+: later.batches) :
    conduit.due <+: reportsIn id (conduit.batches ++ [batch]).flatten := by
  rcases hleads.covers h hwill with ⟨-, hbatches, -⟩ | ⟨first, hfirst, hyields⟩
  · have hlength := hbatch.length_le
    rw [hbatches, List.length_append, List.length_singleton] at hlength
    exact absurd hlength (Nat.not_succ_le_self _)
  · have hsame : conduit.batches ++ [first] = conduit.batches ++ [batch] := by
      have hboth := List.prefix_of_prefix_length_le hfirst hbatch (by simp)
      exact hboth.eq_of_length (by simp)
    exact hsame ▸ hyields

theorem Reached.reported_within_due (h : Reached id conduit) : conduit.reported id <+: conduit.due := by
  rw [← h.sound.account, List.append_assoc]
  exact List.prefix_append _ _

theorem leads_gathers {before after : Intake × Round} (hgathers : Intake.Gathers before after)
    (hintake : conduit.intake = before.1) (hround : conduit.round = some before.2) :
    Leads id conduit { conduit with intake := after.1, round := some after.2 } := by
  induction hgathers with
  | refl =>
    rw [← hintake, ← hround]
  | tail _ hgather ih => exact ih.tail (.hub (.gather rfl hgather))

theorem leads_drain (hopen : conduit.isOpen = true) (hfree : conduit.round = none) :
    Leads id conduit { conduit with
      intake := conduit.intake.drain.1
      batches := conduit.batches ++ [conduit.intake.drain.2] } := by
  obtain ⟨first, last, gathered, hbegins, hgathers, hend, hdrain⟩ := conduit.intake.exists_gathers_drain
  have hbegun : Leads id conduit { conduit with round := some first } :=
    .single (.hub (.drain hopen hfree hbegins))
  have hgathered := hbegun.trans (leads_gathers hgathers rfl rfl)
  rw [hdrain, hfree]
  exact hgathered.tail (.hub (.conclude rfl hend))

theorem leads_forward {line : String} {intake : Intake} (hopen : conduit.isOpen = true)
    (huplink : conduit.uplink = .held) (h : conduit.intake.forward id line = .accepted intake) :
    Leads id conduit { conduit with intake, forwarded := conduit.forwarded ++ [line] } := by
  rw [Intake.forward_eq_map_ring] at h
  obtain ⟨written, hwrite, rfl⟩ := Intake.exists_of_map_ring h
  have hwritten : Leads id conduit { conduit with
      intake := written, forwarded := conduit.forwarded ++ [line] } :=
    .single (.uplink (.forward hopen huplink hwrite))
  exact hwritten.tail (.others .ring)

theorem leads_close {intake : Intake} (hopen : conduit.isOpen = true)
    (huplink : conduit.uplink = .held) (h : conduit.intake.close id = .accepted intake) :
    Leads id conduit { conduit with intake, uplink := .gone .closed } := by
  rw [Intake.close_eq_map_ring] at h
  obtain ⟨put, hletGo, rfl⟩ := Intake.exists_of_map_ring h
  have hclosing : Leads id conduit { conduit with uplink := .closing } :=
    .single (.uplink (.close huplink))
  have hput := hclosing.tail (.uplink (.complete hopen (Or.inl rfl) hletGo))
  have hrung := hput.tail (.others .ring)
  exact hrung.tail (.uplink (.dropSpent rfl))

/-- An uplink that is dropped without a word. Its end is lost only for want of a place. -/
theorem leads_abandon (hopen : conduit.isOpen = true) (huplink : conduit.uplink = .held) :
    ∃ farewell, (farewell = .dropped ∨ farewell = .lost ∧ conduit.intake.letGo id = .full) ∧
      Leads id conduit { conduit with
        intake := conduit.intake.abandon id, uplink := .gone farewell } := by
  rw [Intake.abandon, Intake.close_eq_map_ring]
  rcases conduit.intake.letGo_cases id with ⟨put, hletGo⟩ | ⟨hfull, -⟩
  · have hdropped : Leads id conduit { conduit with intake := put, uplink := .gone .dropped } :=
      .single (.uplink (.drop hopen huplink hletGo))
    rw [hletGo]
    exact ⟨.dropped, Or.inl rfl, hdropped.tail (.others .ring)⟩
  · have hlost : Leads id conduit { conduit with uplink := .gone .lost } :=
      .single (.uplink (.dropCrowded hopen huplink (Or.inl hfull)))
    rw [hfull]
    exact ⟨.lost, Or.inr ⟨rfl, rfl⟩, hlost⟩

theorem Reached.reported_drain (h : Reached id conduit) (hopen : conduit.isOpen = true)
    (hfree : conduit.round = none) :
    conduit.reported id ++ reportsIn id conduit.intake.drain.2 = conduit.due := by
  have hleads := @leads_drain id conduit hopen hfree
  have hwill : conduit.WillVisit id := by
    intro round hround
    rw [hfree] at hround
    cases hround
  have hdue : conduit.due <+: reportsIn id (conduit.batches ++ [conduit.intake.drain.2]).flatten :=
    hleads.yields h hwill List.prefix_rfl
  have hgot := (h.leads hleads).reported_within_due
  rw [reported, ← List.flatten_singleton (l := conduit.intake.drain.2), ← reportsIn_append,
    ← List.flatten_append]
  exact List.IsPrefix.eq_of_length_le hgot hdue.length_le

theorem reportsIn_flatten_grows {batches more : List (List Envelope)} (h : batches <+: more) :
    reportsIn id batches.flatten <+: reportsIn id more.flatten := by
  obtain ⟨rest, rfl⟩ := h
  rw [List.flatten_append, reportsIn_append]
  exact List.prefix_append _ _

/-- A round that comes to an uplink after its end is the last that has anything of it. -/
theorem Leads.reported_of_farewell {later : Conduit} (h : Reached id conduit)
    (hfarewell : conduit.uplink.farewell? = some farewell) (hwill : conduit.WillVisit id)
    (hleads : Leads id conduit later) (hbatch : conduit.batches ++ [batch] <+: later.batches) :
    reportsIn id (conduit.batches ++ [batch]).flatten = conduit.due ∧
      later.reported id = conduit.due := by
  have hdue := hleads.yields h hwill hbatch
  have hgot := (h.leads hleads).reported_within_due
  rw [hleads.due_of_farewell hfarewell] at hgot
  have hbefore : reportsIn id (conduit.batches ++ [batch]).flatten <+: later.reported id :=
    reportsIn_flatten_grows hbatch
  have hfull := (hdue.trans hbefore).eq_of_length_le hgot.length_le
  refine ⟨?_, hfull.symm⟩
  exact (hdue.eq_of_length_le (hfull ▸ hbefore.length_le)).symm

/-- The hub gets the lines in their order, then at most one ending and nothing more. Draining the
intake yields what is missing, and so does the first round that comes to the client, whatever happens
meanwhile; if its uplink has ended, that is the last of it. The uplink is visited until its ending has
been reported, and an ending is lost only for want of a place in the shared queue or of a hub. -/
theorem Reached.reports_in_full (h : Reached id conduit) :
    conduit.reported id <+: conduit.due ∧
    (conduit.isOpen = true → conduit.round = none →
      conduit.reported id ++ reportsIn id conduit.intake.drain.2 = conduit.due) ∧
    (∀ (later : Conduit) (batch : List Envelope), Leads id conduit later → conduit.WillVisit id →
      conduit.batches ++ [batch] <+: later.batches →
        conduit.due <+: reportsIn id (conduit.batches ++ [batch]).flatten ∧
        ∀ farewell, conduit.uplink.farewell? = some farewell →
          reportsIn id (conduit.batches ++ [batch]).flatten =
              conduit.forwarded.map .line ++ (if farewell.isHeard then [.closed] else []) ∧
            later.reported id = reportsIn id (conduit.batches ++ [batch]).flatten) ∧
    (conduit.uplink.isAttached = true → (conduit.intake.Visits id ↔
      conduit.intake.mode = .sweep ∧ .closed ∉ conduit.reported id)) ∧
    ∀ farewell, conduit.uplink.farewell? = some farewell →
      farewell.Excused conduit.intake.mode conduit.isOpen := by
  refine ⟨h.reported_within_due, h.reported_drain, fun later batch hleads hwill hbatch => ?_,
    fun hattached => (h.sound.attached hattached).2, fun farewell hfarewell => ?_⟩
  · refine ⟨hleads.yields h hwill hbatch, fun farewell hfarewell => ?_⟩
    obtain ⟨hyielded, hlater⟩ := hleads.reported_of_farewell h hfarewell hwill hbatch
    refine ⟨?_, hlater.trans hyielded.symm⟩
    rw [hyielded, due, Uplink.isHeard, hfarewell, Option.any_some]
  · exact h.sound.excused.of_farewell hfarewell

set_option maxRecDepth 20000 in
/-- A closing that has waited for a place in the shared queue, and an uplink that is dropped while a
sweep under way has already been to its feed. -/
theorem reports_in_full_after_wait_and_visit :
    (∃ conduit : Conduit, Reached 7 conduit ∧ conduit.uplink = .gone .closed ∧
      conduit.reported 7 = [.line "hi"] ∧ reportsIn 7 conduit.intake.drain.2 = [.closed]) ∧
    ∃ conduit : Conduit, Reached 7 conduit ∧ conduit.uplink = .gone .dropped ∧
      conduit.intake.mode = .sweep ∧ conduit.reported 7 = [.line "hi"] ∧
      reportsIn 7 conduit.intake.drain.2 = [.closed] := by
  constructor
  · have h₁ : Reached 7 _ := .start (show Intake.new .addressed 1 = .ok _ from rfl)
    have h₂ := h₁.step (.uplink (.offer rfl))
    have h₃ := h₂.step (.uplink (.attach rfl rfl rfl))
    have h₄ := h₃.step (.uplink (@ByUplink.forward _ _ "hi" _ rfl rfl rfl))
    have h₅ := h₄.step (.uplink (.close rfl))
    have h₆ := h₅.step (.uplink (.wait rfl rfl (Or.inl rfl)))
    have h₇ := h₆.leads (leads_drain rfl rfl)
    have h₈ := h₇.step (.uplink (.complete rfl (Or.inr rfl) rfl))
    have h₉ := h₈.step (.uplink (.dropSpent rfl))
    have hdrain := h₉.reports_in_full.2.1 rfl rfl
    exact ⟨_, h₉, rfl, rfl, List.append_cancel_left hdrain⟩
  · have h₁ : Reached 7 _ := .start (show Intake.new .sweep 1 = .ok _ from rfl)
    have h₂ := h₁.step (.uplink (.offer rfl))
    have h₃ := h₂.step (.uplink (.attach rfl rfl rfl))
    have h₄ := h₃.step (.uplink (@ByUplink.forward _ _ "hi" _ rfl rfl rfl))
    have h₅ := h₄.step (.hub (@ByHub.drain _ (.feeds { ahead := [7] }) rfl rfl ⟨rfl, by decide⟩))
    have h₆ := h₅.step (.hub (.gather rfl rfl))
    have h₇ := h₆.step (.uplink (.drop rfl rfl rfl))
    have h₈ := h₇.step (.hub (.conclude rfl rfl))
    have hdrain := h₈.reports_in_full.2.1 rfl rfl
    exact ⟨_, h₈, rfl, rfl, rfl, List.append_cancel_left hdrain⟩

end ChatRooms.Conduit
