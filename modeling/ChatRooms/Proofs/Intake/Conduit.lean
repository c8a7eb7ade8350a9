import ChatRooms.Proofs.Intake.Rounds

namespace ChatRooms

/-- How an uplink has come to its end. -/
inductive Farewell where
  /-- The closing was put where the hub finds it. -/
  | closed
  /-- The closing was given up while it waited for a place. -/
  | abandoned
  /-- The uplink was dropped before it was closed, and its end put where the hub finds it. -/
  | dropped
  /-- The uplink was dropped when there was no place. -/
  | lost
  /-- There was no hub any more. -/
  | unheard
  deriving DecidableEq, Repr

def Farewell.isHeard : Farewell → Bool
  | closed | dropped => true
  | abandoned | lost | unheard => false

/-- Why the hub has not been told: there was no place in the shared queue, or no hub. -/
def Farewell.Excused (mode : IntakeMode) (isOpen : Bool) : Farewell → Prop
  | closed | dropped => True
  | abandoned | lost => mode = .addressed
  | unheard => isOpen = false

/-- How far the life of an uplink has come. -/
inductive Uplink where
  | unborn
  /-- The hub does not visit it yet, and the worker does not use it. -/
  | offered
  | held
  /-- The worker's end has been taken, and its closing has yet to be put anywhere. -/
  | closing
  /-- The closing has found no place. -/
  | waiting
  /-- Closing is over, and the uplink has yet to be dropped. -/
  | spent (farewell : Farewell)
  | gone (farewell : Farewell)
  deriving DecidableEq, Repr

namespace Uplink

def farewell? : Uplink → Option Farewell
  | spent farewell | gone farewell => some farewell
  | _ => none

def isHeard (uplink : Uplink) : Bool :=
  uplink.farewell?.any Farewell.isHeard

def isAttached : Uplink → Bool
  | unborn | offered => false
  | _ => true

def Excused (mode : IntakeMode) (isOpen : Bool) : Uplink → Prop
  | waiting => mode = .addressed
  | spent farewell | gone farewell => farewell.Excused mode isOpen
  | _ => True

end Uplink

namespace Uplink.Excused

variable {uplink : Uplink} {mode : IntakeMode} {isOpen : Bool}

theorem of_gone (h : uplink.Excused mode isOpen) : uplink.Excused mode false := by
  cases uplink with
  | spent farewell | gone farewell => cases farewell <;> first | exact h | rfl
  | unborn | offered | held | closing | waiting => exact h

theorem of_farewell {farewell : Farewell} (h : uplink.Excused mode isOpen)
    (hfarewell : uplink.farewell? = some farewell) : farewell.Excused mode isOpen := by
  cases uplink with
  | spent found | gone found =>
    obtain rfl : found = farewell := Option.some.inj hfarewell
    exact h
  | unborn | offered | held | closing | waiting => cases hfarewell

end Uplink.Excused

/-- What may happen to the intake at any time, by others. -/
inductive Intake.Traffic (intake : Intake) (other : ClientId) : Intake → Prop where
  | offer : Traffic intake other (intake.offer other)
  | withdraw : Traffic intake other (intake.withdraw other)
  | write {intake' : Intake} (line : String) (h : intake.write other line = .accepted intake') :
      Traffic intake other intake'
  | letGo {intake' : Intake} (h : intake.letGo other = .accepted intake') :
      Traffic intake other intake'

namespace Intake

variable {intake intake' : Intake} {id other : ClientId}

theorem Traffic.holding_of_ne (h : intake.Traffic other intake') (hne : other ≠ id) :
    intake'.holding id = intake.holding id := by
  cases h with
  | offer => exact holding_offer_of_ne hne
  | withdraw => exact holding_withdraw_of_ne hne
  | write line h => exact holding_write_of_ne h hne
  | letGo h => exact holding_letGo_of_ne h hne

theorem Traffic.visits (h : intake.Traffic other intake') : intake'.Visits id ↔ intake.Visits id := by
  cases h with
  | offer | withdraw => cases intake <;> exact Iff.rfl
  | write line h => exact visits_write h
  | letGo h => exact visits_letGo h

end Intake

/-- An intake, seen from one uplink that leads to it. -/
structure Conduit where
  intake : Intake
  /-- There is somebody who takes what is put into the intake. -/
  isOpen : Bool := true
  round : Option Round := none
  /-- Others who wait for a place. -/
  waiters : List ClientId := []
  uplink : Uplink := .unborn
  /-- The lines that the worker has put there. -/
  forwarded : List String := []
  /-- What the hub has got, one round after another. A sweep may have found nothing. -/
  batches : List (List Envelope) := []

namespace Conduit

/-- What the hub has got from the client. -/
def reported (id : ClientId) (conduit : Conduit) : List Report :=
  reportsIn id conduit.batches.flatten

/-- What the hub is to get from the client. -/
def due (conduit : Conduit) : List Report :=
  conduit.forwarded.map .line ++ if conduit.uplink.isHeard then [.closed] else []

/-- No place is free: the queue is full, or whoever waits there gets the next place. -/
def IsCrowded (conduit : Conduit) (id : ClientId) : Prop :=
  conduit.intake.letGo id = .full ∨
    conduit.intake.mode = .addressed ∧ conduit.waiters ≠ []

/-- The round under way, if there is one, has yet to come to what the client may have reported. -/
def WillVisit (conduit : Conduit) (id : ClientId) : Prop :=
  ∀ round, conduit.round = some round → round.WillVisit id

/-- What others do, and what the hub does for them. -/
inductive ByOthers (id : ClientId) (conduit : Conduit) : Conduit → Prop where
  | traffic {other : ClientId} {intake : Intake} (hne : other ≠ id)
      (htraffic : conduit.intake.Traffic other intake) : ByOthers id conduit { conduit with intake }
  /-- Anybody may ring, also the client's own worker. -/
  | ring : ByOthers id conduit { conduit with intake := conduit.intake.ring }
  | queueUp {other : ClientId} (hne : other ≠ id) (hcrowded : conduit.IsCrowded other) :
      ByOthers id conduit { conduit with waiters := other :: conduit.waiters }
  /-- Whoever waits has got a place, or has given up. -/
  | stopWaiting (other : ClientId) :
      ByOthers id conduit { conduit with waiters := conduit.waiters.erase other }
  | attach {other : ClientId} (hne : other ≠ id) (hfree : conduit.round = none) :
      ByOthers id conduit { conduit with intake := conduit.intake.attach other }
  | detach {other : ClientId} (hne : other ≠ id) (hfree : conduit.round = none) :
      ByOthers id conduit { conduit with intake := conduit.intake.detach other }

inductive ByHub (conduit : Conduit) : Conduit → Prop where
  | answer {round : Round} (hopen : conduit.isOpen = true) (hfree : conduit.round = none)
      (hannounced : conduit.intake.isAnnounced = true) (hbegins : conduit.intake.Begins round) :
      ByHub conduit { conduit with intake := conduit.intake.hush, round := some round }
  /-- The hub does not wait for an announcement. -/
  | drain {round : Round} (hopen : conduit.isOpen = true) (hfree : conduit.round = none)
      (hbegins : conduit.intake.Begins round) : ByHub conduit { conduit with round := some round }
  | gather {round round' : Round} {intake : Intake} (hround : conduit.round = some round)
      (hgather : conduit.intake.gather round = some (intake, round')) :
      ByHub conduit { conduit with intake, round := some round' }
  | conclude {round : Round} (hround : conduit.round = some round)
      (hend : conduit.intake.gather round = none) :
      ByHub conduit { conduit with
        intake := conduit.intake.conclude round
        round := none
        batches := conduit.batches ++ [round.batch] }
  | leave (hfree : conduit.round = none) : ByHub conduit { conduit with isOpen := false }

/-- The life of the uplink. It is attached before it is used, and detached after its end has been
reported, if at all. -/
inductive ByUplink (id : ClientId) (conduit : Conduit) : Conduit → Prop where
  | offer (huplink : conduit.uplink = .unborn) :
      ByUplink id conduit { conduit with intake := conduit.intake.offer id, uplink := .offered }
  | attach (hopen : conduit.isOpen = true) (hfree : conduit.round = none)
      (huplink : conduit.uplink = .offered) :
      ByUplink id conduit { conduit with intake := conduit.intake.attach id, uplink := .held }
  | detach (hfree : conduit.round = none) (hreported : .closed ∈ conduit.reported id) :
      ByUplink id conduit { conduit with intake := conduit.intake.detach id }
  | forward {line : String} {intake : Intake} (hopen : conduit.isOpen = true)
      (huplink : conduit.uplink = .held) (hwrite : conduit.intake.write id line = .accepted intake) :
      ByUplink id conduit { conduit with intake, forwarded := conduit.forwarded ++ [line] }
  | close (huplink : conduit.uplink = .held) :
      ByUplink id conduit { conduit with uplink := .closing }
  | wait (hopen : conduit.isOpen = true) (huplink : conduit.uplink = .closing)
      (hcrowded : conduit.IsCrowded id) : ByUplink id conduit { conduit with uplink := .waiting }
  | complete {intake : Intake} (hopen : conduit.isOpen = true)
      (huplink : conduit.uplink = .closing ∨ conduit.uplink = .waiting)
      (hletGo : conduit.intake.letGo id = .accepted intake) :
      ByUplink id conduit { conduit with intake, uplink := .spent .closed }
  | abandon (huplink : conduit.uplink = .waiting) :
      ByUplink id conduit { conduit with uplink := .spent .abandoned }
  | completeUnheard (hgone : conduit.isOpen = false)
      (huplink : conduit.uplink = .closing ∨ conduit.uplink = .waiting) :
      ByUplink id conduit { conduit with uplink := .spent .unheard }
  | drop {intake : Intake} (hopen : conduit.isOpen = true) (huplink : conduit.uplink = .held)
      (hletGo : conduit.intake.letGo id = .accepted intake) :
      ByUplink id conduit { conduit with intake, uplink := .gone .dropped }
  | dropCrowded (hopen : conduit.isOpen = true) (huplink : conduit.uplink = .held)
      (hcrowded : conduit.IsCrowded id) : ByUplink id conduit { conduit with uplink := .gone .lost }
  | dropUnheard (hgone : conduit.isOpen = false) (huplink : conduit.uplink = .held) :
      ByUplink id conduit { conduit with uplink := .gone .unheard }
  /-- The worker's end has been taken, so there is nothing to let go of. -/
  | dropSpent {farewell : Farewell} (huplink : conduit.uplink = .spent farewell) :
      ByUplink id conduit { conduit with uplink := .gone farewell }

inductive Step (id : ClientId) (conduit conduit' : Conduit) : Prop where
  | others (h : ByOthers id conduit conduit')
  | hub (h : ByHub conduit conduit')
  | uplink (h : ByUplink id conduit conduit')

inductive Reached (id : ClientId) : Conduit → Prop where
  | start {mode : IntakeMode} {capacity : Nat} {intake : Intake}
      (hnew : Intake.new mode capacity = .ok intake) : Reached id { intake }
  | step {conduit conduit' : Conduit} (before : Reached id conduit)
      (hstep : Step id conduit conduit') : Reached id conduit'

/-- What may become of it in time. -/
abbrev Leads (id : ClientId) : Conduit → Conduit → Prop :=
  Relation.ReflTransGen (Step id)

variable {id : ClientId} {conduit conduit' : Conduit}

def taken (id : ClientId) (conduit : Conduit) : List Report :=
  conduit.round.elim [] (Round.taken id)

theorem reported_conclude {intake : Intake} {batch : List Envelope} :
    reported id { conduit with intake, round := none, batches := conduit.batches ++ [batch] } =
      conduit.reported id ++ reportsIn id batch := by
  rw [reported, List.flatten_append, reportsIn_append, List.flatten_singleton, reported]

theorem mode_of_isCrowded (h : conduit.IsCrowded id) : conduit.intake.mode = .addressed := by
  rcases h with hfull | ⟨hmode, -⟩
  · rcases conduit.intake.letGo_cases id with ⟨intake, haccepted⟩ | ⟨-, hmode⟩
    · cases hfull.symm.trans haccepted
    · exact hmode
  · exact hmode

/-- What has been got, what has been gathered and what is still held are together what is due. -/
structure Sound (id : ClientId) (conduit : Conduit) : Prop where
  account : conduit.reported id ++ conduit.taken id ++ (conduit.intake.holding id).reports =
    conduit.due
  fits : ∀ round, conduit.round = some round → round.Fits id conduit.intake
  fresh : conduit.uplink.isAttached = false → conduit.forwarded = []
  offered : conduit.uplink = .offered → (conduit.intake.holding id).offered? =
    if conduit.intake.mode = .sweep then some {} else none
  attached : conduit.uplink.isAttached = true → (conduit.intake.holding id).offered? = none ∧
    (conduit.intake.Visits id ↔ conduit.intake.mode = .sweep ∧ .closed ∉ conduit.reported id)
  excused : conduit.uplink.Excused conduit.intake.mode conduit.isOpen

namespace Sound

theorem of_same {intake : Intake} {waiters : List ClientId} (h : Sound id conduit)
    (hholding : intake.holding id = conduit.intake.holding id)
    (hvisits : intake.Visits id ↔ conduit.intake.Visits id) :
    Sound id { conduit with intake, waiters } := by
  have hmode : intake.mode = conduit.intake.mode :=
    Intake.mode_eq_of_holding hholding rfl
  constructor <;> dsimp only
  · rw [hholding]
    exact h.account
  · exact fun round hround => (h.fits round hround).of_same hholding
  · exact h.fresh
  · rw [hholding, hmode]
    exact h.offered
  · rw [hholding, hvisits, hmode]
    exact h.attached
  · rw [hmode]
    exact h.excused

theorem of_uplink {uplink uplink' : Uplink} (h : Sound id conduit) (huplink : conduit.uplink = uplink)
    (hattached : uplink.isAttached = true) (hafter : uplink'.isAttached = true)
    (hheard : uplink'.isHeard = uplink.isHeard)
    (hexcused : uplink'.Excused conduit.intake.mode conduit.isOpen) :
    Sound id { conduit with uplink := uplink' } := by
  have hdue : due { conduit with uplink := uplink' } = conduit.due := by
    rw [due, due, hheard, huplink]
  refine ⟨h.account.trans hdue.symm, h.fits, fun hfresh => ?_, ?_, fun _ => h.attached ?_,
    hexcused⟩
  · exact absurd (hafter.symm.trans hfresh) (by decide)
  · rintro rfl
    cases hafter
  · rw [huplink, hattached]

theorem begin_round {round : Round} (h : Sound id conduit) (hfree : conduit.round = none)
    (hbegins : conduit.intake.Begins round) : Sound id { conduit with round := some round } := by
  have hnil := Intake.reportsIn_of_begins hbegins id
  rw [Round.reportsIn_batch, List.append_eq_nil_iff] at hnil
  refine ⟨?_, ?_, h.fresh, h.offered, h.attached, h.excused⟩
  · have haccount := h.account
    rw [taken, hfree] at haccount
    show _ ++ round.taken id ++ _ = _
    rw [hnil.1]
    exact haccount
  · rintro _ ⟨⟩
    exact Intake.fits_of_begins hbegins

theorem gather {intake : Intake} {round round' : Round} (h : Sound id conduit)
    (hround : conduit.round = some round)
    (hgather : conduit.intake.gather round = some (intake, round')) :
    Sound id { conduit with intake, round := some round' } := by
  have hprogress := Intake.Progress.of_gather (h.fits round hround) hgather
  have hoffered := (@Intake.keeps_gather _ _ id _ _ hgather).1
  have hmode : intake.mode = conduit.intake.mode := Intake.mode_gather hgather
  constructor <;> dsimp only
  · have haccount := h.account
    rw [taken, hround] at haccount
    show _ ++ round'.taken id ++ _ = _
    rw [List.append_assoc, hprogress.account, ← List.append_assoc]
    exact haccount
  · rintro _ ⟨⟩
    exact hprogress.fits
  · exact h.fresh
  · rw [hoffered, hmode]
    exact h.offered
  · rw [hoffered, hmode, Intake.visits_gather hgather]
    exact h.attached
  · rw [hmode]
    exact h.excused

theorem conclude {round : Round} (h : Sound id conduit) (hround : conduit.round = some round) :
    Sound id { conduit with
      intake := conduit.intake.conclude round
      round := none
      batches := conduit.batches ++ [round.batch] } := by
  have hfits := h.fits round hround
  obtain ⟨reports, -, hholding⟩ := @Intake.holding_conclude conduit.intake round id
  have hmode : (conduit.intake.conclude round).mode = conduit.intake.mode :=
    Intake.mode_eq_of_holding hholding rfl
  constructor <;> dsimp only
  · have haccount := h.account
    rw [taken, hround] at haccount
    rw [reported_conclude, taken, Option.elim_none, List.append_nil, List.append_assoc,
      Intake.account_conclude hfits, ← List.append_assoc]
    exact haccount
  · rintro _ ⟨⟩
  · exact h.fresh
  · rw [hholding, hmode]
    exact h.offered
  · intro hattached
    obtain ⟨hoffered, hvisits⟩ := h.attached hattached
    refine ⟨by rw [hholding, hoffered], ?_⟩
    rw [Intake.visits_conclude hfits, hvisits, hmode, and_assoc, and_congr_right_iff]
    intro hsweep
    rw [reported_conclude, Round.reportsIn_batch, List.mem_append, List.mem_append, not_or, not_or,
      and_congr_right_iff]
    intro _
    -- A sweep finds an ending only where it notes it.
    have hlines := hfits.lines (hfits.mode.trans hsweep)
    rcases hfits.noted with hnil | ⟨-, hnoted, -⟩
    · simp [hnil, hlines]
    · simp [hnoted]
  · rw [hmode]
    exact h.excused

theorem offer (h : Sound id conduit) (huplink : conduit.uplink = .unborn) :
    Sound id { conduit with intake := conduit.intake.offer id, uplink := .offered } := by
  obtain ⟨offered?, -, hholding⟩ := @Intake.holding_offer conduit.intake id
  have hmode : (conduit.intake.offer id).mode = conduit.intake.mode :=
    Intake.mode_eq_of_holding hholding rfl
  have hdue : due { conduit with intake := conduit.intake.offer id, uplink := .offered } =
      conduit.due := by
    rw [due, due, huplink]
    rfl
  constructor <;> dsimp only
  · rw [hdue, hholding]
    exact h.account
  · exact fun round hround => (h.fits round hround).of_reports hmode (by rw [hholding])
  · exact fun _ => h.fresh (by rw [huplink]; rfl)
  · intro _
    rw [Intake.offered_offer, hmode]
  · rintro ⟨⟩
  · trivial

theorem attach (h : Sound id conduit) (hfree : conduit.round = none)
    (huplink : conduit.uplink = .offered) :
    Sound id { conduit with intake := conduit.intake.attach id, uplink := .held } := by
  have hforwarded : conduit.forwarded = [] := h.fresh (by rw [huplink]; rfl)
  have hdue : conduit.due = [] := by
    rw [due, hforwarded, huplink]
    rfl
  obtain ⟨⟨hreported, htaken⟩, hreports⟩ :
      (conduit.reported id = [] ∧ conduit.taken id = []) ∧ (conduit.intake.holding id).reports = [] := by
    rw [← List.append_eq_nil_iff, ← List.append_eq_nil_iff, h.account]
    exact hdue
  obtain ⟨hholding, hvisits⟩ := Intake.attach_unused (h.offered huplink) hreports
  have hmode : (conduit.intake.attach id).mode = conduit.intake.mode :=
    Intake.mode_eq_of_holding hholding (Intake.mode_holding _ _).symm
  constructor <;> dsimp only
  · have hnow : due { conduit with intake := conduit.intake.attach id, uplink := .held } = [] := by
      rw [due, hforwarded]
      rfl
    rw [hnow, hholding, List.append_nil, List.append_eq_nil_iff]
    exact ⟨hreported, htaken⟩
  · rw [hfree]
    rintro _ ⟨⟩
  · rintro ⟨⟩
  · rintro ⟨⟩
  · intro _
    have hopen : .closed ∉ conduit.reported id := by
      rw [hreported]
      exact List.not_mem_nil
    refine ⟨by rw [hholding], ?_⟩
    rw [hvisits, hmode]
    exact (and_iff_left hopen).symm
  · trivial

/-- An ending that has not been put anywhere has not been got, and is not held. -/
theorem not_closed (h : Sound id conduit) (hheard : conduit.uplink.isHeard = false) :
    .closed ∉ conduit.reported id ∧ .closed ∉ (conduit.intake.holding id).reports := by
  have hdue : .closed ∉ conduit.due := by simp [due, hheard]
  rw [← h.account, List.mem_append, List.mem_append] at hdue
  exact ⟨fun hmem => hdue (Or.inl (Or.inl hmem)), fun hmem => hdue (Or.inr hmem)⟩

theorem put {intake : Intake} {uplink : Uplink} {forwarded : List String} (report : Report)
    (h : Sound id conduit) (hattached : conduit.uplink.isAttached = true)
    (hheard : conduit.uplink.isHeard = false) (hafter : uplink.isAttached = true)
    (hexcused : uplink.Excused conduit.intake.mode conduit.isOpen)
    (hholding : intake.holding id = { conduit.intake.holding id with
      reports := (conduit.intake.holding id).reports ++ [report] })
    (hvisits : intake.Visits id ↔ conduit.intake.Visits id)
    (hdue : due { conduit with intake, uplink, forwarded } = conduit.due ++ [report]) :
    Sound id { conduit with intake, uplink, forwarded } := by
  have hmode : intake.mode = conduit.intake.mode :=
    Intake.mode_eq_of_holding hholding rfl
  constructor <;> dsimp only
  · rw [hdue, hholding, ← List.append_assoc]
    exact congrArg (· ++ [report]) h.account
  · exact fun round hround => (h.fits round hround).of_open (h.not_closed hheard).2 hmode
  · exact fun hfresh => absurd (hafter.symm.trans hfresh) (by decide)
  · rintro rfl
    cases hafter
  · intro _
    rw [hholding, hvisits, hmode]
    exact h.attached hattached
  · rw [hmode]
    exact hexcused

theorem forward {line : String} {intake : Intake} (h : Sound id conduit)
    (huplink : conduit.uplink = .held) (hwrite : conduit.intake.write id line = .accepted intake) :
    Sound id { conduit with intake, forwarded := conduit.forwarded ++ [line] } := by
  have hattached : conduit.uplink.isAttached = true := by rw [huplink]; rfl
  have hheard : conduit.uplink.isHeard = false := by rw [huplink]; rfl
  refine put (.line line) h hattached hheard hattached h.excused ?_ (Intake.visits_write hwrite) ?_
  · exact Intake.holding_write hwrite (h.attached hattached).1 (h.not_closed hheard).2
  · simp [due, hheard]

theorem letGo {intake : Intake} {uplink uplink' : Uplink} (h : Sound id conduit)
    (huplink : conduit.uplink = uplink) (hattached : uplink.isAttached = true)
    (hheard : uplink.isHeard = false) (hafter : uplink'.isAttached = true)
    (htold : uplink'.isHeard = true)
    (hexcused : uplink'.Excused conduit.intake.mode conduit.isOpen)
    (hletGo : conduit.intake.letGo id = .accepted intake) :
    Sound id { conduit with intake, uplink := uplink' } := by
  subst huplink
  obtain ⟨hoffered, hvisits⟩ := h.attached hattached
  obtain ⟨hreported, hopen⟩ := h.not_closed hheard
  refine put .closed h hattached hheard hafter hexcused ?_ (Intake.visits_letGo hletGo) ?_
  · exact Intake.holding_letGo_of_heard hletGo hoffered hopen fun hmode => hvisits.2 ⟨hmode, hreported⟩
  · simp [due, hheard, htold]

theorem not_visits (h : Sound id conduit) (hreported : .closed ∈ conduit.reported id) :
    ¬conduit.intake.Visits id := by
  have hheard : conduit.uplink.isHeard = true := by
    by_contra hnot
    exact (h.not_closed (Bool.not_eq_true _ ▸ hnot)).1 hreported
  have hattached : conduit.uplink.isAttached = true := by
    cases huplink : conduit.uplink with
    | unborn | offered => rw [huplink] at hheard; cases hheard
    | held | closing | waiting | spent | gone => rfl
  exact fun hvisits => ((h.attached hattached).2.1 hvisits).2 hreported

theorem byOthers (h : Sound id conduit) (hstep : ByOthers id conduit conduit') :
    Sound id conduit' := by
  cases hstep with
  | traffic hne htraffic => exact h.of_same (htraffic.holding_of_ne hne) htraffic.visits
  | ring => exact h.of_same Intake.holding_ring (by cases conduit.intake <;> exact Iff.rfl)
  | queueUp hne hcrowded => exact h.of_same rfl Iff.rfl
  | stopWaiting other => exact h.of_same rfl Iff.rfl
  | attach hne hfree => exact h.of_same (Intake.holding_attach_of_ne hne) (Intake.visits_attach_of_ne hne)
  | detach hne hfree => exact h.of_same (Intake.holding_detach_of_ne hne) (Intake.visits_detach_of_ne hne)

theorem byHub (h : Sound id conduit) (hstep : ByHub conduit conduit') : Sound id conduit' := by
  cases hstep with
  | answer hopen hfree hannounced hbegins =>
    have hbegun := h.begin_round hfree hbegins
    exact hbegun.of_same Intake.holding_hush (by cases conduit.intake <;> exact Iff.rfl)
  | drain hopen hfree hbegins => exact h.begin_round hfree hbegins
  | gather hround hgather => exact h.gather hround hgather
  | conclude hround hend => exact h.conclude hround
  | leave hfree =>
    refine ⟨h.account, h.fits, h.fresh, h.offered, h.attached, ?_⟩
    exact h.excused.of_gone

theorem byUplink (h : Sound id conduit) (hstep : ByUplink id conduit conduit') :
    Sound id conduit' := by
  cases hstep with
  | offer huplink => exact h.offer huplink
  | attach hopen hfree huplink => exact h.attach hfree huplink
  | detach hfree hreported =>
    rw [Intake.detach_of_not_visits (h.not_visits hreported)]
    exact h
  | forward hopen huplink hwrite => exact h.forward huplink hwrite
  | close huplink => exact h.of_uplink huplink rfl rfl rfl trivial
  | wait hopen huplink hcrowded =>
    exact h.of_uplink huplink rfl rfl rfl (mode_of_isCrowded hcrowded)
  | complete hopen huplink hletGo =>
    rcases huplink with huplink | huplink
    · exact h.letGo huplink rfl rfl rfl rfl trivial hletGo
    · exact h.letGo huplink rfl rfl rfl rfl trivial hletGo
  | abandon huplink =>
    have haddressed := h.excused
    rw [huplink] at haddressed
    exact h.of_uplink huplink rfl rfl rfl haddressed
  | completeUnheard hgone huplink =>
    rcases huplink with huplink | huplink
    · exact h.of_uplink huplink rfl rfl rfl hgone
    · exact h.of_uplink huplink rfl rfl rfl hgone
  | drop hopen huplink hletGo => exact h.letGo huplink rfl rfl rfl rfl trivial hletGo
  | dropCrowded hopen huplink hcrowded =>
    exact h.of_uplink huplink rfl rfl rfl (mode_of_isCrowded hcrowded)
  | dropUnheard hgone huplink => exact h.of_uplink huplink rfl rfl rfl hgone
  | dropSpent huplink =>
    have hexcused := h.excused
    rw [huplink] at hexcused
    exact h.of_uplink huplink rfl rfl rfl hexcused

theorem step (h : Sound id conduit) (hstep : Step id conduit conduit') : Sound id conduit' := by
  rcases hstep with hothers | hhub | huplink
  · exact h.byOthers hothers
  · exact h.byHub hhub
  · exact h.byUplink huplink

end Sound

theorem Reached.sound (h : Reached id conduit) : Sound id conduit := by
  induction h with
  | @start mode capacity intake hnew =>
    have hreports : (intake.holding id).reports = [] := by
      cases mode with
      | addressed =>
        cases hcheck : checkQueueCapacity capacity with
        | error fault => simp [Intake.new, hcheck, bind, Except.bind] at hnew
        | ok =>
          simp only [Intake.new, hcheck, bind, Except.bind, pure, Except.pure] at hnew
          obtain rfl := Except.ok.inj hnew
          rfl
      | sweep =>
        obtain rfl := Except.ok.inj hnew
        rfl
    exact ⟨hreports, by rintro _ ⟨⟩, fun _ => rfl, by rintro ⟨⟩, by rintro ⟨⟩, trivial⟩
  | step _ hstep ih => exact ih.step hstep

end Conduit

end ChatRooms
