import ChatRooms.Proofs.Exchange.Schedule

namespace ChatRooms

open Std

/-- Events that are not about newcomers bring no defect to light, however many. -/
theorem Hub.exists_handleAll {hub : Hub} {events : List Event} (h : hub.directory.Intact)
    (hevents : ∀ event ∈ events, ∀ id peer, event ≠ .register id peer) :
    ∃ hub' effects, hub.handleAll events = .ok (hub', effects) := by
  induction events generalizing hub with
  | nil => exact ⟨_, _, rfl⟩
  | cons event events ih =>
    have hevent := hevents event List.mem_cons_self
    obtain ⟨between, first, hfirst⟩ := exists_handle_of_ne h hevent
    have hbetween := (steps_of_handle hfirst).intact h (hub.admits_of_ne hevent)
    obtain ⟨after, more, hmore⟩ := ih hbetween fun event hmem =>
      hevents event (List.mem_cons_of_mem _ hmem)
    exact ⟨after, first ++ more, by simp [handleAll, hfirst, hmore, bind, Except.bind, pure, Except.pure]⟩

namespace Exchange

variable {exchange : Exchange} {event : Event} {events : List Event} {settings : Settings}

theorem isOpen_of_isReady (h : exchange.isReady = true) : exchange.isOpen = true := by
  cases hphase : exchange.phase with
  | running | closing => simp only [isOpen, hphase]
  | stopped | failed => simp only [isReady, hphase, reduceCtorEq] at h

theorem isOpen_handle (h : exchange.hub.directory.Intact)
    (hevent : ∀ id peer, event ≠ .register id peer) :
    (exchange.handle [event]).isOpen = exchange.isOpen := by
  obtain ⟨hub, effects, hok⟩ := Hub.exists_handle_of_ne h hevent
  rcases handle_eq exchange event with ⟨_, _, _, -, heq⟩ | ⟨defect, herror, -⟩
  · rw [heq]
    rfl
  · cases hok.symm.trans herror

theorem handle_cons_of_ne (h : exchange.hub.directory.Intact)
    (hevents : ∀ other ∈ event :: events, ∀ id peer, other ≠ .register id peer) :
    exchange.handle (event :: events) = (exchange.handle [event]).handle events := by
  have hevent := hevents event List.mem_cons_self
  obtain ⟨between, first, hfirst⟩ := Hub.exists_handle_of_ne h hevent
  have hbetween := (Hub.steps_of_handle hfirst).intact h (exchange.hub.admits_of_ne hevent)
  obtain ⟨after, more, hmore⟩ := Hub.exists_handleAll hbetween fun event hmem =>
    hevents event (List.mem_cons_of_mem _ hmem)
  exact handle_cons hfirst hmore

end Exchange

def Choice.isOfHub : Choice → Bool
  | order | leave _ | answer _ | gather | conclude | handle | close | stop => true
  | _ => false

namespace Floor

/-- The hub comes from one floor to another if nobody else does anything. -/
def Plays (floor floor' : Floor) : Prop :=
  ∃ choices happenings, (∀ choice ∈ choices, choice.isOfHub = true) ∧
    floor.play choices = some (happenings, floor')

variable {settings : Settings} {trace happenings : List Happening} {floor between floor' : Floor}
  {events : List Event} {first last : Round} {intake gathered : Intake} {leaver : Option ClientId}
  {exchange : Exchange} {choice : Choice}

namespace Plays

theorem refl (floor : Floor) : floor.Plays floor :=
  ⟨[], [], by simp, rfl⟩

theorem cons (hhub : choice.isOfHub = true) (hchoose : floor.choose choice = some (happenings, between))
    (h : between.Plays floor') : floor.Plays floor' := by
  obtain ⟨choices, rest, hchoices, hplay⟩ := h
  exact ⟨choice :: choices, happenings ++ rest, List.forall_mem_cons.2 ⟨hhub, hchoices⟩,
    play_cons_eq_some.2 ⟨happenings, between, rest, hchoose, hplay, rfl⟩⟩

theorem single (hhub : choice.isOfHub = true)
    (hchoose : floor.choose choice = some (happenings, floor')) : floor.Plays floor' :=
  cons hhub hchoose (refl floor')

theorem trans (h : floor.Plays between) (h' : between.Plays floor') : floor.Plays floor' := by
  obtain ⟨choices, happenings, hchoices, hplay⟩ := h
  obtain ⟨choices', more, hchoices', hplay'⟩ := h'
  exact ⟨choices ++ choices', happenings ++ more, List.forall_mem_append.2 ⟨hchoices, hchoices'⟩,
    play_append hplay hplay'⟩

theorem sound (h : floor.Plays floor') (hsound : Sound settings trace floor) :
    ∃ more, Sound settings (trace ++ more) floor' := by
  obtain ⟨choices, happenings, -, hplay⟩ := h
  induction choices generalizing floor trace happenings with
  | nil =>
    cases hplay
    exact ⟨[], by rw [List.append_nil]; exact hsound⟩
  | cons choice choices ih =>
    obtain ⟨first, between, rest, hchoose, hrest, rfl⟩ := play_cons_eq_some.1 hplay
    obtain ⟨more, hmore⟩ := ih (hsound.stir (stir_of_choose hchoose)) _ hrest
    exact ⟨first ++ more, by rw [← List.append_assoc]; exact hmore⟩

end Plays

theorem plays_handles (hsound : Sound settings trace floor)
    (hactivity : floor.activity = .handling events) (hopen : floor.exchange.isOpen = true) :
    floor.Plays { floor with
      exchange := floor.exchange.handle events, activity := .handling [] } := by
  induction events generalizing trace floor with
  | nil =>
    obtain ⟨exchange, activity, holders, ringers⟩ := floor
    obtain rfl : activity = _ := hactivity
    exact .refl _
  | cons event events ih =>
    have hintact := hsound.exchange.reachable.intact
    have hevents : ∀ other ∈ event :: events, ∀ id peer, other ≠ .register id peer := by
      have hevents := hsound.events
      rw [hactivity] at hevents
      exact hevents
    have hstep := choose_handle_eq_some.2 ⟨event, events, hactivity, hopen, rfl, rfl⟩
    have hrest := ih (hsound.stir (stir_of_choose hstep)) rfl
      ((Exchange.isOpen_handle hintact (hevents event List.mem_cons_self)).trans hopen)
    rw [Exchange.handle_cons_of_ne hintact hevents]
    exact .cons rfl hstep hrest

def amid (floor : Floor) (intake : Intake) (round : Round) (leaver : Option ClientId) : Floor :=
  { floor with exchange := { floor.exchange with intake }, activity := .gathering round leaver }

theorem plays_gathers {before after : Intake × Round} (hgathers : Intake.Gathers before after) :
    (floor.amid before.1 before.2 leaver).Plays (floor.amid after.1 after.2 leaver) := by
  induction hgathers with
  | refl => exact .refl _
  | @tail between after _ hgather ih =>
    have hstep : (floor.amid between.1 between.2 leaver).choose .gather =
        some ([], floor.amid after.1 after.2 leaver) := by
      simp [choose, amid, Activity.gathering?, hgather]
    exact ih.trans (.single rfl hstep)

theorem plays_round (hsound : Sound settings trace (floor.amid intake first leaver))
    (hopen : floor.exchange.isOpen = true) (hgathers : Intake.Gathers (intake, first) (gathered, last))
    (hend : gathered.gather last = none) :
    (floor.amid intake first leaver).Plays { floor with
      exchange := { floor.exchange with intake := gathered.conclude last }.handle
        (last.batch.map Envelope.event ++ leaver.toList.map Event.exited)
      activity := .handling [] } := by
  have hconclude : (floor.amid gathered last leaver).choose .conclude = some ([], { floor with
      exchange := { floor.exchange with intake := gathered.conclude last }
      activity := .handling (last.batch.map Envelope.event ++ leaver.toList.map Event.exited) }) := by
    simp [choose, amid, Activity.gathering?, hend]
  have hconcluded := (plays_gathers hgathers).trans (.single rfl hconclude)
  obtain ⟨more, hmore⟩ := hconcluded.sound hsound
  exact hconcluded.trans (plays_handles hmore rfl hopen)

theorem plays_takeOrder {order : Order} {orders : List Order} (hsound : Sound settings trace floor)
    (hfree : floor.activity = .handling []) (hready : floor.exchange.isReady = true)
    (horders : floor.exchange.orders = order :: orders) :
    floor.Plays { floor with exchange := { floor.exchange with orders }.takeOrder order } := by
  by_cases hstays : ∀ id, order ≠ .exited id
  · have hstep : floor.choose .order = some (floor.exchange.announced order, { floor with
        exchange := { floor.exchange with orders }.takeOrder order }) := by
      simp [choose, hfree, hready, horders, uncons?, Order.leaver?_eq_none.2 hstays]
    exact .single rfl hstep
  · obtain ⟨id, hexit⟩ := not_forall.1 hstays
    obtain rfl : order = .exited id := not_not.1 hexit
    obtain ⟨first, last, gathered, hbegins, hgathers, hend, hdrain⟩ :=
      floor.exchange.intake.exists_gathers_drain
    obtain ⟨path, hpath⟩ := Intake.begins_iff.1 hbegins
    have hstep : floor.choose (.leave path) = some ([], amid { floor with
        exchange := { floor.exchange with orders } } floor.exchange.intake first (some id)) := by
      simp [choose, amid, hfree, hready, horders, uncons?, Order.leaver?, hpath]
    have hround := plays_round (hsound.stir (stir_of_choose hstep)) (Exchange.isOpen_of_isReady hready)
      hgathers hend
    refine .cons rfl hstep ?_
    show Plays _ { floor with exchange := Exchange.takeExit { floor.exchange with orders } id }
    rw [Exchange.takeExit]
    dsimp only
    rw [hdrain, hfree]
    exact hround

theorem plays_takeBatch (hsound : Sound settings trace floor) (hfree : floor.activity = .handling [])
    (hready : floor.exchange.isReady = true) (hbatch : floor.exchange.takeBatch? = some exchange) :
    floor.Plays { floor with exchange } := by
  rw [Exchange.takeBatch?, Intake.next?_eq_drain] at hbatch
  split at hbatch
  next hannounced =>
    obtain rfl := Option.some.inj hbatch
    obtain ⟨first, last, gathered, hbegins, hgathers, hend, hdrain⟩ :=
      floor.exchange.intake.hush.exists_gathers_drain
    obtain ⟨path, hpath⟩ := Intake.begins_iff.1 hbegins
    have hstep : floor.choose (.answer path) =
        some ([], floor.amid floor.exchange.intake.hush first none) := by
      simp [choose, amid, hfree, hready, hannounced, hpath]
    have hround := plays_round (hsound.stir (stir_of_choose hstep)) (Exchange.isOpen_of_isReady hready)
      hgathers hend
    refine .cons rfl hstep ?_
    rw [hdrain, hfree]
    simpa [Exchange.handleBatch] using hround
  next => cases hbatch

theorem plays_advance (hsound : Sound settings trace floor) (hfree : floor.activity = .handling [])
    (hadvance : floor.exchange.advance = some exchange) : floor.Plays { floor with exchange } := by
  have hnext (hready : floor.exchange.isReady = true)
      (htake : floor.exchange.takeNext? = some exchange) : floor.Plays { floor with exchange } := by
    unfold Exchange.takeNext? at htake
    split at htake
    next order orders horders =>
      obtain rfl := Option.some.inj htake
      exact plays_takeOrder hsound hfree hready horders
    next => exact plays_takeBatch hsound hfree hready htake
  unfold Exchange.advance at hadvance
  split at hadvance
  next hphase =>
    split at hadvance
    next hover =>
      obtain rfl := Option.some.inj hadvance
      simp only [Bool.and_eq_true, List.isEmpty_iff, Bool.not_eq_true'] at hover
      have hstep : floor.choose .close = some ([.handled floor.exchange.hub .shutdown],
          { floor with exchange := floor.exchange.beginClosing }) := by
        simp [choose, hfree, hphase, hover]
      exact .single rfl hstep
    next => exact hnext (by rw [Exchange.isReady, hphase]) hadvance
  next deadline hphase =>
    split at hadvance
    next hover =>
      obtain rfl := Option.some.inj hadvance
      simp only [Bool.or_eq_true, decide_eq_true_eq] at hover
      have hstep : floor.choose .stop = some ([],
          { floor with exchange := floor.exchange.halt .stopped }) := by
        simp [choose, hfree, hphase, Phase.deadline?, hover]
      exact .single rfl hstep
    next hover =>
      simp only [Bool.or_eq_true, not_or, Bool.not_eq_true] at hover
      exact hnext (by rw [Exchange.isReady, hphase]; simp [hover.1]) hadvance
  next => cases hadvance
  next => cases hadvance

theorem plays_settle (hsound : Sound settings trace floor) (hfree : floor.activity = .handling []) :
    floor.Plays { floor with exchange := floor.exchange.settle } := by
  unfold Exchange.settle
  generalize floor.exchange.pending = steps
  induction steps generalizing trace floor with
  | zero => exact .refl _
  | succ steps ih =>
    unfold Exchange.settleWithin
    split
    next exchange hadvance =>
      have hplays := plays_advance hsound hfree hadvance
      obtain ⟨more, hmore⟩ := hplays.sound hsound
      exact hplays.trans (ih hmore hfree)
    next => exact .refl _

theorem Run.plays (h : Run settings trace floor) (hplays : floor.Plays floor') :
    ∃ more, Run settings (trace ++ more) floor' := by
  obtain ⟨choices, happenings, hchoices, hplay⟩ := hplays
  induction choices generalizing floor trace happenings with
  | nil =>
    cases hplay
    exact ⟨[], by rwa [List.append_nil]⟩
  | cons choice choices ih =>
    obtain ⟨hhub, hchoices⟩ := List.forall_mem_cons.1 hchoices
    obtain ⟨first, between, rest, hchoose, hrest, rfl⟩ := play_cons_eq_some.1 hplay
    have hstep : Step floor first between := by
      refine step_of_choose ?_ ?_ hchoose
      · rintro order rfl
        cases hhub
      · rintro id line rfl
        cases hhub
    obtain ⟨more, hmore⟩ := ih (h.step hstep) rest hchoices hrest
    exact ⟨first ++ more, by rwa [← List.append_assoc]⟩

theorem Run.settle (h : Run settings trace floor) (hfree : floor.activity = .handling []) :
    ∃ more, Run settings (trace ++ more) { floor with exchange := floor.exchange.settle } :=
  h.plays (plays_settle h.bustle.sound hfree)

theorem Bustle.settle (h : Bustle settings trace floor) (hfree : floor.activity = .handling []) :
    ∃ more, Bustle settings (trace ++ more) { floor with exchange := floor.exchange.settle } := by
  obtain ⟨choices, more, -, hplay⟩ := plays_settle h.sound hfree
  exact ⟨more, h.extend (goes_of_play hplay)⟩

end Floor

end ChatRooms
