import ChatRooms.Proofs.Exchange.Soundness
import Mathlib.Data.Option.Basic

namespace ChatRooms

open Std

/-- What is done next. -/
inductive Choice where
  | connect (id : ClientId) (capacity : Nat)
  | post (order : Order)
  | giveUp (id : ClientId)
  | write (id : ClientId) (line : String)
  | letGo (id : ClientId)
  | vanish (id : ClientId)
  | ring (id : ClientId)
  | take (id : ClientId)
  | stopReading (id : ClientId)
  | pass (time : Nat)
  | dropHandles
  | order
  /-- The hub takes an exit, and will visit the feeds, if there are any, in this order. -/
  | leave (path : List ClientId)
  | answer (path : List ClientId)
  | gather
  | conclude
  | handle
  | close
  | stop
  deriving DecidableEq, Repr

def Posting.accepted? {α : Type} : Posting α → Option α
  | accepted after => some after
  | full | closed => none

theorem Posting.accepted?_eq_some {α : Type} {posting : Posting α} {after : α} :
    posting.accepted? = some after ↔ posting = .accepted after := by
  cases posting <;> simp [accepted?]

theorem Exchange.accepted?_post {exchange : Exchange} {order : Order} :
    (exchange.post order).accepted? =
      if exchange.isOpen = true ∧ exchange.orders.length < exchange.orderCapacity then
        some { exchange with orders := exchange.orders ++ [order] }
      else none := by
  unfold post
  cases hopen : exchange.isOpen with
  | false => rfl
  | true =>
    by_cases hfull : exchange.orderCapacity ≤ exchange.orders.length
    · simp [Posting.accepted?, hfull]
    · simp [Posting.accepted?, hfull, Nat.lt_of_not_le hfull]

/-- A round that will visit the feeds in the given order. -/
def Intake.begin? (intake : Intake) (path : List ClientId) : Option Round :=
  match intake with
  | addressed _ => some (.queue [])
  | sweep sweeper _ =>
    if path.Perm sweeper.feeds.keys then some (.feeds { ahead := path }) else none

theorem Intake.begins_iff {intake : Intake} {round : Round} :
    intake.Begins round ↔ ∃ path, intake.begin? path = some round := by
  cases intake with
  | addressed queue =>
    cases round with
    | queue taken => simp [Begins, begin?, eq_comm]
    | feeds tour => simp [Begins, begin?]
  | sweep sweeper offered =>
    cases round with
    | queue taken => simp [Begins, begin?]
    | feeds tour =>
      obtain ⟨haul, ahead⟩ := tour
      simp [Begins, begin?, Sweeper.Begins, eq_comm, and_comm]

def Outbox.taking? (outbox : Outbox) : Option (Outbox × String) :=
  match outbox.take with
  | (outbox, .line line) => some (outbox, line)
  | _ => none

theorem Outbox.taking?_eq_some {outbox outbox' : Outbox} {line : String} :
    outbox.taking? = some (outbox', line) ↔ outbox.take = (outbox', .line line) := by
  unfold taking?
  split <;> simp_all

def Order.leaver? : Order → Option ClientId
  | exited id => some id
  | register _ _ | shutdown => none

theorem Order.leaver?_eq_some {order : Order} {id : ClientId} :
    order.leaver? = some id ↔ order = .exited id := by
  cases order <;> simp [leaver?]

theorem Order.leaver?_eq_none {order : Order} :
    order.leaver? = none ↔ ∀ id, order ≠ .exited id := by
  cases order <;> simp [leaver?]

def uncons? {α : Type} : List α → Option (α × List α)
  | [] => none
  | a :: as => some (a, as)

theorem uncons?_eq_some {α : Type} {xs : List α} {a : α} {as : List α} :
    uncons? xs = some (a, as) ↔ xs = a :: as := by
  cases xs <;> simp [uncons?]

theorem guard_eq_some {p : Prop} [Decidable p] {u : Unit} :
    (guard p : Option Unit) = some u ↔ p := by
  by_cases h : p <;> simp [guard, h]

theorem toOption_eq_some {ε α : Type} {result : Except ε α} {a : α} :
    result.toOption = some a ↔ result = .ok a := by
  cases result <;> simp [Except.toOption]

def Activity.gathering? : Activity → Option (Round × Option ClientId)
  | gathering round leaver => some (round, leaver)
  | handling _ => none

theorem Activity.gathering?_eq_some {activity : Activity} {round : Round}
    {leaver : Option ClientId} :
    activity.gathering? = some (round, leaver) ↔ activity = .gathering round leaver := by
  cases activity <;> simp [gathering?]

theorem Activity.events_eq_cons {activity : Activity} {event : Event} {events : List Event} :
    activity.events = event :: events ↔ activity = .handling (event :: events) := by
  cases activity <;> simp [Activity.events]

def Phase.deadline? : Phase → Option Nat
  | closing deadline => some deadline
  | running | stopped | failed _ => none

theorem Phase.deadline?_eq_some {phase : Phase} {deadline : Nat} :
    phase.deadline? = some deadline ↔ phase = .closing deadline := by
  cases phase <;> simp [deadline?]

instance (orders : List Order) (id : ClientId) :
    Decidable (∀ peer, .register id peer ∉ orders) :=
  decidable_of_iff (∀ order ∈ orders, order.newcomer? ≠ some id) (by
    constructor
    · exact fun h peer hmem => h _ hmem rfl
    · rintro h (⟨other, peer⟩ | _ | _) hmem hother
      · cases hother
        exact h peer hmem
      · cases hother
      · cases hother)

namespace Floor

instance (floor : Floor) : (order : Order) → Decidable (floor.Permits order)
  | .register _ _ => inferInstanceAs (Decidable (_ ∧ _))
  | .exited _ | .shutdown => isTrue trivial

/-- What comes of a choice, unless it cannot be made. -/
def choose (floor : Floor) : Choice → Option (List Happening × Floor)
  | .connect id capacity => do
    guard (floor.exchange.registrations[id]? = none)
    let outbox ← (Outbox.new capacity).toOption
    return ([], { floor with
      exchange := floor.exchange.connect id outbox, holders := floor.holders.insert id })
  | .post order => do
    guard (floor.Permits order)
    let exchange ← (floor.exchange.post order).accepted?
    return ([], { floor with exchange })
  | .giveUp id => do
    guard (floor.exchange.registrations[id]? = some .pending)
    guard (∀ peer, .register id peer ∉ floor.exchange.orders)
    return ([], { floor with exchange := floor.exchange.refuse id })
  | .write id line => do
    guard (id ∈ floor.holders)
    guard (floor.exchange.isOpen = true)
    let intake ← (floor.exchange.intake.write id line).accepted?
    return ([.forwarded id line], { floor with
      exchange := { floor.exchange with intake }, ringers := id :: floor.ringers })
  | .letGo id => do
    guard (id ∈ floor.holders)
    guard (floor.exchange.isOpen = true)
    let intake ← (floor.exchange.intake.letGo id).accepted?
    return ([], { floor with
      exchange := { floor.exchange with intake }
      holders := floor.holders.erase id
      ringers := id :: floor.ringers })
  | .vanish id => do
    guard (id ∈ floor.holders)
    guard (floor.exchange.intake.isPrivate = false ∨ floor.exchange.isOpen = false)
    return ([], { floor with holders := floor.holders.erase id })
  | .ring id => do
    guard (id ∈ floor.ringers)
    return ([], { floor with
      exchange := { floor.exchange with intake := floor.exchange.intake.ring }
      ringers := floor.ringers.erase id })
  | .take id => do
    let outbox ← floor.exchange.outboxes[id]?
    let (outbox, line) ← outbox.taking?
    return ([.taken id line], { floor with
      exchange := floor.exchange.updateOutbox id fun _ => outbox })
  | .stopReading id => some ([], { floor with
      exchange := floor.exchange.updateOutbox id Outbox.stopReading })
  | .pass time => some ([], { floor with
      exchange := { floor.exchange with clock := floor.exchange.clock + time } })
  | .dropHandles => some ([], { floor with
      exchange := { floor.exchange with hasHandles := false } })
  | .order => do
    guard (floor.activity = .handling [])
    guard (floor.exchange.isReady = true)
    let (order, orders) ← uncons? floor.exchange.orders
    guard (order.leaver? = none)
    return (floor.exchange.announced order, { floor with
      exchange := { floor.exchange with orders }.takeOrder order })
  | .leave path => do
    guard (floor.activity = .handling [])
    guard (floor.exchange.isReady = true)
    let (order, orders) ← uncons? floor.exchange.orders
    let id ← order.leaver?
    let round ← floor.exchange.intake.begin? path
    return ([], { floor with
      exchange := { floor.exchange with orders }, activity := .gathering round (some id) })
  | .answer path => do
    guard (floor.activity = .handling [])
    guard (floor.exchange.isReady = true)
    guard (floor.exchange.intake.isAnnounced = true)
    let round ← floor.exchange.intake.hush.begin? path
    return ([], { floor with
      exchange := { floor.exchange with intake := floor.exchange.intake.hush }
      activity := .gathering round none })
  | .gather => do
    let (round, leaver) ← floor.activity.gathering?
    let (intake, round) ← floor.exchange.intake.gather round
    return ([], { floor with
      exchange := { floor.exchange with intake }, activity := .gathering round leaver })
  | .conclude => do
    let (round, leaver) ← floor.activity.gathering?
    guard (floor.exchange.intake.gather round = none)
    return ([], { floor with
      exchange := { floor.exchange with intake := floor.exchange.intake.conclude round }
      activity := .handling (round.batch.map Envelope.event ++ leaver.toList.map Event.exited) })
  | .handle => do
    let (event, events) ← uncons? floor.activity.events
    guard (floor.exchange.isOpen = true)
    return ([.handled floor.exchange.hub event], { floor with
      exchange := floor.exchange.handle [event], activity := .handling events })
  | .close => do
    guard (floor.activity = .handling [])
    guard (floor.exchange.phase = .running)
    guard (floor.exchange.orders = [])
    guard (floor.exchange.hasHandles = false)
    return ([.handled floor.exchange.hub .shutdown], { floor with
      exchange := floor.exchange.beginClosing })
  | .stop => do
    guard (floor.activity = .handling [])
    let deadline ← floor.exchange.phase.deadline?
    guard (floor.exchange.hub.directory.isEmpty = true ∨ deadline ≤ floor.exchange.clock)
    return ([], { floor with exchange := floor.exchange.halt .stopped })

variable {floor floor' : Floor} {happenings trace : List Happening} {settings : Settings}
  {choice : Choice}

/-- What neither gives an order nor writes a line can happen even if everybody waits. -/
theorem step_of_choose (hpost : ∀ order, choice ≠ .post order)
    (hwrite : ∀ id line, choice ≠ .write id line) (h : floor.choose choice = some (happenings, floor')) :
    Step floor happenings floor' := by
  cases choice <;> simp only [choose, Option.bind_eq_bind, Option.bind_eq_some_iff, guard_eq_some,
    exists_const, Option.pure_def, Option.some.injEq, Prod.mk.injEq, Prod.exists,
    uncons?_eq_some] at h
  case connect id capacity =>
    obtain ⟨hnew, outbox, houtbox, rfl, rfl⟩ := h
    exact .connect hnew (toOption_eq_some.1 houtbox)
  -- Posts and writes are guarded less than in `Step`; `stir_of_choose` covers them.
  case post order => exact absurd rfl (hpost order)
  case giveUp id =>
    obtain ⟨hpending, hunasked, rfl, rfl⟩ := h
    exact .giveUp hpending hunasked
  case write id line => exact absurd rfl (hwrite id line)
  case letGo id =>
    obtain ⟨hholds, hopen, intake, hletGo, rfl, rfl⟩ := h
    exact .letGo hholds hopen (Posting.accepted?_eq_some.1 hletGo)
  case vanish id =>
    obtain ⟨hholds, hlost, rfl, rfl⟩ := h
    exact .vanish hholds hlost
  case ring id =>
    obtain ⟨hid, rfl, rfl⟩ := h
    exact .ring hid
  case take id =>
    obtain ⟨outbox, houtbox, outbox', line, htaking, rfl, rfl⟩ := h
    exact .take houtbox (Outbox.taking?_eq_some.1 htaking)
  case stopReading id =>
    obtain ⟨rfl, rfl⟩ := h
    exact .stopReading id
  case pass time =>
    obtain ⟨rfl, rfl⟩ := h
    exact .pass time
  case dropHandles =>
    obtain ⟨rfl, rfl⟩ := h
    exact .dropHandles
  case order =>
    obtain ⟨hfree, hready, order, orders, horders, hstays, rfl, rfl⟩ := h
    exact .order hfree hready horders (Order.leaver?_eq_none.1 hstays)
  case leave path =>
    obtain ⟨hfree, hready, order, orders, horders, id, hid, round, hround, rfl, rfl⟩ := h
    obtain rfl := Order.leaver?_eq_some.1 hid
    exact .leave hfree hready horders (Intake.begins_iff.2 ⟨path, hround⟩)
  case answer path =>
    obtain ⟨hfree, hready, hannounced, round, hround, rfl, rfl⟩ := h
    exact .answer hfree hready hannounced (Intake.begins_iff.2 ⟨path, hround⟩)
  case gather =>
    obtain ⟨round, leaver, hactivity, intake, round', hgather, rfl, rfl⟩ := h
    exact .gather (Activity.gathering?_eq_some.1 hactivity) hgather
  case conclude =>
    obtain ⟨round, leaver, hactivity, hend, rfl, rfl⟩ := h
    exact .conclude (Activity.gathering?_eq_some.1 hactivity) hend
  case handle =>
    obtain ⟨event, events, hevents, hopen, rfl, rfl⟩ := h
    exact .handle (Activity.events_eq_cons.1 hevents) hopen
  case close =>
    obtain ⟨hfree, hphase, horders, hhandles, rfl, rfl⟩ := h
    exact .close hfree hphase horders hhandles
  case stop =>
    obtain ⟨hfree, deadline, hphase, hover, rfl, rfl⟩ := h
    exact .stop hfree (Phase.deadline?_eq_some.1 hphase) hover

theorem stir_of_choose (h : floor.choose choice = some (happenings, floor')) :
    Stir floor happenings floor' := by
  by_cases hpost : ∃ order, choice = .post order
  · obtain ⟨order, rfl⟩ := hpost
    simp only [choose, Option.bind_eq_bind, Option.bind_eq_some_iff, guard_eq_some, exists_const,
      Option.pure_def, Option.some.injEq, Prod.mk.injEq, Posting.accepted?_eq_some] at h
    obtain ⟨hpermits, exchange, haccepted, rfl, rfl⟩ := h
    by_cases hexit : ∃ id, order = .exited id
    · obtain ⟨id, rfl⟩ := hexit
      exact .report haccepted
    · exact .step (.post (hpermits.gives fun id heq => hexit ⟨id, heq⟩) haccepted)
  by_cases hwrite : ∃ id line, choice = .write id line
  · obtain ⟨id, line, rfl⟩ := hwrite
    simp only [choose, Option.bind_eq_bind, Option.bind_eq_some_iff, guard_eq_some, exists_const,
      Option.pure_def, Option.some.injEq, Prod.mk.injEq, Posting.accepted?_eq_some] at h
    obtain ⟨hholds, hopen, intake, haccepted, rfl, rfl⟩ := h
    exact .write hholds hopen haccepted
  exact .step (step_of_choose (fun order heq => hpost ⟨order, heq⟩)
    (fun id line heq => hwrite ⟨id, line, heq⟩) h)

theorem exists_choose_of_step (h : Step floor happenings floor') :
    ∃ choice, floor.choose choice = some (happenings, floor') := by
  cases h with
  | @connect id capacity outbox hnew houtbox =>
    refine ⟨.connect id capacity, ?_⟩
    simp [choose, hnew, houtbox, Except.toOption]
  | @post order exchange hgives hpost =>
    refine ⟨.post order, ?_⟩
    simp [choose, hgives.permits, hpost, Posting.accepted?]
  | @giveUp id hpending hunasked =>
    refine ⟨.giveUp id, ?_⟩
    simp [choose, hpending, hunasked]
  | @write id line intake hholds _ hopen hwrite =>
    refine ⟨.write id line, ?_⟩
    simp [choose, hholds, hopen, hwrite, Posting.accepted?]
  | @letGo id intake hholds hopen hletGo =>
    refine ⟨.letGo id, ?_⟩
    simp [choose, hholds, hopen, hletGo, Posting.accepted?]
  | @vanish id hholds hlost =>
    refine ⟨.vanish id, ?_⟩
    simp [choose, hholds, hlost]
  | @ring id hid =>
    refine ⟨.ring id, ?_⟩
    simp [choose, hid]
  | @take id outbox outbox' line houtbox htake =>
    refine ⟨.take id, ?_⟩
    simp [choose, houtbox, Outbox.taking?_eq_some.2 htake]
  | stopReading id => exact ⟨.stopReading id, rfl⟩
  | pass time => exact ⟨.pass time, rfl⟩
  | dropHandles => exact ⟨.dropHandles, rfl⟩
  | @order order orders hfree hready horders hstays =>
    refine ⟨.order, ?_⟩
    simp [choose, hfree, hready, horders, uncons?, Order.leaver?_eq_none.2 hstays]
  | @leave id orders round hfree hready horders hbegins =>
    obtain ⟨path, hround⟩ := Intake.begins_iff.1 hbegins
    refine ⟨.leave path, ?_⟩
    simp [choose, hfree, hready, horders, uncons?, Order.leaver?, hround]
  | @answer round hfree hready hannounced hbegins =>
    obtain ⟨path, hround⟩ := Intake.begins_iff.1 hbegins
    refine ⟨.answer path, ?_⟩
    simp [choose, hfree, hready, hannounced, hround]
  | @gather round round' leaver intake hactivity hgather =>
    refine ⟨.gather, ?_⟩
    simp [choose, hactivity, Activity.gathering?, hgather]
  | @conclude round leaver hactivity hend =>
    refine ⟨.conclude, ?_⟩
    simp [choose, hactivity, Activity.gathering?, hend]
  | @handle event events hactivity hopen =>
    refine ⟨.handle, ?_⟩
    simp [choose, hactivity, Activity.events, uncons?, hopen]
  | close hfree hphase horders hhandles =>
    refine ⟨.close, ?_⟩
    simp [choose, hfree, hphase, horders, hhandles]
  | @stop deadline hfree hphase hover =>
    refine ⟨.stop, ?_⟩
    simp [choose, hfree, hphase, Phase.deadline?, hover]

theorem exists_choose (h : Stir floor happenings floor') :
    ∃ choice, floor.choose choice = some (happenings, floor') := by
  cases h with
  | step hstep => exact exists_choose_of_step hstep
  | @write id line intake hholds hopen hwrite =>
    refine ⟨.write id line, ?_⟩
    simp [choose, hholds, hopen, hwrite, Posting.accepted?]
  | @report id exchange hpost =>
    have hpermits : floor.Permits (.exited id) := trivial
    refine ⟨.post (.exited id), ?_⟩
    simp [choose, hpermits, hpost, Posting.accepted?]

theorem choose_take_eq_some {id : ClientId} :
    floor.choose (.take id) = some (happenings, floor') ↔ ∃ outbox outbox' line,
      floor.exchange.outboxes[id]? = some outbox ∧ outbox.taking? = some (outbox', line) ∧
      happenings = [.taken id line] ∧
      floor' = { floor with exchange := floor.exchange.updateOutbox id fun _ => outbox' } := by
  simp only [choose, Option.bind_eq_bind, Option.bind_eq_some_iff, Option.pure_def,
    Option.some.injEq, Prod.mk.injEq, Prod.exists]
  constructor
  · rintro ⟨outbox, houtbox, outbox', line, htaking, rfl, rfl⟩
    exact ⟨outbox, outbox', line, houtbox, htaking, rfl, rfl⟩
  · rintro ⟨outbox, outbox', line, houtbox, htaking, rfl, rfl⟩
    exact ⟨outbox, houtbox, outbox', line, htaking, rfl, rfl⟩

theorem choose_handle_eq_some :
    floor.choose .handle = some (happenings, floor') ↔ ∃ event events,
      floor.activity = .handling (event :: events) ∧ floor.exchange.isOpen = true ∧
      happenings = [.handled floor.exchange.hub event] ∧
      floor' = { floor with
        exchange := floor.exchange.handle [event], activity := .handling events } := by
  simp only [choose, Option.bind_eq_bind, Option.bind_eq_some_iff, guard_eq_some, exists_const,
    Option.pure_def, Option.some.injEq, Prod.mk.injEq, Prod.exists, uncons?_eq_some,
    Activity.events_eq_cons]
  constructor
  · rintro ⟨event, events, hactivity, hopen, rfl, rfl⟩
    exact ⟨event, events, hactivity, hopen, rfl, rfl⟩
  · rintro ⟨event, events, hactivity, hopen, rfl, rfl⟩
    exact ⟨event, events, hactivity, hopen, rfl, rfl⟩

/-- What comes of one choice after the other, unless one of them cannot be made. -/
def play (floor : Floor) : List Choice → Option (List Happening × Floor)
  | [] => some ([], floor)
  | choice :: choices => do
    let (happenings, between) ← floor.choose choice
    let (trace, after) ← between.play choices
    return (happenings ++ trace, after)

variable {choices : List Choice}

theorem play_cons_eq_some :
    floor.play (choice :: choices) = some (trace, floor') ↔
      ∃ happenings between rest, floor.choose choice = some (happenings, between) ∧
        between.play choices = some (rest, floor') ∧ trace = happenings ++ rest := by
  simp only [play, Option.bind_eq_bind, Option.bind_eq_some_iff, Prod.exists, Option.pure_def,
    Option.some.injEq, Prod.mk.injEq]
  constructor
  · rintro ⟨happenings, between, hchoose, rest, after, hplay, rfl, rfl⟩
    exact ⟨happenings, between, rest, hchoose, hplay, rfl⟩
  · rintro ⟨happenings, between, rest, hchoose, hplay, rfl⟩
    exact ⟨happenings, between, hchoose, rest, floor', hplay, rfl, rfl⟩

theorem play_append {choices' : List Choice} {rest : List Happening} {between : Floor}
    (hplay : floor.play choices = some (trace, between))
    (hrest : between.play choices' = some (rest, floor')) :
    floor.play (choices ++ choices') = some (trace ++ rest, floor') := by
  induction choices generalizing floor trace with
  | nil =>
    cases hplay
    exact hrest
  | cons choice choices ih =>
    obtain ⟨happenings, first, more, hchoose, hmore, rfl⟩ := play_cons_eq_some.1 hplay
    rw [List.cons_append, List.append_assoc]
    exact play_cons_eq_some.2 ⟨happenings, first, more ++ rest, hchoose, ih hmore, rfl⟩

theorem goes_of_play (hplay : floor.play choices = some (trace, floor')) :
    Goes floor trace floor' := by
  induction choices generalizing floor trace with
  | nil =>
    cases hplay
    exact .refl
  | cons choice choices ih =>
    obtain ⟨happenings, between, rest, hchoose, hrest, rfl⟩ := play_cons_eq_some.1 hplay
    exact (Goes.step .refl (stir_of_choose hchoose)).trans (ih hrest)

theorem goes_iff : Goes floor trace floor' ↔ ∃ choices, floor.play choices = some (trace, floor') := by
  constructor
  · intro h
    induction h with
    | refl => exact ⟨[], rfl⟩
    | @step trace happenings between after _ hstir ih =>
      obtain ⟨choices, hplay⟩ := ih
      obtain ⟨choice, hchoose⟩ := exists_choose hstir
      have hlast : between.play [choice] = some (happenings, after) :=
        play_cons_eq_some.2 ⟨happenings, after, [], hchoose, rfl, (List.append_nil _).symm⟩
      exact ⟨choices ++ [choice], play_append hplay hlast⟩
  · rintro ⟨choices, hplay⟩
    exact goes_of_play hplay

end Floor

end ChatRooms
