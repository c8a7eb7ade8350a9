import ChatRooms.Proofs.Exchange.Schedule
import ChatRooms.Proofs.Intake.Lines

namespace ChatRooms

variable {f : String → String} {id : ClientId} {order : Order}

namespace Exchange

variable {exchange : Exchange}

def mapLines (f : String → String) (exchange : Exchange) : Exchange :=
  { exchange with intake := exchange.intake.mapLines f }

@[simp] theorem intake_mapLines : (exchange.mapLines f).intake = exchange.intake.mapLines f := rfl

theorem connect_mapLines (id : ClientId) (outbox : Outbox) :
    (exchange.mapLines f).connect id outbox = (exchange.connect id outbox).mapLines f := by
  simp only [mapLines, connect, Intake.offer_mapLines]

theorem refuse_mapLines (id : ClientId) :
    (exchange.mapLines f).refuse id = (exchange.refuse id).mapLines f := by
  simp only [mapLines, refuse, updateOutbox, Intake.withdraw_mapLines]

theorem apply_mapLines (effect : Effect) :
    (exchange.mapLines f).apply effect = (exchange.apply effect).mapLines f := by
  cases effect with
  | deliver | hangUp => rfl
  | attach id => simp only [mapLines, apply, Intake.attach_mapLines]
  | detach id => simp only [mapLines, apply, Intake.detach_mapLines]

theorem foldl_apply_mapLines (effects : List Effect) :
    effects.foldl apply (exchange.mapLines f) = (effects.foldl apply exchange).mapLines f := by
  induction effects generalizing exchange with
  | nil => rfl
  | cons effect effects ih => rw [List.foldl_cons, List.foldl_cons, apply_mapLines, ih]

theorem handle_mapLines (events : List Event) :
    (exchange.mapLines f).handle events = (exchange.handle events).mapLines f := by
  have hhub : (exchange.mapLines f).hub = exchange.hub := rfl
  rw [handle, handle, hhub]
  cases exchange.hub.handleAll events with
  | error defect => rfl
  | ok outcome => exact @foldl_apply_mapLines f { exchange with hub := outcome.1 } outcome.2

theorem beginClosing_mapLines :
    (exchange.mapLines f).beginClosing = exchange.beginClosing.mapLines f := by
  simp only [beginClosing, handle_mapLines]
  rfl

theorem takeOrder_mapLines (hstays : order.leaver? = none) :
    (exchange.mapLines f).takeOrder order = (exchange.takeOrder order).mapLines f := by
  by_cases hrunning : exchange.phase = .running
  · have hrunning' : (exchange.mapLines f).phase = .running := hrunning
    cases order with
    | register id peer =>
      rw [takeOrder_register hrunning, takeOrder_register hrunning', handle_mapLines]
      show (if (exchange.handle [.register id peer]).isOpen = true then _ else _) = _
      dsimp only
      split <;> rfl
    | exited id => cases hstays
    | shutdown =>
      rw [takeOrder_shutdown hrunning, takeOrder_shutdown hrunning', beginClosing_mapLines]
  · have hrunning' : (exchange.mapLines f).phase ≠ .running := hrunning
    cases order with
    | register id peer =>
      rw [takeOrder_register_of_ne hrunning, takeOrder_register_of_ne hrunning', refuse_mapLines]
    | exited id => cases hstays
    | shutdown => rw [takeOrder_shutdown_of_ne hrunning, takeOrder_shutdown_of_ne hrunning']

theorem post_mapLines (order : Order) :
    ((exchange.mapLines f).post order).accepted? =
      (exchange.post order).accepted?.map (mapLines f) := by
  rw [accepted?_post, accepted?_post]
  show (if exchange.isOpen = true ∧ exchange.orders.length < exchange.orderCapacity then _ else _ :
    Option Exchange) = _
  split <;> rfl

end Exchange

namespace Activity

def mapLines (f : String → String) : Activity → Activity
  | handling events => handling (events.map (Event.mapLine f))
  | gathering round leaver => gathering (round.mapLines f) leaver

theorem mapLines_eq_nil {activity : Activity} :
    activity.mapLines f = handling [] ↔ activity = handling [] := by
  cases activity <;> simp [mapLines]

theorem exists_of_mapLines_eq {activity : Activity} {event : Event} {events : List Event}
    (h : activity.mapLines f = (handling (event :: events)).mapLines f) :
    ∃ event' events', activity = handling (event' :: events') ∧
      event'.mapLine f = event.mapLine f ∧
      (handling events').mapLines f = (handling events).mapLines f := by
  cases activity with
  | gathering round leaver => cases h
  | handling found =>
    cases found with
    | nil => cases h
    | cons event' events' =>
      obtain ⟨hevent, hevents⟩ := List.cons.inj (Activity.handling.inj h)
      exact ⟨event', events', rfl, hevent, congrArg handling hevents⟩

theorem gathering?_mapLines (activity : Activity) :
    (activity.mapLines f).gathering? =
      activity.gathering?.map fun (round, leaver) => (round.mapLines f, leaver) := by
  cases activity <;> rfl

theorem mapLines_handling_batch (round : Round) (leaver : Option ClientId) :
    (handling (round.batch.map Envelope.event ++ leaver.toList.map Event.exited)).mapLines f =
      handling ((round.mapLines f).batch.map Envelope.event ++ leaver.toList.map Event.exited) := by
  simp only [mapLines, List.map_append, List.map_map, Round.batch_mapLines, Function.comp_def,
    Envelope.event_mapLine]
  rfl

end Activity

def Choice.mapLine (f : String → String) : Choice → Choice
  | .write id line => .write id (f line)
  | choice => choice

def Happening.mapLine (f : String → String) : Happening → Happening
  | .forwarded id line => .forwarded id (f line)
  | .handled hub event => .handled hub (event.mapLine f)
  | .taken id line => .taken id line

theorem Exchange.map_announced (exchange : Exchange) (order : Order) :
    (exchange.announced order).map (Happening.mapLine f) = exchange.announced order := by
  unfold announced
  split <;> rfl

namespace Floor

variable {floor : Floor} {choice : Choice}

def mapLines (f : String → String) (floor : Floor) : Floor :=
  { floor with exchange := floor.exchange.mapLines f, activity := floor.activity.mapLines f }

theorem choose_mapLines (floor : Floor) (hchoice : choice ≠ .handle) :
    (floor.mapLines f).choose (choice.mapLine f) = (floor.choose choice).map fun outcome =>
      (outcome.1.map (Happening.mapLine f), outcome.2.mapLines f) := by
  cases choice
  case handle => exact absurd rfl hchoice
  all_goals simp only [choose, Choice.mapLine, Option.bind_eq_bind, Option.map_bind, Option.pure_def,
    Option.map_some, Option.bind_map, Function.comp_def, mapLines, Activity.mapLines_eq_nil,
    Activity.gathering?_mapLines, Exchange.intake_mapLines, Exchange.connect_mapLines,
    Exchange.post_mapLines, Exchange.refuse_mapLines, Exchange.beginClosing_mapLines,
    Posting.accepted?_map, Intake.write_mapLines, Intake.letGo_mapLines, Intake.ring_mapLines,
    Intake.hush_mapLines, Intake.isPrivate_mapLines, Intake.isAnnounced_mapLines,
    Intake.begin?_mapLines, Intake.gather_mapLines, Intake.conclude_mapLines,
    Option.map_eq_none_iff, Activity.mapLines_handling_batch, Exchange.map_announced]
  case order =>
    -- An exit, which would look into the intake, is not taken in this way.
    refine Option.bind_congr fun _ _ => Option.bind_congr fun _ _ =>
      Option.bind_congr fun next _ => Option.bind_congr fun _ hstays => ?_
    rw [← Exchange.takeOrder_mapLines (guard_eq_some.1 hstays)]
    rfl
  all_goals rfl

end Floor

end ChatRooms
