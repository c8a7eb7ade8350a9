import ChatRooms.Proofs.Exchange.Provenance
import ChatRooms.Proofs.Exchange.Schedule

namespace ChatRooms

open Std

/-- How a client's outbox in one exchange may compare with its outbox in another. -/
abbrev Likeness := ClientId → Option Outbox → Option Outbox → Prop

/-- What is done to an outbox by those who do not look into it. -/
inductive Outbox.Blind : (Outbox → Outbox) → Prop where
  | offer (line : String) : Blind (·.offer line)
  | hangUp : Blind hangUp
  | stopReading : Blind stopReading

/-- A likeness that is not lost when the same is done in both exchanges. -/
structure Likeness.Lasts (like : Likeness) : Prop where
  refl (id : ClientId) (outbox : Option Outbox) : like id outbox outbox
  map {id : ClientId} {change : Outbox → Outbox} {outbox outbox' : Option Outbox} :
    Outbox.Blind change → like id outbox outbox' → like id (outbox.map change) (outbox'.map change)

variable {like like' : Likeness} {id : ClientId} {order : Order} {change change' : Outbox → Outbox}

namespace Exchange

variable {exchange exchange' : Exchange}

/-- The same but for their outboxes, and the outboxes are alike. -/
def Matches (like : Likeness) (exchange exchange' : Exchange) : Prop :=
  ∃ outboxes, exchange' = { exchange with outboxes } ∧
    ∀ id, like id exchange.outboxes[id]? outboxes[id]?

namespace Matches

theorem hub (h : Matches like exchange exchange') : exchange'.hub = exchange.hub := by
  obtain ⟨outboxes, rfl, -⟩ := h
  rfl

theorem phase (h : Matches like exchange exchange') : exchange'.phase = exchange.phase := by
  obtain ⟨outboxes, rfl, -⟩ := h
  rfl

theorem isOpen (h : Matches like exchange exchange') : exchange'.isOpen = exchange.isOpen := by
  rw [Exchange.isOpen, h.phase, Exchange.isOpen]

theorem outboxes (h : Matches like exchange exchange') (id : ClientId) :
    like id exchange.outboxes[id]? exchange'.outboxes[id]? := by
  obtain ⟨outboxes, rfl, houtboxes⟩ := h
  exact houtboxes id

theorem mono (h : Matches like exchange exchange')
    (hlike : ∀ id outbox outbox', like id outbox outbox' → like' id outbox outbox') :
    Matches like' exchange exchange' := by
  obtain ⟨outboxes, rfl, houtboxes⟩ := h
  exact ⟨outboxes, rfl, fun id => hlike id _ _ (houtboxes id)⟩

theorem updateOutbox (h : Matches like exchange exchange') (id : ClientId)
    (hchange : ∀ outbox outbox', like id outbox outbox' →
      like id (outbox.map change) (outbox'.map change')) :
    Matches like (exchange.updateOutbox id change) (exchange'.updateOutbox id change') := by
  obtain ⟨outboxes, rfl, houtboxes⟩ := h
  refine ⟨_, rfl, fun other => ?_⟩
  rw [Exchange.updateOutbox, ExtTreeMap.getElem?_modify, ExtTreeMap.getElem?_modify]
  split
  next heq =>
    obtain rfl := Std.compare_eq_iff_eq.1 heq
    exact hchange _ _ (houtboxes id)
  next => exact houtboxes other

theorem congr (h : Matches like exchange exchange') (f : Exchange → Exchange)
    (hf : ∀ exchange outboxes, f { exchange with outboxes } = { f exchange with outboxes })
    (hkept : ∀ exchange, (f exchange).outboxes = exchange.outboxes) :
    Matches like (f exchange) (f exchange') := by
  obtain ⟨outboxes, rfl, houtboxes⟩ := h
  exact ⟨outboxes, hf exchange outboxes, fun id => by rw [hkept]; exact houtboxes id⟩

variable (hlike : like.Lasts)
include hlike

theorem connect (h : Matches like exchange exchange') (id : ClientId) (outbox : Outbox) :
    Matches like (exchange.connect id outbox) (exchange'.connect id outbox) := by
  obtain ⟨outboxes, rfl, houtboxes⟩ := h
  refine ⟨_, rfl, fun other => ?_⟩
  rw [Exchange.connect, ExtTreeMap.getElem?_insert, ExtTreeMap.getElem?_insert]
  split
  next => exact hlike.refl other _
  next => exact houtboxes other

theorem refuse (h : Matches like exchange exchange') (id : ClientId) :
    Matches like (exchange.refuse id) (exchange'.refuse id) :=
  (h.updateOutbox id fun _ _ => hlike.map .hangUp).congr (fun exchange => { exchange with
    intake := exchange.intake.withdraw id
    registrations := exchange.registrations.insert id .refused }) (fun _ _ => rfl) fun _ => rfl

theorem halt (h : Matches like exchange exchange') (phase : Phase) :
    Matches like (exchange.halt phase) (exchange'.halt phase) := by
  obtain ⟨outboxes, rfl, houtboxes⟩ := h
  refine ⟨_, rfl, fun other => ?_⟩
  rw [Exchange.halt, ExtTreeMap.getElem?_map, ExtTreeMap.getElem?_map]
  exact hlike.map .hangUp (houtboxes other)

theorem apply (h : Matches like exchange exchange') (effect : Effect) :
    Matches like (exchange.apply effect) (exchange'.apply effect) := by
  cases effect with
  | deliver id notice => exact h.updateOutbox id fun _ _ => hlike.map (.offer notice.line)
  | hangUp id => exact h.updateOutbox id fun _ _ => hlike.map .hangUp
  | attach | detach => exact h.congr (Exchange.apply · _) (fun _ _ => rfl) fun _ => rfl

theorem foldl_apply (h : Matches like exchange exchange') (effects : List Effect) :
    Matches like (effects.foldl Exchange.apply exchange)
      (effects.foldl Exchange.apply exchange') := by
  induction effects generalizing exchange exchange' with
  | nil => exact h
  | cons effect effects ih => exact ih (h.apply hlike effect)

theorem handle (h : Matches like exchange exchange') (events : List Event) :
    Matches like (exchange.handle events) (exchange'.handle events) := by
  rw [Exchange.handle, Exchange.handle, h.hub]
  cases exchange.hub.handleAll events with
  | error defect => exact h.halt hlike _
  | ok outcome =>
    have hafter := h.congr (fun exchange => { exchange with hub := outcome.1 })
      (fun _ _ => rfl) fun _ => rfl
    exact hafter.foldl_apply hlike outcome.2

theorem beginClosing (h : Matches like exchange exchange') :
    Matches like exchange.beginClosing exchange'.beginClosing :=
  (h.handle hlike [.shutdown]).congr (fun exchange => { exchange with
    phase := .closing (Clock.deadline exchange.clock exchange.patience) }) (fun _ _ => rfl) fun _ => rfl

theorem takeOrder (h : Matches like exchange exchange') (hstays : ∀ id, order ≠ .exited id) :
    Matches like (exchange.takeOrder order) (exchange'.takeOrder order) := by
  by_cases hrunning : exchange.phase = .running
  · have hrunning' := h.phase.trans hrunning
    cases order with
    | register id peer =>
      rw [takeOrder_register hrunning, takeOrder_register hrunning']
      refine (h.handle hlike [.register id peer]).congr (fun exchange => if exchange.isOpen then
        { exchange with registrations := exchange.registrations.insert id .accepted }
        else exchange) (fun exchange outboxes => ?_) fun exchange => ?_
      · show (if exchange.isOpen = true then _ else _) = _
        split <;> rfl
      · split <;> rfl
    | exited id => exact absurd rfl (hstays id)
    | shutdown =>
      rw [takeOrder_shutdown hrunning, takeOrder_shutdown hrunning']
      exact h.beginClosing hlike
  · have hrunning' : exchange'.phase ≠ .running := h.phase ▸ hrunning
    cases order with
    | register id peer =>
      rw [takeOrder_register_of_ne hrunning, takeOrder_register_of_ne hrunning']
      exact h.refuse hlike id
    | exited id => exact absurd rfl (hstays id)
    | shutdown =>
      rw [takeOrder_shutdown_of_ne hrunning, takeOrder_shutdown_of_ne hrunning']
      exact h

end Matches

end Exchange

/-- Whether whoever makes the choice has nothing to do with outboxes. -/
def Choice.sparesOutboxes : Choice → Bool
  | .connect _ _ | .giveUp _ | .take _ | .stopReading _ | .order | .handle | .close | .stop => false
  | _ => true

namespace Floor

variable {floor floor' after : Floor} {choice : Choice} {happenings : List Happening}

def withOutboxes (floor : Floor) (outboxes : ExtTreeMap ClientId Outbox) : Floor :=
  { floor with exchange := { floor.exchange with outboxes } }

theorem post_withOutboxes (floor : Floor) (outboxes : ExtTreeMap ClientId Outbox) :
    ((floor.withOutboxes outboxes).exchange.post order).accepted? =
      (floor.exchange.post order).accepted?.map fun exchange => { exchange with outboxes } := by
  rw [Exchange.accepted?_post, Exchange.accepted?_post]
  show (if floor.exchange.isOpen = true ∧ floor.exchange.orders.length < floor.exchange.orderCapacity
    then _ else _ : Option Exchange) = _
  split <;> rfl

theorem choose_withOutboxes (floor : Floor) (outboxes : ExtTreeMap ClientId Outbox)
    (hspares : choice.sparesOutboxes = true) :
    (floor.withOutboxes outboxes).choose choice =
      (floor.choose choice).map fun outcome => (outcome.1, outcome.2.withOutboxes outboxes) := by
  cases choice
  case connect | giveUp | take | stopReading | order | handle | close | stop => cases hspares
  all_goals simp only [choose, Option.bind_eq_bind, Option.map_bind, Option.pure_def,
    Option.map_some, Option.bind_map, Function.comp_def, post_withOutboxes]
  all_goals rfl

theorem outboxes_of_choose (hspares : choice.sparesOutboxes = true)
    (hchoose : floor.choose choice = some (happenings, after)) :
    after.exchange.outboxes = floor.exchange.outboxes := by
  have hsame := choose_withOutboxes floor floor.exchange.outboxes hspares
  have hrefl : floor.withOutboxes floor.exchange.outboxes = floor := rfl
  rw [hrefl, hchoose, Option.map_some, Option.some.injEq, Prod.mk.injEq] at hsame
  rw [hsame.2]
  rfl

def Matches (like : Likeness) (floor floor' : Floor) : Prop :=
  ∃ exchange, floor' = { floor with exchange } ∧ floor.exchange.Matches like exchange

theorem matches_iff : Matches like floor floor' ↔
    floor.exchange.Matches like floor'.exchange ∧ floor'.activity = floor.activity ∧
      floor'.holders = floor.holders ∧ floor'.ringers = floor.ringers := by
  constructor
  · rintro ⟨exchange, rfl, hexchange⟩
    exact ⟨hexchange, rfl, rfl, rfl⟩
  · obtain ⟨exchange, activity, holders, ringers⟩ := floor
    obtain ⟨exchange', activity', holders', ringers'⟩ := floor'
    rintro ⟨hexchange, rfl, rfl, rfl⟩
    exact ⟨exchange', rfl, hexchange⟩

theorem Matches.mono (h : Matches like floor floor')
    (hlike : ∀ id outbox outbox', like id outbox outbox' → like' id outbox outbox') :
    Matches like' floor floor' := by
  obtain ⟨exchange, rfl, hexchange⟩ := h
  exact ⟨exchange, rfl, hexchange.mono hlike⟩

/-- Whatever is done in one of them, but for taking a line, can be done in the other. -/
theorem Matches.choose (hlike : like.Lasts) (h : Matches like floor floor')
    (htake : ∀ id, choice ≠ .take id) (hchoose : floor.choose choice = some (happenings, after)) :
    ∃ after', floor'.choose choice = some (happenings, after') ∧ Matches like after after' := by
  obtain ⟨exchange, rfl, hexchange⟩ := h
  -- Most choices never look at an outbox, so they run alike whatever the outboxes hold.
  by_cases hspares : choice.sparesOutboxes = true
  · obtain ⟨outboxes, rfl, houtboxes⟩ := hexchange
    refine ⟨after.withOutboxes outboxes, ?_, _, rfl, outboxes, rfl, ?_⟩
    · have hsame := choose_withOutboxes floor outboxes hspares
      rwa [hchoose] at hsame
    · rwa [outboxes_of_choose hspares hchoose]
  · cases choice <;> simp only [Choice.sparesOutboxes, not_true] at hspares <;>
      simp only [Floor.choose, Option.bind_eq_bind, Option.bind_eq_some_iff, guard_eq_some,
        exists_const, Option.pure_def, Option.some.injEq, Prod.mk.injEq, Prod.exists,
        uncons?_eq_some] at hchoose ⊢
    case connect id capacity =>
      obtain ⟨hnew, outbox, houtbox, rfl, rfl⟩ := hchoose
      have hconnect := hexchange.connect hlike id outbox
      obtain ⟨outboxes, rfl, -⟩ := hexchange
      exact ⟨_, ⟨hnew, outbox, houtbox, rfl, rfl⟩, _, rfl, hconnect⟩
    case giveUp id =>
      obtain ⟨hpending, hunasked, rfl, rfl⟩ := hchoose
      have hrefuse := hexchange.refuse hlike id
      obtain ⟨outboxes, rfl, -⟩ := hexchange
      exact ⟨_, ⟨hpending, hunasked, rfl, rfl⟩, _, rfl, hrefuse⟩
    case take id => exact absurd rfl (htake id)
    case stopReading id =>
      obtain ⟨rfl, rfl⟩ := hchoose
      exact ⟨_, ⟨rfl, rfl⟩, _, rfl,
        hexchange.updateOutbox id fun _ _ => hlike.map .stopReading⟩
    case order =>
      obtain ⟨hfree, hready, order, orders, horders, hstays, rfl, rfl⟩ := hchoose
      have hrest := hexchange.congr (fun exchange => { exchange with orders })
        (fun _ _ => rfl) fun _ => rfl
      have hafter := hrest.takeOrder hlike (Order.leaver?_eq_none.1 hstays)
      obtain ⟨outboxes, rfl, -⟩ := hexchange
      exact ⟨_, ⟨hfree, hready, order, orders, horders, hstays, rfl, rfl⟩, _, rfl, hafter⟩
    case handle =>
      obtain ⟨event, events, hevents, hopen, rfl, rfl⟩ := hchoose
      have hhandle := hexchange.handle hlike [event]
      obtain ⟨outboxes, rfl, -⟩ := hexchange
      exact ⟨_, ⟨event, events, hevents, hopen, rfl, rfl⟩, _, rfl, hhandle⟩
    case close =>
      obtain ⟨hfree, hphase, horders, hhandles, rfl, rfl⟩ := hchoose
      have hclose := hexchange.beginClosing hlike
      obtain ⟨outboxes, rfl, -⟩ := hexchange
      exact ⟨_, ⟨hfree, hphase, horders, hhandles, rfl, rfl⟩, _, rfl, hclose⟩
    case stop =>
      obtain ⟨hfree, deadline, hphase, hover, rfl, rfl⟩ := hchoose
      have hhalt := hexchange.halt hlike .stopped
      obtain ⟨outboxes, rfl, -⟩ := hexchange
      exact ⟨_, ⟨hfree, deadline, hphase, hover, rfl, rfl⟩, _, rfl, hhalt⟩

theorem Matches.take (hlike : like.Lasts) (h : Matches like floor floor')
    (hequal : ∀ outbox outbox', like id outbox outbox' → outbox' = outbox)
    (hchoose : floor.choose (.take id) = some (happenings, after)) :
    ∃ after', floor'.choose (.take id) = some (happenings, after') ∧ Matches like after after' := by
  obtain ⟨outbox, outbox', line, houtbox, htaking, rfl, rfl⟩ := choose_take_eq_some.1 hchoose
  obtain ⟨hexchange, hactivity, hholders, hringers⟩ := matches_iff.1 h
  have hsame := (hequal _ _ (hexchange.outboxes id)).trans houtbox
  refine ⟨_, choose_take_eq_some.2 ⟨outbox, outbox', line, hsame, htaking, rfl, rfl⟩,
    matches_iff.2 ⟨?_, hactivity, hholders, hringers⟩⟩
  refine hexchange.updateOutbox id fun first first' hfirst => ?_
  rw [hequal first first' hfirst]
  exact hlike.refl id _

end Floor

end ChatRooms
