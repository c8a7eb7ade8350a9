import ChatRooms.Exchange
import ChatRooms.Proofs.Hub.Hearing

namespace ChatRooms

open Std

namespace Outbox

variable {outbox outbox' : Outbox} {line : String} {lines : List String}

/-- Queues the lines in order, unless one of them is refused. -/
def sendAll (outbox : Outbox) : List String → Except Undeliverable Outbox
  | [] => .ok outbox
  | line :: lines =>
    match outbox.send line with
    | .ok outbox => outbox.sendAll lines
    | .error cause => .error cause

theorem lines_of_send (h : outbox.send line = .ok outbox') :
    outbox'.lines = outbox.lines ++ [line] := by
  unfold send at h
  split at h
  next => cases h
  next =>
    split at h
    next => cases h
    next =>
      obtain rfl := Except.ok.inj h
      rfl

theorem lines_of_sendAll (h : outbox.sendAll lines = .ok outbox') :
    outbox'.lines = outbox.lines ++ lines := by
  induction lines generalizing outbox with
  | nil =>
    obtain rfl := Except.ok.inj h
    exact (List.append_nil _).symm
  | cons line lines ih =>
    unfold sendAll at h
    split at h
    next after hsend => rw [ih h, lines_of_send hsend, List.append_assoc, List.singleton_append]
    next => cases h

theorem sendAll_append {more : List String} (h : outbox.sendAll (lines ++ more) = .ok outbox') :
    ∃ between, outbox.sendAll lines = .ok between ∧ between.sendAll more = .ok outbox' := by
  induction lines generalizing outbox with
  | nil => exact ⟨outbox, rfl, h⟩
  | cons line lines ih =>
    rw [List.cons_append, sendAll] at h
    cases hsend : outbox.send line with
    | error cause =>
      rw [hsend] at h
      cases h
    | ok after =>
      rw [hsend] at h
      obtain ⟨between, hlines, hmore⟩ := ih h
      refine ⟨between, ?_, hmore⟩
      rw [sendAll, hsend]
      exact hlines

theorem lines_of_take (h : outbox.take = (outbox', .line line)) :
    outbox.lines = line :: outbox'.lines := by
  unfold take at h
  split at h
  next => cases h
  next =>
    split at h
    next first rest hlines =>
      obtain ⟨rfl, hline⟩ := Prod.mk.inj h
      rw [hlines, Taken.line.inj hline]
    next => split at h <;> cases h

def absorb (id : ClientId) (outbox : Outbox) : Effect → Outbox
  | .deliver other notice => if other = id then outbox.offer notice.line else outbox
  | .hangUp other => if other = id then outbox.hangUp else outbox
  | .attach _ | .detach _ => outbox

/-- If nothing is refused, the outbox ends up with every line that was meant for it. -/
theorem foldl_absorb {id : ClientId} {effects : List Effect} (hheld : Effect.hangUp id ∉ effects)
    (h : outbox.sendAll ((noticesFor id effects).map Notice.line) = .ok outbox') :
    effects.foldl (absorb id) outbox = outbox' := by
  induction effects generalizing outbox with
  | nil => exact Except.ok.inj h
  | cons effect effects ih =>
    have hrest : Effect.hangUp id ∉ effects := fun hmem => hheld (List.mem_cons_of_mem _ hmem)
    rw [List.foldl_cons]
    cases effect with
    | deliver other notice =>
      by_cases hid : other = id
      · subst hid
        rw [Hub.noticesFor_deliver_self, List.map_cons, sendAll] at h
        split at h
        next after hsend =>
          rw [absorb, if_pos rfl, offer, hsend]
          exact ih hrest h
        next => cases h
      · rw [Hub.noticesFor_deliver_of_ne hid] at h
        rw [absorb, if_neg hid]
        exact ih hrest h
    | hangUp other =>
      have hid : other ≠ id := fun hid => hheld (hid ▸ List.mem_cons_self)
      rw [absorb, if_neg hid]
      exact ih hrest h
    | attach | detach => exact ih hrest h

end Outbox

def Intake.absorb (intake : Intake) : Effect → Intake
  | .attach id => intake.attach id
  | .detach id => intake.detach id
  | .deliver _ _ | .hangUp _ => intake

namespace Exchange

variable {exchange : Exchange} {effects : List Effect} {event : Event} {events : List Event}
  {hub : Hub}

theorem getElem?_updateOutbox (id other : ClientId) (change : Outbox → Outbox) :
    (exchange.updateOutbox other change).outboxes[id]? =
      if other = id then exchange.outboxes[id]?.map change else exchange.outboxes[id]? := by
  rw [updateOutbox, ExtTreeMap.getElem?_modify]
  simp only [Std.compare_eq_iff_eq]
  split
  next heq => rw [heq]
  next => rfl

theorem apply_hub (effect : Effect) : (exchange.apply effect).hub = exchange.hub := by
  cases effect <;> rfl

theorem foldl_apply_hub : (effects.foldl apply exchange).hub = exchange.hub := by
  induction effects generalizing exchange with
  | nil => rfl
  | cons effect effects ih => rw [List.foldl_cons, ih, apply_hub]

theorem getElem?_outboxes_apply (id : ClientId) (effect : Effect) :
    (exchange.apply effect).outboxes[id]? = exchange.outboxes[id]?.map (·.absorb id effect) := by
  cases effect with
  | deliver other notice =>
    rw [apply, getElem?_updateOutbox]
    split <;> simp [Outbox.absorb, *]
  | hangUp other =>
    rw [apply, getElem?_updateOutbox]
    split <;> simp [Outbox.absorb, *]
  | attach | detach => simp [apply, Outbox.absorb]

theorem getElem?_outboxes_foldl_apply (id : ClientId) :
    (effects.foldl apply exchange).outboxes[id]? =
      exchange.outboxes[id]?.map fun outbox => effects.foldl (Outbox.absorb id) outbox := by
  induction effects generalizing exchange with
  | nil => simp
  | cons effect effects ih =>
    rw [List.foldl_cons, ih, getElem?_outboxes_apply, Option.map_map]
    rfl

theorem handleAll_singleton : hub.handleAll [event] = hub.handle event := by
  rw [Hub.handleAll]
  cases hub.handle event with
  | error defect => rfl
  | ok after =>
    obtain ⟨after, effects⟩ := after
    show Except.ok (after, effects ++ []) = _
    rw [List.append_nil]

theorem handleAll_cons_eq_ok {effects : List Effect} {after : Hub}
    (h : hub.handleAll (event :: events) = .ok (after, effects)) :
    ∃ between first more, hub.handle event = .ok (between, first) ∧
      between.handleAll events = .ok (after, more) ∧ effects = first ++ more := by
  rw [Hub.handleAll] at h
  cases hfirst : hub.handle event with
  | error defect =>
    rw [hfirst] at h
    cases h
  | ok found =>
    obtain ⟨between, first⟩ := found
    rw [hfirst] at h
    cases hmore : between.handleAll events with
    | error defect =>
      simp only [bind, Except.bind, hmore] at h
      cases h
    | ok rest =>
      simp only [bind, Except.bind, hmore, pure, Except.pure, Except.ok.injEq, Prod.mk.injEq] at h
      obtain ⟨rfl, rfl⟩ := h
      exact ⟨between, first, rest.2, rfl, hmore, rfl⟩

theorem handle_singleton (h : exchange.hub.handle event = .ok (hub, effects)) :
    exchange.handle [event] = effects.foldl apply { exchange with hub } := by
  rw [handle, handleAll_singleton, h]

theorem getElem?_outboxes_handle (h : exchange.hub.handle event = .ok (hub, effects)) (id : ClientId) :
    (exchange.handle [event]).outboxes[id]? =
      exchange.outboxes[id]?.map fun outbox => effects.foldl (Outbox.absorb id) outbox := by
  rw [handle_singleton h, getElem?_outboxes_foldl_apply]

theorem foldl_apply_with_hub (hub : Hub) :
    effects.foldl apply { exchange with hub } = { effects.foldl apply exchange with hub } := by
  induction effects generalizing exchange with
  | nil => rfl
  | cons effect effects ih =>
    have hone : apply { exchange with hub } effect = { exchange.apply effect with hub } := by
      cases effect <;> rfl
    rw [List.foldl_cons, List.foldl_cons, hone, ih]

theorem handle_cons {between : Hub} {first more : List Effect}
    (hfirst : exchange.hub.handle event = .ok (between, first))
    (hmore : between.handleAll events = .ok (hub, more)) :
    exchange.handle (event :: events) = (exchange.handle [event]).handle events := by
  have hall : exchange.hub.handleAll (event :: events) = .ok (hub, first ++ more) := by
    simp only [Hub.handleAll, hfirst, bind, Except.bind, hmore, pure, Except.pure]
  have hbetween : (first.foldl apply { exchange with hub := between }).hub = between :=
    foldl_apply_hub
  rw [handle_singleton hfirst, handle, handle, hall, hbetween, hmore]
  dsimp only
  -- No effect looks at the hub, so it does not matter which hub stands there meanwhile.
  rw [List.foldl_append, foldl_apply_with_hub hub, foldl_apply_with_hub between]

end Exchange

end ChatRooms
