import ChatRooms.Proofs.Exchange.Offers
import ChatRooms.Proofs.Exchange.Passage
import ChatRooms.Proofs.Exchange.Reclaim

namespace ChatRooms

open Std

namespace Exchange

/-- What can happen when the hub takes an order other than an exit, and what comes of it. -/
inductive Obeys (exchange : Exchange) : Order → List Happening → Exchange → Prop where
  | registered {id : ClientId} {peer : Option SocketAddress} {hub : Hub} {effects : List Effect}
      {outboxes : ExtTreeMap ClientId Outbox}
      (hhandle : exchange.hub.handle (.register id peer) = .ok (hub, effects))
      (houtboxes : outboxes = (exchange.handle [.register id peer]).outboxes) :
      Obeys exchange (.register id peer) [.handled exchange.hub (.register id peer)] { exchange with
        hub, outboxes
        intake := effects.foldl Intake.absorb exchange.intake
        registrations := exchange.registrations.insert id .accepted }
  | failed {id : ClientId} {peer : Option SocketAddress} {defect : Defect}
      (hfailed : exchange.hub.handle (.register id peer) = .error defect) :
      Obeys exchange (.register id peer) [.handled exchange.hub (.register id peer)]
        (exchange.halt (.failed defect))
  | refused (id : ClientId) (peer : Option SocketAddress) :
      Obeys exchange (.register id peer) [] (exchange.refuse id)
  | closing : Obeys exchange .shutdown [.handled exchange.hub .shutdown] exchange.beginClosing
  /-- It is closing already. -/
  | ignored : Obeys exchange .shutdown [] exchange

variable {exchange : Exchange} {order : Order} {orders : List Order}

theorem obeys_takeOrder (hstays : ∀ id, order ≠ .exited id) :
    Obeys { exchange with orders } order (exchange.announced order)
      ({ exchange with orders }.takeOrder order) := by
  by_cases hphase : exchange.phase = .running
  · cases order with
    | register id peer =>
      rw [announced_register hphase, takeOrder_register (by exact hphase)]
      dsimp only
      rcases handle_eq { exchange with orders } (.register id peer) with
        ⟨hub, effects, outboxes, hhandle, heq⟩ | ⟨defect, hfailed, heq⟩
      · have hopen : (handle { exchange with orders } [.register id peer]).isOpen = true := by
          rw [heq, isOpen]
          dsimp only
          rw [hphase]
        have houtboxes : outboxes = (handle { exchange with orders } [.register id peer]).outboxes := by
          rw [heq]
        rw [if_pos hopen, heq]
        exact .registered hhandle houtboxes
      · rw [heq, if_neg (by simp [isOpen, halt])]
        exact .failed hfailed
    | exited id => exact absurd rfl (hstays id)
    | shutdown =>
      rw [announced_shutdown hphase, takeOrder_shutdown (by exact hphase)]
      exact .closing
  · rw [announced_of_ne hphase]
    cases order with
    | register id peer =>
      rw [takeOrder_register_of_ne (by exact hphase)]
      exact .refused id peer
    | exited id => exact absurd rfl (hstays id)
    | shutdown =>
      rw [takeOrder_shutdown_of_ne (by exact hphase)]
      exact .ignored

theorem Obeys.lines_eq_nil {happenings : List Happening} {exchange' : Exchange}
    (h : Obeys exchange order happenings exchange') (id : ClientId) :
    forwardedLines id happenings = [] ∧ handledLines id happenings = [] := by
  cases h <;> exact ⟨rfl, rfl⟩

theorem Spares.welcome {id other : ClientId} {peer : Option SocketAddress} {goes : Prop} {hub : Hub}
    {effects : List Effect} (outboxes : ExtTreeMap ClientId Outbox)
    (hintact : exchange.hub.directory.Intact)
    (hhandle : exchange.hub.handle (.register other peer) = .ok (hub, effects)) (hne : other ≠ id) :
    Spares id goes exchange { exchange with
      hub, outboxes
      intake := effects.foldl Intake.absorb exchange.intake
      registrations := exchange.registrations.insert other .accepted } := by
  have hstep := Hub.steps_of_handle hhandle
  have hsame : (exchange.registrations.insert other .accepted)[id]? = exchange.registrations[id]? :=
    Maps.getElem?_insert_of_ne hne
  refine ⟨fun hnone => hsame ▸ hnone, hsame ▸ Iff.rfl, fun hid => Or.inl ?_, fun hmem => hmem, _, _,
    Or.inl rfl, Or.inl rfl, ?_⟩
  · exact (hstep.mem_occupants_iff hintact).2 (Or.inr ⟨hid, by simp, by simp⟩)
  · show (effects.foldl Intake.absorb exchange.intake).holding id = _
    rw [hstep.foldl_absorb]
    exact Intake.holding_attach_of_ne hne

end Exchange

end ChatRooms
