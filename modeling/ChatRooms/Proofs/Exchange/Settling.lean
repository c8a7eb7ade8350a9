import ChatRooms.Proofs.Exchange.Delivery
import ChatRooms.Proofs.Intake.Sweep

namespace ChatRooms

open Std

/-- The phases that are still to come. -/
def Phase.remaining : Phase → Nat
  | running => 2
  | closing _ => 1
  | stopped | failed _ => 0

namespace Intake

variable {intake after : Intake} {batch : List Envelope} {effects : List Effect}

theorem isAnnounced_absorb (effect : Effect) :
    (intake.absorb effect).isAnnounced = intake.isAnnounced := by
  cases effect with
  | deliver | hangUp => rfl
  | detach id => cases intake <;> rfl
  | attach id =>
    cases intake with
    | addressed queue => rfl
    | sweep sweeper offered =>
      rw [absorb, attach]
      split <;> rfl

theorem isAnnounced_withdraw (id : ClientId) :
    (intake.withdraw id).isAnnounced = intake.isAnnounced := by
  cases intake <;> rfl

theorem isAnnounced_drain (h : intake.drain.1.isAnnounced = true) : intake.isAnnounced = true := by
  cases intake with
  | addressed queue => cases h
  | sweep sweeper offered => exact Sweeper.isRung_sweep.symm.trans h

theorem isAnnounced_next? (h : intake.next? = some (after, batch)) :
    intake.isAnnounced = true ∧ after.isAnnounced = false := by
  cases intake with
  | addressed queue =>
    rw [next?] at h
    split at h
    next => cases h
    next hne =>
      obtain ⟨rfl, -⟩ := Prod.mk.inj (Option.some.inj h)
      exact ⟨by rw [isAnnounced, Bool.not_eq_true', ← Bool.not_eq_true]; exact hne, rfl⟩
  | sweep sweeper offered =>
    rw [next?, Sweeper.answer] at h
    split at h
    next hrung =>
      obtain ⟨rfl, -⟩ := Prod.mk.inj (Option.some.inj h)
      exact ⟨hrung, Sweeper.isRung_sweep⟩
    next => cases h

end Intake

namespace Exchange

variable {exchange exchange' : Exchange} {effects : List Effect} {events : List Event} {id : ClientId}

/-- Nothing is left to be done that was not there before. -/
structure Follows (exchange' exchange : Exchange) : Prop where
  orders : exchange'.orders.length ≤ exchange.orders.length
  isAnnounced : exchange'.intake.isAnnounced = true → exchange.intake.isAnnounced = true
  phase : exchange'.phase.remaining ≤ exchange.phase.remaining

theorem pending_eq : exchange.pending = exchange.orders.length +
    (if exchange.intake.isAnnounced then 1 else 0) + exchange.phase.remaining := by
  rw [pending]
  cases exchange.phase <;> rfl

theorem Follows.pending_le (h : exchange'.Follows exchange) :
    exchange'.pending ≤ exchange.pending := by
  obtain ⟨horders, hannounced, hphase⟩ := h
  rw [pending_eq, pending_eq]
  split <;> split <;> first | omega | simp_all

theorem foldl_apply_orders : (effects.foldl apply exchange).orders = exchange.orders ∧
    (effects.foldl apply exchange).phase = exchange.phase ∧
    (effects.foldl apply exchange).intake = effects.foldl Intake.absorb exchange.intake := by
  induction effects generalizing exchange with
  | nil => exact ⟨rfl, rfl, rfl⟩
  | cons effect effects ih =>
    rw [List.foldl_cons, List.foldl_cons]
    have hone : (exchange.apply effect).orders = exchange.orders ∧
        (exchange.apply effect).phase = exchange.phase ∧
        (exchange.apply effect).intake = exchange.intake.absorb effect := by
      cases effect <;> exact ⟨rfl, rfl, rfl⟩
    obtain ⟨horders, hphase, hintake⟩ := @ih (exchange.apply effect)
    rw [horders, hphase, hintake, hone.1, hone.2.1, hone.2.2]
    exact ⟨rfl, rfl, rfl⟩

theorem isAnnounced_foldl_absorb (intake : Intake) :
    (effects.foldl Intake.absorb intake).isAnnounced = intake.isAnnounced := by
  induction effects generalizing intake with
  | nil => rfl
  | cons effect effects ih => rw [List.foldl_cons, ih, Intake.isAnnounced_absorb]

theorem follows_handle (exchange : Exchange) (events : List Event) :
    (exchange.handle events).Follows exchange := by
  rw [handle]
  split
  next hub effects _ =>
    obtain ⟨horders, hphase, hintake⟩ := @foldl_apply_orders { exchange with hub } effects
    refine ⟨Nat.le_of_eq (congrArg List.length horders), ?_,
      Nat.le_of_eq (congrArg Phase.remaining hphase)⟩
    rw [hintake, isAnnounced_foldl_absorb]
    exact fun h => h
  next => exact ⟨Nat.zero_le _, fun h => h, Nat.zero_le _⟩

theorem Follows.trans {exchange'' : Exchange} (h : exchange''.Follows exchange')
    (h' : exchange'.Follows exchange) : exchange''.Follows exchange where
  orders := Nat.le_trans h.orders h'.orders
  isAnnounced := fun hannounced => h'.isAnnounced (h.isAnnounced hannounced)
  phase := Nat.le_trans h.phase h'.phase

theorem pending_beginClosing_lt (h : exchange.phase = .running) :
    exchange.beginClosing.pending < exchange.pending := by
  have hfollows := follows_handle exchange [.shutdown]
  have hphase : exchange.beginClosing.phase.remaining = 1 := rfl
  have horders : exchange.beginClosing.orders.length ≤ exchange.orders.length := hfollows.orders
  have hannounced : exchange.beginClosing.intake.isAnnounced = true →
      exchange.intake.isAnnounced = true := hfollows.isAnnounced
  rw [pending_eq, pending_eq, hphase, h, Phase.remaining]
  split <;> split <;> first | omega | simp_all

theorem follows_takeOrder (exchange : Exchange) (order : Order) :
    (exchange.takeOrder order).Follows exchange := by
  unfold takeOrder
  split
  next id peer hrunning =>
    have hfollows := follows_handle exchange [.register id peer]
    dsimp only
    split
    next => exact ⟨hfollows.orders, hfollows.isAnnounced, hfollows.phase⟩
    next => exact hfollows
  next _ id _ _ =>
    refine ⟨Nat.le_refl _, ?_, Nat.le_refl _⟩
    show (exchange.intake.withdraw id).isAnnounced = true → _
    rw [Intake.isAnnounced_withdraw]
    exact fun h => h
  next id _ =>
    -- Draining for an exit may leave the bell as it was, but does not ring it.
    have hdrained : ({ exchange with intake := exchange.intake.drain.1 } : Exchange).Follows
        exchange := ⟨Nat.le_refl _, Intake.isAnnounced_drain, Nat.le_refl _⟩
    exact (follows_handle _ _).trans hdrained
  next hrunning =>
    have hfollows := follows_handle exchange [.shutdown]
    exact ⟨hfollows.orders, hfollows.isAnnounced, by rw [hrunning]; exact Nat.le_succ 1⟩
  next => exact ⟨Nat.le_refl _, fun h => h, Nat.le_refl _⟩

theorem pending_takeNext?_lt (h : exchange.takeNext? = some exchange') :
    exchange'.pending < exchange.pending := by
  unfold takeNext? at h
  split at h
  next order orders horders =>
    obtain rfl := Option.some.inj h
    have hle := (follows_takeOrder { exchange with orders } order).pending_le
    refine Nat.lt_of_le_of_lt hle ?_
    rw [pending_eq, pending_eq, horders, List.length_cons]
    dsimp only
    omega
  next =>
    obtain ⟨⟨intake, batch⟩, hnext, rfl⟩ := Option.map_eq_some_iff.1 h
    obtain ⟨hbefore, hafter⟩ := Intake.isAnnounced_next? hnext
    have hle := (follows_handle { exchange with intake }
      (batch.map Envelope.event)).pending_le
    refine Nat.lt_of_le_of_lt hle ?_
    rw [pending_eq, pending_eq, hbefore, if_pos rfl]
    dsimp only
    rw [hafter, if_neg Bool.false_ne_true]
    omega

theorem pending_advance_lt (h : exchange.advance = some exchange') :
    exchange'.pending < exchange.pending := by
  unfold advance at h
  split at h
  next hrunning =>
    split at h
    next =>
      obtain rfl := Option.some.inj h
      exact pending_beginClosing_lt hrunning
    next => exact pending_takeNext?_lt h
  next deadline hclosing =>
    split at h
    next =>
      obtain rfl := Option.some.inj h
      rw [pending_eq, pending_eq, hclosing]
      show 0 + (if exchange.intake.isAnnounced then 1 else 0) + 0 < _ + _ + 1
      omega
    next => exact pending_takeNext?_lt h
  next => cases h
  next => cases h

theorem settleWithin_of_advance_eq_none (h : exchange.advance = none) (steps : Nat) :
    settleWithin steps exchange = exchange := by
  cases steps with
  | zero => rfl
  | succ steps => rw [settleWithin, h]

theorem settleWithin_eq {m n : Nat} (hm : exchange.pending ≤ m) (hn : exchange.pending ≤ n) :
    settleWithin m exchange = settleWithin n exchange := by
  -- On one bound. Every step of the hub uses up some of what is pending, so neither is met.
  induction m generalizing exchange n with
  | zero =>
    cases hadvance : exchange.advance with
    | none => rw [settleWithin_of_advance_eq_none hadvance, settleWithin_of_advance_eq_none hadvance]
    | some after => exact absurd (pending_advance_lt hadvance) (by omega)
  | succ m ih =>
    cases hadvance : exchange.advance with
    | none => rw [settleWithin_of_advance_eq_none hadvance, settleWithin_of_advance_eq_none hadvance]
    | some after =>
      have hlt := pending_advance_lt hadvance
      cases n with
      | zero => omega
      | succ n =>
        rw [settleWithin, settleWithin, hadvance]
        exact ih (by omega) (by omega)

theorem settle_of_advance_eq_none (h : exchange.advance = none) : exchange.settle = exchange :=
  settleWithin_of_advance_eq_none h _

theorem settle_of_advance (h : exchange.advance = some exchange') :
    exchange.settle = exchange'.settle := by
  have hlt := pending_advance_lt h
  rw [settle, settleWithin_eq (Nat.le_refl _) (Nat.le_succ_of_le (Nat.le_refl _)), settleWithin, h]
  exact settleWithin_eq (Nat.le_of_lt hlt) (Nat.le_refl _)

theorem advance_settle (exchange : Exchange) : exchange.settle.advance = none := by
  have hrest : ∀ steps (exchange : Exchange), exchange.pending ≤ steps →
      (settleWithin steps exchange).advance = none := by
    intro steps
    induction steps with
    | zero =>
      intro exchange hle
      cases hadvance : exchange.advance with
      | none => exact hadvance
      | some after => exact absurd (pending_advance_lt hadvance) (by omega)
    | succ steps ih =>
      intro exchange hle
      cases hadvance : exchange.advance with
      | none =>
        rw [settleWithin, hadvance]
        exact hadvance
      | some after =>
        have hlt := pending_advance_lt hadvance
        rw [settleWithin, hadvance]
        exact ih after (by omega)
  exact hrest _ exchange (Nat.le_refl _)

end Exchange

end ChatRooms
