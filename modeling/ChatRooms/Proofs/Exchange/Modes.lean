import ChatRooms.Proofs.Exchange.Deed

namespace ChatRooms.Exchange

open Std

variable {exchange other addressed sweep : Exchange} {settings : Settings} {deed : Deed}
  {event : Event} {id : ClientId} {mode : IntakeMode}

/-- Two exchanges that differ at most in how they hear of what workers report. -/
def Alike (exchange other : Exchange) : Prop :=
  ∃ intake, other = { exchange with intake }

namespace Alike

theorem isOpen_eq (h : exchange.Alike other) : other.isOpen = exchange.isOpen := by
  obtain ⟨intake, rfl⟩ := h
  rfl

theorem halt (h : exchange.Alike other) (phase : Phase) :
    (exchange.halt phase).Alike (other.halt phase) := by
  obtain ⟨intake, rfl⟩ := h
  exact ⟨intake, rfl⟩

theorem refuse (h : exchange.Alike other) (id : ClientId) :
    (exchange.refuse id).Alike (other.refuse id) := by
  obtain ⟨intake, rfl⟩ := h
  exact ⟨_, rfl⟩

theorem connect (h : exchange.Alike other) (id : ClientId) (outbox : Outbox) :
    (exchange.connect id outbox).Alike (other.connect id outbox) := by
  obtain ⟨intake, rfl⟩ := h
  exact ⟨_, rfl⟩

theorem handle (h : exchange.Alike other) (event : Event) :
    (exchange.handle [event]).Alike (other.handle [event]) := by
  obtain ⟨intake, rfl⟩ := h
  rcases handle_event exchange event with ⟨hub, effects, outboxes, -, heq⟩ | ⟨defect, -, heq⟩
  · rw [heq intake, show exchange.handle [event] = _ from heq exchange.intake]
    exact ⟨_, rfl⟩
  · rw [heq intake, show exchange.handle [event] = _ from heq exchange.intake]
    exact ⟨_, rfl⟩

theorem takeOrder_register (h : exchange.Alike other) (id : ClientId)
    (peer : Option SocketAddress) :
    (exchange.takeOrder (.register id peer)).Alike (other.takeOrder (.register id peer)) := by
  have hphase : other.phase = exchange.phase := by
    obtain ⟨intake, rfl⟩ := h
    rfl
  by_cases hrunning : exchange.phase = .running
  · rw [Exchange.takeOrder_register hrunning, Exchange.takeOrder_register (hphase.trans hrunning)]
    have hafter := h.handle (.register id peer)
    dsimp only
    rw [hafter.isOpen_eq]
    split
    next =>
      obtain ⟨intake, heq⟩ := hafter
      rw [heq]
      exact ⟨intake, rfl⟩
    next => exact hafter
  · rw [takeOrder_register_of_ne hrunning, takeOrder_register_of_ne (hphase ▸ hrunning)]
    exact h.refuse id

theorem takeOrder_shutdown (h : exchange.Alike other) :
    (exchange.takeOrder .shutdown).Alike (other.takeOrder .shutdown) := by
  have hphase : other.phase = exchange.phase := by
    obtain ⟨intake, rfl⟩ := h
    rfl
  by_cases hrunning : exchange.phase = .running
  · rw [Exchange.takeOrder_shutdown hrunning, Exchange.takeOrder_shutdown (hphase.trans hrunning)]
    obtain ⟨intake, heq⟩ := h.handle .shutdown
    obtain ⟨before, rfl⟩ := h
    rw [beginClosing, beginClosing, heq]
    exact ⟨intake, rfl⟩
  · rw [takeOrder_shutdown_of_ne hrunning, takeOrder_shutdown_of_ne (hphase ▸ hrunning)]
    exact h

theorem respond (h : exchange.Alike other) (deed : Deed) :
    (exchange.respond deed).Alike (other.respond deed) := by
  cases deed with
  | register id queue peer => exact (h.connect id _).takeOrder_register id peer
  | forward | close | abandon | exit => exact h.handle _
  | shutdown => exact h.takeOrder_shutdown
  | stopReading | read | pass =>
    obtain ⟨intake, rfl⟩ := h
    exact ⟨intake, rfl⟩

theorem finish (h : exchange.Alike other) : exchange.finish.Alike other.finish := by
  obtain ⟨intake, rfl⟩ := h
  refine ⟨intake, ?_⟩
  obtain ⟨_, _, _, _, _, _, phase, _, _, _⟩ := exchange
  unfold Exchange.finish
  cases phase with
  | closing deadline =>
    dsimp only
    split <;> rfl
  | running | stopped | failed => rfl

end Alike

/-- Whatever is put into a queue has a place there. -/
def promptly (exchange : Exchange) : Deed → Finding
  | .register _ _ _ | .forward _ _ | .close _ | .exit _ | .shutdown => .posted (.accepted ())
  | .abandon _ | .stopReading _ | .pass _ => .nothing
  | .read id => .taken (exchange.outboxes[id]?.map fun outbox => outbox.take.2)

theorem Idle.begin_snd (h : exchange.Idle mode) (hopen : exchange.isOpen = true)
    (hheard : ∀ id line, deed = .forward id line → mode = .sweep →
      id ∈ exchange.hub.directory.occupants) :
    (exchange.begin deed).2 = exchange.promptly deed := by
  cases deed with
  | register id queue peer =>
    rw [begin, post_of_idle (by exact hopen) (by exact h.orders) (by exact h.orderCapacity)]
    rfl
  | forward id line =>
    obtain ⟨after, hforward, -⟩ := Intake.next?_of_forward h.orderCapacity (hheard id line rfl)
    rw [begin, forward, if_pos hopen, h.intake, hforward]
    rfl
  | close id =>
    obtain ⟨after, -, hclose, -⟩ :=
      Intake.next?_of_close h.orderCapacity mode exchange.hub.directory id
    rw [begin, close, if_pos hopen, h.intake, hclose]
    rfl
  | exit id =>
    rw [begin, post_of_idle hopen h.orders h.orderCapacity]
    rfl
  | shutdown =>
    rw [begin, post_of_idle hopen h.orders h.orderCapacity]
    rfl
  | abandon | stopReading | read | pass => rfl

theorem post_of_closed (hclosed : exchange.isOpen = false) (order : Order) :
    exchange.post order = .closed := by
  rw [post, hclosed]
  rfl

theorem Alike.begin_of_closed (h : exchange.Alike other) (hclosed : exchange.isOpen = false)
    (deed : Deed) : (exchange.begin deed).1.Alike (other.begin deed).1 ∧
      (exchange.begin deed).2 = (other.begin deed).2 := by
  have hother : other.isOpen = false := h.isOpen_eq.trans hclosed
  cases deed with
  | register id queue peer =>
    rw [begin, begin, post_of_closed (by exact hclosed), post_of_closed (by exact hother)]
    exact ⟨(h.connect id _).refuse id, rfl⟩
  | forward id line =>
    rw [begin, begin, forward, forward, hclosed, hother]
    exact ⟨h, rfl⟩
  | close id =>
    rw [begin, begin, close, close, hclosed, hother]
    exact ⟨h, rfl⟩
  | exit id =>
    rw [begin, begin, post_of_closed hclosed, post_of_closed hother]
    exact ⟨h, rfl⟩
  | shutdown =>
    rw [begin, begin, post_of_closed hclosed, post_of_closed hother]
    exact ⟨h, rfl⟩
  | abandon | stopReading | read | pass =>
    obtain ⟨intake, rfl⟩ := h
    exact ⟨⟨_, rfl⟩, rfl⟩

theorem isOpen_begin_of_closed (hclosed : exchange.isOpen = false) (deed : Deed) :
    (exchange.begin deed).1.isOpen = false := by
  cases deed with
  | register id queue peer =>
    rw [begin, post_of_closed (by exact hclosed)]
    exact hclosed
  | forward id line =>
    rw [begin, forward, hclosed]
    exact hclosed
  | close id =>
    rw [begin, close, hclosed]
    exact hclosed
  | exit | shutdown =>
    rw [begin, post_of_closed hclosed]
    exact hclosed
  | abandon | stopReading | read | pass => exact hclosed

theorem undergo_of_closed (hclosed : exchange.isOpen = false) (deed : Deed) :
    exchange.undergo deed = (exchange.begin deed).1 := by
  have hafter := isOpen_begin_of_closed hclosed deed
  apply settle_of_advance_eq_none
  rw [isOpen] at hafter
  rw [advance]
  split at hafter
  next => cases hafter
  next => cases hafter
  next => rfl
  next => rfl

/-- Two exchanges that were set up alike but for the mode, and to which the same has been done since,
one deed after another. -/
inductive Twins (settings : Settings) : Exchange → Exchange → Prop
  | start {addressed sweep : Exchange}
      (haddressed : new { settings with readiness := .addressed } = .ok addressed)
      (hsweep : new { settings with readiness := .sweep } = .ok sweep) :
      Twins settings addressed sweep
  | step {addressed sweep : Exchange} {deed : Deed} (before : Twins settings addressed sweep)
      (hpermits : addressed.Permits deed) :
      Twins settings (addressed.undergo deed) (sweep.undergo deed)

theorem new_eq (settings : Settings) (mode : IntakeMode) :
    new { settings with readiness := mode } =
      match settings.defaultRoomName, checkQueueCapacity settings.channelCapacity with
      | .error failure, _ => .error (.failure failure)
      | .ok _, .error fault => .error (.capacity fault)
      | .ok room, .ok _ => .ok {
        hub := .start settings room
        intake := .atRest mode settings.channelCapacity (Directory.new room settings.maxRooms)
        orderCapacity := settings.channelCapacity
        patience := settings.shutdownTimeoutMs } := by
  have hname : Settings.defaultRoomName { settings with readiness := mode } =
      settings.defaultRoomName := rfl
  rw [new, hname]
  cases settings.defaultRoomName with
  | error failure => rfl
  | ok room =>
    have hfeeds : (Directory.new room settings.maxRooms).feeds = ∅ := by
      rw [Directory.feeds, Directory.new, ExtTreeMap.map_eq_empty_iff]
    cases hcapacity : checkQueueCapacity settings.channelCapacity with
    | error fault =>
      cases mode <;>
        simp [Intake.new, hcapacity, Except.mapError, bind, Except.bind, pure, Except.pure]
    | ok _ =>
      cases mode <;>
        simp [Intake.new, hcapacity, Except.mapError, bind, Except.bind, pure, Except.pure,
          Intake.atRest, hfeeds] <;> rfl

theorem idle_of_new {mode : IntakeMode}
    (h : new { settings with readiness := mode } = .ok exchange) :
    exchange.Idle mode ∧ exchange.advance = none := by
  rw [new_eq] at h
  split at h
  next => cases h
  next => cases h
  next room _ hname hcapacity =>
    obtain rfl := Except.ok.inj h
    have hpositive : 0 < settings.channelCapacity := by
      rw [checkQueueCapacity] at hcapacity
      split at hcapacity
      next => cases hcapacity
      next hne => exact Nat.pos_of_ne_zero hne
    have hidle : Idle mode {
        hub := .start settings room
        intake := .atRest mode settings.channelCapacity (Directory.new room settings.maxRooms)
        orderCapacity := settings.channelCapacity
        patience := settings.shutdownTimeoutMs } :=
      ⟨rfl, rfl, hpositive, rfl, Directory.intact_new room settings.maxRooms,
        fun hid => absurd hid ExtTreeMap.not_mem_empty⟩
    exact ⟨hidle, hidle.calm.advance_eq⟩

/-- How the two look between any two deeds. -/
structure Matched (addressed sweep : Exchange) : Prop where
  alike : addressed.Alike sweep
  addressed_idle : addressed.isOpen = true → addressed.Idle .addressed
  sweep_idle : sweep.isOpen = true → sweep.Idle .sweep
  addressed_waits : addressed.advance = none
  sweep_waits : sweep.advance = none

theorem Matched.of_new (haddressed : new { settings with readiness := .addressed } = .ok addressed)
    (hsweep : new { settings with readiness := .sweep } = .ok sweep) : addressed.Matched sweep := by
  obtain ⟨haddressedIdle, haddressedWaits⟩ := idle_of_new haddressed
  obtain ⟨hsweepIdle, hsweepWaits⟩ := idle_of_new hsweep
  refine ⟨?_, fun _ => haddressedIdle, fun _ => hsweepIdle, haddressedWaits, hsweepWaits⟩
  rw [new_eq] at haddressed hsweep
  split at haddressed
  next => cases haddressed
  next => cases haddressed
  next hname hcapacity =>
    rw [hname, hcapacity] at hsweep
    obtain rfl := Except.ok.inj haddressed
    obtain rfl := Except.ok.inj hsweep
    exact ⟨_, rfl⟩

theorem Alike.permits (h : exchange.Alike other) (hpermits : exchange.Permits deed) :
    other.Permits deed := by
  obtain ⟨intake, rfl⟩ := h
  cases deed <;> exact hpermits

theorem Matched.undergo (h : addressed.Matched sweep) (hpermits : addressed.Permits deed) :
    (addressed.undergo deed).Matched (sweep.undergo deed) := by
  cases hopen : addressed.isOpen with
  | true =>
    have haddressed := h.addressed_idle hopen
    have hopen' : sweep.isOpen = true := h.alike.isOpen_eq.trans hopen
    have hsweep := h.sweep_idle hopen'
    have hpermits' : sweep.Permits deed := h.alike.permits hpermits
    refine ⟨?_, haddressed.undergo h.addressed_waits hopen hpermits,
      hsweep.undergo h.sweep_waits hopen' hpermits', advance_settle _, advance_settle _⟩
    -- Both come to the response, on which the intake has no influence.
    rw [haddressed.undergo_eq h.addressed_waits hopen hpermits,
      hsweep.undergo_eq h.sweep_waits hopen' hpermits']
    exact (h.alike.respond deed).finish
  | false =>
    have hclosed' : sweep.isOpen = false := h.alike.isOpen_eq.trans hopen
    have hafter := isOpen_begin_of_closed hopen deed
    have hafter' := isOpen_begin_of_closed hclosed' deed
    refine ⟨?_, ?_, ?_, advance_settle _, advance_settle _⟩
    · rw [undergo_of_closed hopen, undergo_of_closed hclosed']
      exact (h.alike.begin_of_closed hopen deed).1
    · rw [undergo_of_closed hopen, hafter]
      exact fun h => absurd h Bool.false_ne_true
    · rw [undergo_of_closed hclosed', hafter']
      exact fun h => absurd h Bool.false_ne_true

theorem Twins.matched (h : Twins settings addressed sweep) : addressed.Matched sweep := by
  induction h with
  | start haddressed hsweep => exact .of_new haddressed hsweep
  | step _ hpermits ih => exact ih.undergo hpermits

theorem Matched.begin_snd (h : addressed.Matched sweep) (deed : Deed) :
    (addressed.begin deed).2 = (sweep.begin deed).2 ∨
      ∃ id line, deed = .forward id line ∧ id ∉ addressed.hub.directory.occupants := by
  by_cases hgone : ∃ id line, deed = .forward id line ∧ id ∉ addressed.hub.directory.occupants
  · exact Or.inr hgone
  · refine Or.inl ?_
    cases hopen : addressed.isOpen with
    | true =>
      have hopen' : sweep.isOpen = true := h.alike.isOpen_eq.trans hopen
      have hheard : ∀ id line, deed = .forward id line → id ∈ addressed.hub.directory.occupants :=
        fun id line heq => Classical.byContradiction fun hid => hgone ⟨id, line, heq, hid⟩
      rw [(h.addressed_idle hopen).begin_snd hopen fun id line heq _ => hheard id line heq,
        (h.sweep_idle hopen').begin_snd hopen' fun id line heq _ => by
          obtain ⟨intake, rfl⟩ := h.alike
          exact hheard id line heq]
      obtain ⟨intake, rfl⟩ := h.alike
      cases deed <;> rfl
    | false => exact (h.alike.begin_of_closed hopen deed).2

theorem Twins.agree (h : Twins settings addressed sweep) :
    addressed.hub = sweep.hub ∧ addressed.outboxes = sweep.outboxes ∧
    addressed.registrations = sweep.registrations ∧ addressed.phase = sweep.phase ∧
    ∀ deed, (addressed.begin deed).2 = (sweep.begin deed).2 ∨
      ∃ id line, deed = .forward id line ∧ id ∉ addressed.hub.directory.occupants := by
  have hmatched := h.matched
  have hfindings := hmatched.begin_snd
  obtain ⟨intake, rfl⟩ := hmatched.alike
  exact ⟨rfl, rfl, rfl, rfl, hfindings⟩

set_option maxRecDepth 20000 in
/-- A guest that is gone without a word leaves the same behind either way. What still came from it
would be taken into the queue, but not into its feed. -/
theorem agree_abandoned : ∃ addressed sweep : Exchange, Twins {} addressed sweep ∧
    sweep.hub.directory.isEmpty = true ∧ addressed.outboxes = sweep.outboxes ∧
    addressed.Permits (.forward 1 "hello") ∧
    (addressed.begin (.forward 1 "hello")).2 = .posted (.accepted ()) ∧
    (sweep.begin (.forward 1 "hello")).2 = .posted .closed := by
  have run {addressed sweep : Exchange} (h : Twins {} addressed sweep) (deed : Deed)
      (hpermits : addressed.Permits deed) :
      Twins {} (addressed.undergo deed) (sweep.undergo deed) := .step h hpermits
  obtain ⟨addressed, sweep, htwins, hempty, hfindings⟩ : ∃ addressed sweep : Exchange,
      Twins {} addressed sweep ∧ addressed.hub.directory.isEmpty = true ∧
      addressed.Permits (.forward 1 "hello") ∧
      (addressed.begin (.forward 1 "hello")).2 = .posted (.accepted ()) ∧
      (sweep.begin (.forward 1 "hello")).2 = .posted .closed := by
    have h₀ : Twins {} _ _ := .start rfl rfl
    have h₁ := run h₀ (.register 1 1 none) (by decide)
    have h₂ := run h₁ (.forward 1 "hello") (by decide)
    have h₃ := run h₂ (.abandon 1) (by decide)
    exact ⟨_, _, h₃, by decide, by decide, rfl, rfl⟩
  obtain ⟨hhub, houtboxes, -⟩ := htwins.agree
  exact ⟨addressed, sweep, htwins, hhub ▸ hempty, houtboxes, hfindings⟩

end ChatRooms.Exchange
