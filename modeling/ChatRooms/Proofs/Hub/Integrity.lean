import ChatRooms.Proofs.Directory.Audit
import ChatRooms.Proofs.Hub.Guests
import ChatRooms.Proofs.Hub.Step

namespace ChatRooms

open Std

namespace Directory

variable {directory : Directory} {id : ClientId}

theorem Intact.move_ne_broken (h : directory.Intact) {target : RoomName} {create : Bool}
    (defect : Defect) : directory.move id target create ≠ .error (.broken defect) := by
  cases hid : directory.occupants[id]? with
  | none => simp [Directory.move, hid]
  | some occupant =>
    obtain ⟨room, hroom⟩ := h.room_getElem? hid
    by_cases hsame : occupant.room = target
    · simp [Directory.move, hid, hsame]
    · rw [move_eq h hid hroom hsame]
      split <;> simp

theorem Intact.exists_remove (h : directory.Intact) (id : ClientId) :
    ∃ directory' departure, directory.remove id = .ok (directory', departure) := by
  cases hid : directory.occupants[id]? with
  | none => exact ⟨directory, none, by rw [Directory.remove, hid]⟩
  | some occupant =>
    obtain ⟨room, hroom⟩ := h.room_getElem? hid
    exact ⟨_, _, remove_eq hid hroom⟩

end Directory

namespace Hub

/-- A registration is for a client that is not registered. Everything else can happen at any time. -/
def Admits (hub : Hub) : Event → Prop
  | .register id _ => id ∉ hub.directory.occupants
  | _ => True

instance (hub : Hub) : (event : Event) → Decidable (hub.Admits event)
  | .register id _ => inferInstanceAs (Decidable (id ∉ hub.directory.occupants))
  | .exited _ | .line _ _ | .closed _ | .shutdown => isTrue trivial

theorem admits_of_ne (hub : Hub) {event : Event}
    (hevent : ∀ id peer, event ≠ .register id peer) : hub.Admits event := by
  cases event with
  | register id peer => exact absurd rfl (hevent id peer)
  | exited | line | closed | shutdown => trivial

/-- The states after finitely many events, in any order. -/
inductive Reachable (settings : Settings) : Hub → Prop where
  | start {room : RoomName} (hroom : settings.defaultRoomName = .ok room) :
      Reachable settings (.start settings room)
  | step {hub hub' : Hub} {event : Event} {effects : List Effect} (before : Reachable settings hub)
      (hadmits : hub.Admits event) (hhandle : hub.handle event = .ok (hub', effects)) :
      Reachable settings hub'

variable {hub hub' : Hub} {client : Occupant} {request : Request} {event : Event}
  {effects : List Effect}

theorem Performs.intact (hstep : Performs hub client request hub' effects)
    (h : hub.directory.Intact) : hub'.directory.Intact := by
  cases hstep with
  | chat | whisper | list | users | keepNickname | help => exact h
  | add hadd => exact h.addRoom hadd
  | remove hremove => exact h.removeRoom hremove
  | stay _ hmove => exact h.move hmove
  | move _ hmove => exact h.move hmove
  | nickname _ hrename => exact h.rename hrename
  | quit hquit => exact h.hangUp hquit

theorem Steps.intact (hstep : Steps hub event hub' effects) (h : hub.directory.Intact)
    (hadmits : hub.Admits event) : hub'.directory.Intact := by
  cases hstep with
  | ignore | refuse | turnAway => exact h
  | perform _ _ _ hperform => exact hperform.intact h
  | welcome _ hregister => exact h.register hadmits hregister
  | reclaim _ hremove => exact h.remove hremove
  | reclaimAgain _ hremove => exact h.remove hremove
  | shutdown => exact h.hangUpAll

theorem Reachable.intact {settings : Settings} (h : Reachable settings hub) :
    hub.directory.Intact := by
  induction h with
  | start hroom => exact Directory.intact_new _ _
  | step _ hadmits hhandle ih => exact (steps_of_handle hhandle).intact ih hadmits

theorem move_ne_broken (h : hub.directory.Intact) {target : RoomName} {create : Bool}
    (defect : Defect) : hub.move client target create ≠ .error (.broken defect) := by
  intro hbroken
  unfold Hub.move at hbroken
  split at hbroken
  next stop hmove => exact h.move_ne_broken defect (hmove.trans (by simpa using hbroken))
  next => cases hbroken
  next => cases hbroken

theorem orRefuse_ne_broken {α : Type} (x : Except Refusal α) (defect : Defect) :
    orRefuse x ≠ .error (.broken defect) := by
  cases x <;> simp [orRefuse]

theorem confirm_ne_broken {notice : Notice} (x : Except Refusal Directory) (defect : Defect) :
    hub.confirm client notice x ≠ .error (.broken defect) := by
  cases x <;> simp [confirm]

theorem perform_ne_broken (h : hub.directory.Intact) (defect : Defect) :
    hub.perform client request ≠ .error (.broken defect) := by
  cases request with
  | chat text => simp [perform]
  | whisper target body =>
    rw [perform]
    cases hub.whisper client target body <;> simp [orRefuse, bind, Except.bind]
  | command command =>
    rw [perform]
    cases command with
    | add room => exact confirm_ne_broken _ defect
    | remove room => exact confirm_ne_broken _ defect
    | join room => exact move_ne_broken h defect
    | leave =>
      rw [Hub.command]
      split
      next => simp
      next => exact move_ne_broken h defect
    | nickname name => exact orRefuse_ne_broken _ defect
    | quit => exact orRefuse_ne_broken _ defect
    | list | users | help => simp [Hub.command]

theorem exists_hear (h : hub.directory.Intact) (id : ClientId) (line : String) :
    ∃ hub' effects, hub.hear id line = .ok (hub', effects) := by
  unfold hear
  split
  next client _ =>
    split
    next =>
      unfold Hub.request
      split
      next outcome _ => exact ⟨outcome.1, outcome.2, rfl⟩
      next defect hbroken =>
        -- Decoding refuses but brings no defect to light, so performing would have had to.
        cases hdecode : Request.decode line with
        | error refusal =>
          rw [hdecode] at hbroken
          cases hbroken
        | ok request =>
          rw [hdecode] at hbroken
          exact absurd hbroken (perform_ne_broken h defect)
      next => exact ⟨_, _, rfl⟩
    next => exact ⟨_, _, rfl⟩
  next => exact ⟨_, _, rfl⟩

theorem exists_reclaim (h : hub.directory.Intact) (id : ClientId) :
    ∃ hub' effects, hub.reclaim id = .ok (hub', effects) := by
  obtain ⟨directory, departure, hremove⟩ := h.exists_remove id
  unfold reclaim
  rw [hremove]
  cases departure with
  | none => exact ⟨_, _, rfl⟩
  | some departure => exact ⟨_, _, rfl⟩

theorem audited_eq (h : hub'.directory.Intact) :
    audited (.ok (hub', effects)) = .ok (hub', effects) := by
  rw [audited, h.audit_eq_none]

theorem exists_handle_of_ne (h : hub.directory.Intact)
    (hevent : ∀ id peer, event ≠ .register id peer) :
    ∃ hub' effects, hub.handle event = .ok (hub', effects) := by
  cases event with
  | register id peer => exact absurd rfl (hevent id peer)
  | exited id => exact exists_reclaim h id
  | line id text =>
    obtain ⟨hub', effects, hhear⟩ := exists_hear h id text
    -- What the audit looks at is what comes out of the step, which is intact again.
    have hafter := (steps_of_hear hhear).intact h trivial
    exact ⟨hub', effects, by rw [handle, hhear, audited_eq hafter]⟩
  | closed id =>
    obtain ⟨hub', effects, hreclaim⟩ := exists_reclaim h id
    have hafter := (steps_of_reclaim (Or.inr rfl) hreclaim).intact h trivial
    exact ⟨hub', effects, by rw [handle, hreclaim, audited_eq hafter]⟩
  | shutdown => exact ⟨_, _, rfl⟩

theorem exists_handle (h : hub.directory.Intact) (event : Event) :
    (∃ hub' effects, hub.handle event = .ok (hub', effects)) ∨
      hub.handle event = .error .guestNumbersExhausted ∧
        guestLimit ≤ hub.lastGuest + (hub.directory.nicknames.size + 1) := by
  cases event with
  | register id peer =>
    cases hguest : hub.nextGuestNumber with
    | none =>
      refine Or.inr ⟨?_, guestLimit_le_of_nextGuestNumber hguest⟩
      rw [handle, welcome, hguest]
    | some guest =>
      refine Or.inl ?_
      rw [handle, welcome, hguest]
      dsimp only
      split
      next => exact ⟨_, _, rfl⟩
      next => exact ⟨_, _, rfl⟩
  | exited | line | closed | shutdown => exact Or.inl (exists_handle_of_ne h (by simp))

theorem exists_register {guest : Nat} (h : hub.nextGuestNumber = some guest) (id : ClientId)
    (peer : Option SocketAddress) :
    ∃ directory, hub.directory.register id (guestNickname guest) peer = .ok directory := by
  obtain ⟨-, -, hfree, -⟩ := nextGuest_spec h
  exact ⟨_, by rw [Directory.register, hfree]; rfl⟩

theorem register_ne_error {guest : Nat} {refusal : Refusal} {id : ClientId}
    {peer : Option SocketAddress} (h : hub.nextGuestNumber = some guest) :
    hub.directory.register id (guestNickname guest) peer ≠ .error refusal := by
  obtain ⟨directory, hok⟩ := exists_register h id peer
  rw [hok]
  simp

theorem Reachable.integrity {settings : Settings} (h : Reachable settings hub) :
    hub.directory.Intact ∧ hub.directory.audit = none ∧
    (∀ event, (∃ hub' effects, hub.handle event = .ok (hub', effects)) ∨
      hub.handle event = .error .guestNumbersExhausted ∧
        guestLimit ≤ hub.lastGuest + (hub.directory.nicknames.size + 1)) ∧
    ∀ guest, hub.nextGuestNumber = some guest → ∀ id peer,
      ∃ directory, hub.directory.register id (guestNickname guest) peer = .ok directory := by
  have hintact := h.intact
  exact ⟨hintact, hintact.audit_eq_none, exists_handle hintact,
    fun guest hguest id peer => exists_register hguest id peer⟩

set_option maxRecDepth 20000 in
/-- Two guests, of whom one founds a room, takes the number of a guest to come, and is gone. -/
theorem integrity_two_guests : ∃ hub, Reachable {} hub ∧ hub.directory.size = 1 ∧
    hub.lastGuest = 2 ∧ hub.directory.audit = none := by
  have run {hub hub' : Hub} {effects : List Effect} (h : Reachable {} hub) (event : Event)
      (hadmits : hub.Admits event) (hhandle : hub.handle event = .ok (hub', effects)) :
      Reachable {} hub' := .step h hadmits hhandle
  have h₀ : Reachable {} (.start {} ⟨"general", by decide⟩) := .start rfl
  have h₁ := run h₀ (.register 1 none) (by decide) rfl
  have h₂ := run h₁ (.register 2 none) (by decide) rfl
  have h₃ := run h₂ (.line 1 "CMD:join:dev:") trivial rfl
  have h₄ := run h₃ (.line 1 "CMD:nickname:guest3:") trivial rfl
  have h₅ := run h₄ (.closed 1) trivial rfl
  exact ⟨_, h₅, by decide, rfl, h₅.integrity.2.1⟩

end Hub

end ChatRooms
