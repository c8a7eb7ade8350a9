import ChatRooms.Proofs.Exchange.Upshot
import ChatRooms.Rehearsal

namespace ChatRooms

open Std

namespace Exchange

/-- What whoever asked for a registration has been told, if it has been told anything. -/
def answerTo? (exchange : Exchange) (id : ClientId) : Option (Except Failure Unit) :=
  match exchange.registrations[id]? with
  | some .accepted => some (.ok ())
  | some .refused => some (.error .hubGone)
  | some .pending | none => none

variable {exchange : Exchange} {id : ClientId} {failure : Failure}

theorem answerTo?_eq_ok : exchange.answerTo? id = some (.ok ()) ↔
    exchange.registrations[id]? = some .accepted := by
  unfold answerTo?
  cases exchange.registrations[id]? with
  | none => simp
  | some registration => cases registration <;> simp

theorem answerTo?_eq_error : exchange.answerTo? id = some (.error failure) ↔
    exchange.registrations[id]? = some .refused ∧ failure = .hubGone := by
  unfold answerTo?
  cases exchange.registrations[id]? with
  | none => simp
  | some registration => cases registration <;> simp [eq_comm]

end Exchange

theorem Rehearsal.pursue_toBeRegistered (rehearsal : Rehearsal) (waiter : Waiter) (id : ClientId) :
    rehearsal.pursue waiter (.toBeRegistered id) =
      match rehearsal.exchange.answerTo? id with
      | some (.ok ()) => rehearsal.answer waiter .done
      | some (.error failure) => rehearsal.answer waiter (.failed failure)
      | none => rehearsal.wait waiter (.toBeRegistered id) := by
  rw [pursue.eq_def, Exchange.answerTo?]
  dsimp only
  cases rehearsal.exchange.registrations[id]? with
  | none => rfl
  | some registration => cases registration <;> rfl

/-- The event made the hub put the client into the directory: active, in the default room, and under a
nickname that nobody else had. -/
def Hub.Enrols (hub : Hub) (event : Event) (id : ClientId) : Prop :=
  ∃ peer hub' effects client, event = .register id peer ∧ hub.handle event = .ok (hub', effects) ∧
    id ∉ hub.directory.occupants ∧ hub'.directory.occupants[id]? = some client ∧
    client.isActive = true ∧ client.room = hub.directory.defaultRoom ∧
    ∀ (other : ClientId) (occupant : Occupant), hub.directory.occupants[other]? = some occupant →
      occupant.nickname ≠ client.nickname

def Hub.Reclaims (hub : Hub) (event : Event) (id : ClientId) : Prop :=
  (event = .exited id ∨ event = .closed id) ∧ id ∈ hub.directory.occupants

theorem Hub.enrols_of_register {settings : Settings} {hub hub' : Hub} {effects : List Effect}
    {id : ClientId} {peer : Option SocketAddress} (hreach : Reachable settings hub)
    (hadmits : hub.Admits (.register id peer))
    (hhandle : hub.handle (.register id peer) = .ok (hub', effects)) :
    hub.Enrols (.register id peer) id := by
  obtain ⟨guest, hguest, hregistered, -⟩ := (steps_of_handle hhandle).of_register
  obtain ⟨-, -, hfree, -⟩ := nextGuest_spec hguest
  refine ⟨peer, hub', effects, _, rfl, hhandle, hadmits, hregistered, rfl, rfl, ?_⟩
  intro other occupant hother hnickname
  have hindexed := (hreach.intact.indexed occupant.nickname other).2 (Directory.nicknameOf?_eq hother)
  rw [hnickname] at hindexed
  rw [Directory.hasNickname, ← Bool.not_eq_true, ExtTreeMap.contains_iff_mem] at hfree
  exact hfree (Maps.mem_of_getElem? hindexed)

namespace Floor

def Enrolled (id : ClientId) (trace : List Happening) : Prop :=
  ∃ hub event, .handled hub event ∈ trace ∧ hub.Enrols event id

def Reclaimed (id : ClientId) (trace : List Happening) : Prop :=
  ∃ hub event, .handled hub event ∈ trace ∧ hub.Reclaims event id

/-- The client's worker has written nothing before the client was put into the directory. -/
def Waits (id : ClientId) (trace : List Happening) : Prop :=
  ∀ before line after, trace = before ++ .forwarded id line :: after → Enrolled id before

variable {settings : Settings} {id : ClientId} {trace more happenings : List Happening}
  {floor floor' : Floor}

theorem enrolled_append : Enrolled id (trace ++ more) ↔ Enrolled id trace ∨ Enrolled id more := by
  constructor
  · rintro ⟨hub, event, hmem, henrols⟩
    exact (List.mem_append.1 hmem).imp (fun h => ⟨hub, event, h, henrols⟩)
      fun h => ⟨hub, event, h, henrols⟩
  · rintro (⟨hub, event, hmem, henrols⟩ | ⟨hub, event, hmem, henrols⟩)
    · exact ⟨hub, event, List.mem_append_left _ hmem, henrols⟩
    · exact ⟨hub, event, List.mem_append_right _ hmem, henrols⟩

theorem not_enrolled_nil : ¬Enrolled id [] :=
  fun ⟨_, _, hmem, _⟩ => List.not_mem_nil hmem

theorem enrolled_handled {hub : Hub} {event : Event} :
    Enrolled id [.handled hub event] ↔ hub.Enrols event id := by
  constructor
  · rintro ⟨found, other, hmem, henrols⟩
    obtain ⟨rfl, rfl⟩ := Happening.handled.inj (List.mem_singleton.1 hmem)
    exact henrols
  · exact fun henrols => ⟨hub, event, List.mem_singleton_self _, henrols⟩

theorem Reclaimed.append (h : Reclaimed id trace) (more : List Happening) :
    Reclaimed id (trace ++ more) := by
  obtain ⟨hub, event, hmem, hreclaims⟩ := h
  exact ⟨hub, event, List.mem_append_left _ hmem, hreclaims⟩

theorem Waits.of_append (h : Waits id (trace ++ more)) : Waits id trace := by
  rintro before line after rfl
  exact h before line (after ++ more) (by simp)

/-- What answers say about the directory. -/
structure Answered (id : ClientId) (trace : List Happening) (floor : Floor) : Prop where
  enrolled : floor.exchange.registrations[id]? = some .accepted ↔ Enrolled id trace
  heard {hub : Hub} {event : Event} : .handled hub event ∈ trace → id ∈ hub.directory.occupants →
    floor.exchange.registrations[id]? = some .accepted
  present : Enrolled id trace → id ∈ floor.exchange.hub.directory.occupants ∨ Reclaimed id trace

namespace Answered

theorem passed (h : Answered id trace floor) (hsound : floor.exchange.Sound settings)
    (hidle : ∀ hub event, .handled hub event ∈ happenings →
      hub = floor.exchange.hub ∧ ¬hub.Enrols event id)
    (hhub : floor'.exchange.hub = floor.exchange.hub)
    (hupholds : floor.exchange.Upholds id floor'.exchange)
    (haccepted : floor'.exchange.registrations[id]? = some .accepted →
      floor.exchange.registrations[id]? = some .accepted) :
    Answered id (trace ++ happenings) floor' := by
  have hsame : floor'.exchange.registrations[id]? = some .accepted ↔
      floor.exchange.registrations[id]? = some .accepted :=
    ⟨haccepted, hupholds.answered (by simp)⟩
  have hnew : ¬Enrolled id happenings := fun ⟨hub, event, hmem, henrols⟩ =>
    (hidle hub event hmem).2 henrols
  refine ⟨?_, fun {hub event} hmem hid => ?_, fun hbefore => ?_⟩
  · rw [hsame, enrolled_append, or_iff_left hnew, h.enrolled]
  · apply hsame.2
    rcases List.mem_append.1 hmem with hmem | hmem
    · exact h.heard hmem hid
    · rw [(hidle hub event hmem).1] at hid
      exact hsound.accepted hid
  · rw [enrolled_append, or_iff_left hnew] at hbefore
    rw [hhub]
    exact (h.present hbefore).imp_right fun hreclaimed => hreclaimed.append _

/-- Whoever the event registers is enrolled by it, and whoever it removes is reclaimed. -/
theorem handled {event : Event} {hub : Hub} {effects : List Effect} (h : Answered id trace floor)
    (hsound : floor.exchange.Sound settings) (hadmits : floor.exchange.hub.Admits event)
    (hhandle : floor.exchange.hub.handle event = .ok (hub, effects))
    (hhub : floor'.exchange.hub = hub) (hupholds : floor.exchange.Upholds id floor'.exchange)
    (haccepted : floor'.exchange.registrations[id]? = some .accepted ↔
      floor.exchange.registrations[id]? = some .accepted ∨ ∃ peer, event = .register id peer) :
    Answered id (trace ++ [.handled floor.exchange.hub event]) floor' := by
  have hnow : .handled floor.exchange.hub event ∈ trace ++ [.handled floor.exchange.hub event] :=
    List.mem_append_right _ (List.mem_singleton_self _)
  have hpresent : id ∈ hub.directory.occupants ↔ (∃ peer, event = .register id peer) ∨
      id ∈ floor.exchange.hub.directory.occupants ∧ event ≠ .closed id ∧ event ≠ .exited id :=
    (Hub.steps_of_handle hhandle).mem_occupants_iff hsound.reachable.intact
  have henrols : Enrolled id [.handled floor.exchange.hub event] ↔ ∃ peer, event = .register id peer := by
    rw [enrolled_handled]
    constructor
    · rintro ⟨peer, -, -, -, rfl, -⟩
      exact ⟨peer, rfl⟩
    · rintro ⟨peer, rfl⟩
      exact Hub.enrols_of_register hsound.reachable hadmits hhandle
  refine ⟨?_, fun {before found} hmem hid => ?_, fun henrolled => ?_⟩
  · rw [haccepted, enrolled_append, henrols, h.enrolled]
  · apply hupholds.answered (by simp)
    rcases List.mem_append.1 hmem with hmem | hmem
    · exact h.heard hmem hid
    · rw [(Happening.handled.inj (List.mem_singleton.1 hmem)).1] at hid
      exact hsound.accepted hid
  · rw [hhub, hpresent]
    rw [enrolled_append, henrols] at henrolled
    rcases henrolled with hbefore | hregister
    · rcases h.present hbefore with hid | hreclaimed
      · by_cases hleaves : event = .closed id ∨ event = .exited id
        · exact Or.inr ⟨_, event, hnow, hleaves.symm, hid⟩
        · rw [not_or] at hleaves
          exact Or.inl (Or.inr ⟨hid, hleaves⟩)
      · exact Or.inr (hreclaimed.append _)
    · exact Or.inl (Or.inl hregister)

theorem stir (h : Answered id trace floor) (hsound : Sound settings trace floor)
    (hstir : Stir floor happenings floor') : Answered id (trace ++ happenings) floor' := by
  have hafter := hsound.stir hstir
  cases hstir.upshot hsound id with
  | quiet hnothing hhub hupholds haccepted =>
    refine h.passed hsound.exchange (fun hub event hmem => ?_) hhub hupholds haccepted
    exact absurd hmem (hnothing hub event)
  | handled hhandle hhub hupholds haccepted =>
    have hadmits := (hafter.heard (List.mem_append_right _ (List.mem_singleton_self _))).2
    exact h.handled hsound.exchange hadmits hhandle hhub hupholds haccepted
  | failed hfailed hhub hupholds haccepted =>
    refine h.passed hsound.exchange (fun hub event hmem => ?_) hhub hupholds haccepted
    obtain ⟨rfl, rfl⟩ := Happening.handled.inj (List.mem_singleton.1 hmem)
    refine ⟨rfl, ?_⟩
    rintro ⟨_, _, _, _, _, hhandle, -⟩
    cases hfailed.symm.trans hhandle

end Answered

theorem Bustle.answered (h : Bustle settings trace floor) (id : ClientId) :
    Answered id trace floor := by
  refine h.preserves (fun exchange hnew => ?_) fun hbefore hanswered hstir =>
    hanswered.stir hbefore.sound hstir
  obtain ⟨room, -, rfl⟩ := Exchange.exists_of_new hnew
  refine ⟨?_, fun hmem => absurd hmem List.not_mem_nil, fun h => absurd h not_enrolled_nil⟩
  simp [not_enrolled_nil]

theorem Bustle.upholds (h : Bustle settings trace floor) (hmore : Goes floor more floor')
    (id : ClientId) : floor.exchange.Upholds id floor'.exchange := by
  induction hmore with
  | refl => exact .of_same rfl
  | step before hstir ih => exact ih.trans (hstir.upshot (h.extend before).sound id).upholds

theorem Waits.enrolled (h : Waits id trace) (hwritten : forwardedLines id trace ≠ []) :
    Enrolled id trace := by
  obtain ⟨line, hline⟩ := List.exists_mem_of_ne_nil _ hwritten
  obtain ⟨happening, hmem, hforwarded⟩ := List.mem_filterMap.1 hline
  cases happening with
  | handled | taken => cases hforwarded
  | forwarded other text =>
    obtain ⟨rfl, -⟩ := Option.ite_none_right_eq_some.1 hforwarded
    obtain ⟨before, after, rfl⟩ := List.append_of_mem hmem
    exact enrolled_append.2 (Or.inl (h before text after rfl))

/-- When a line is handled, its client has been registered, and is still there unless it was removed. -/
theorem Bustle.of_line (h : Bustle settings trace floor) (hwaits : Waits id trace)
    {before after : List Happening} {hub : Hub} {line : String}
    (htrace : trace = before ++ .handled hub (.line id line) :: after) :
    Enrolled id before ∧ (id ∈ hub.directory.occupants ∨ Reclaimed id before) := by
  revert hwaits before after hub line
  refine h.preserves (P := fun trace _ => Waits id trace → ∀ {before after hub line},
      trace = before ++ .handled hub (.line id line) :: after →
      Enrolled id before ∧ (id ∈ hub.directory.occupants ∨ Reclaimed id before))
    (fun _ _ _ before after hub line htrace => ?_)
    fun {trace happenings floor floor'} hbefore ih hstir hwaits before after hub line htrace => ?_
  · simp at htrace
  · rcases (hstir.upshot hbefore.sound id).of_split htrace with
      ⟨more, rfl⟩ | ⟨rfl, rfl, rfl⟩
    · exact ih hwaits.of_append rfl
    · have hwritten : forwardedLines id before ≠ [] := by
        intro hsilent
        obtain ⟨rest, hlines, -⟩ := (hbefore.flows hstir id).lines
        rw [hbefore.underway_eq_nil hsilent, forwardedLines_handled, handledLines_handled] at hlines
        simp [Event.reportOf?] at hlines
      have henrolled := hwaits.of_append.enrolled hwritten
      exact ⟨henrolled, (hbefore.answered id).present henrolled⟩

/-- Whoever is told that it is registered has been put into the directory, and whoever is told that it is
not is never in it. If a worker waits for the answer, then none of its lines comes too early. -/
theorem Bustle.answers_truly (h : Bustle settings trace floor) (id : ClientId) :
    (floor.exchange.answerTo? id = some (.ok ()) ↔ Enrolled id trace) ∧
    (∀ failure, floor.exchange.answerTo? id = some (.error failure) → failure = .hubGone ∧
      ∀ more floor', Goes floor more floor' →
        floor'.exchange.answerTo? id = some (.error failure) ∧
        id ∉ floor'.exchange.hub.directory.occupants ∧
        ∀ hub event, .handled hub event ∈ trace ++ more → id ∉ hub.directory.occupants) ∧
    (Waits id trace → ∀ before hub line after,
      trace = before ++ .handled hub (.line id line) :: after →
        Enrolled id before ∧ (id ∈ hub.directory.occupants ∨ Reclaimed id before)) := by
  refine ⟨?_, fun failure hanswer => ?_, fun hwaits before hub line after htrace => ?_⟩
  · rw [Exchange.answerTo?_eq_ok]
    exact (h.answered id).enrolled
  · obtain ⟨hrefused, rfl⟩ := Exchange.answerTo?_eq_error.1 hanswer
    refine ⟨rfl, fun more floor' hmore => ?_⟩
    have hafter := h.extend hmore
    have hrefused' := (h.upholds hmore id).answered (by simp) hrefused
    refine ⟨Exchange.answerTo?_eq_error.2 ⟨hrefused', rfl⟩, fun hid => ?_, fun hub event hmem hid => ?_⟩
    · cases hrefused'.symm.trans (hafter.sound.exchange.accepted hid)
    · cases hrefused'.symm.trans ((hafter.answered id).heard hmem hid)
  · exact h.of_line hwaits htrace

set_option maxRecDepth 20000 in
/-- The first client is registered and writes before the hub begins to close, and the second one comes
too late. -/
theorem answers_truly_while_closing : ∃ trace floor, Bustle {} trace floor ∧
    floor.exchange.answerTo? 1 = some (.ok ()) ∧ Enrolled 1 trace ∧
    floor.exchange.answerTo? 2 = some (.error .hubGone) ∧
    2 ∉ floor.exchange.hub.directory.occupants ∧ handledLines 1 trace = ["CHAT:::hello"] := by
  have step {trace happenings : List Happening} {floor floor' : Floor}
      (before : Run {} trace floor) (hstep : Step floor happenings floor') :
      Run {} (trace ++ happenings) floor' := before.step hstep
  have h₀ : Run {} [] _ := .start rfl
  have h₁ := step h₀ (@Step.connect _ 1 8 _ rfl rfl)
  have h₂ := step h₁ (@Step.connect _ 2 8 _ rfl rfl)
  have h₃ := step h₂ (@Step.post _ (.register 1 none) _ ⟨rfl, fun _ => List.not_mem_nil⟩ rfl)
  have h₄ := step h₃ (@Step.order _ _ _ rfl rfl rfl (by simp))
  have h₅ := step h₄ (@Step.write _ 1 "CHAT:::hello" _ (by decide) rfl rfl rfl)
  have h₆ := step h₅ (@Step.post _ .shutdown _ trivial rfl)
  have h₇ := step h₆ (@Step.order _ _ _ rfl rfl rfl (by simp))
  have h₈ := step h₇ (@Step.post _ (.register 2 none) _ ⟨rfl, fun _ => List.not_mem_nil⟩ rfl)
  have h₉ := step h₈ (@Step.order _ _ _ rfl rfl rfl (by simp))
  have h₁₀ := step h₉ (@Step.answer _ (.queue []) rfl rfl rfl rfl)
  have h₁₁ := step h₁₀ (@Step.gather _ _ _ _ _ rfl rfl)
  have h₁₂ := step h₁₁ (@Step.conclude _ _ _ rfl rfl)
  have h₁₃ := step h₁₂ (@Step.handle _ _ _ rfl rfl)
  have haccepted := h₁₃.bustle.answers_truly 1
  have hrefused := h₁₃.bustle.answers_truly 2
  refine ⟨_, _, h₁₃.bustle, rfl, haccepted.1.1 rfl, rfl, ?_, rfl⟩
  exact ((hrefused.2.1 .hubGone rfl).2 [] _ .refl).2.1

end Floor

end ChatRooms
