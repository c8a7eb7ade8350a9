import ChatRooms.Proofs.Hub.Authors
import Mathlib.Data.List.Forall2

namespace ChatRooms

open Std

namespace Request

/-- A request without its content. -/
def outline : Request → Request
  | .chat _ => .chat ""
  | .whisper target _ => .whisper target ""
  | request@(.command _) => request

/-- What a line asks for, without the content. -/
def outlineOf (line : String) : Except Refusal Request :=
  (decode line).map outline

/-- Lines with the same outline ask for the same, but that a chat may say something else, and so may a
whisper to the same target. -/
theorem outlineOf_eq_iff {line line' : String} : outlineOf line = outlineOf line' ↔
    decode line = decode line' ∨
    (∃ text text', decode line = .ok (.chat text) ∧ decode line' = .ok (.chat text')) ∨
    ∃ target body body', decode line = .ok (.whisper target body) ∧
      decode line' = .ok (.whisper target body') := by
  unfold outlineOf
  constructor
  · intro h
    cases hdecode : decode line with
    | error refusal => cases hdecode' : decode line' <;> simp_all [Except.map]
    | ok request =>
      cases hdecode' : decode line' with
      | error refusal => simp_all [Except.map]
      | ok request' =>
        rw [hdecode, hdecode', Except.map, Except.map, Except.ok.injEq] at h
        cases request <;> cases request' <;> simp_all [outline]
  · rintro (heq | ⟨text, text', hdecode, hdecode'⟩ | ⟨target, body, body', hdecode, hdecode'⟩)
    · rw [heq]
    · rw [hdecode, hdecode']
      rfl
    · rw [hdecode, hdecode']
      rfl

end Request

/-- Two events that differ in the content of a line at most. -/
inductive Event.Akin : Event → Event → Prop where
  | refl (event : Event) : Akin event event
  | line (id : ClientId) {text text' : String}
      (htext : Request.outlineOf text = Request.outlineOf text') :
      Akin (.line id text) (.line id text')

/-- Two effects that differ at most in what somebody in the circle is told. -/
inductive Effect.Akin (circle : ClientId → Prop) : Effect → Effect → Prop where
  | refl (effect : Effect) : Akin circle effect effect
  | deliver {id : ClientId} (hid : circle id) (notice notice' : Notice) :
      Akin circle (.deliver id notice) (.deliver id notice')

variable {circle circle' : ClientId → Prop} {effect effect' : Effect}

theorem Effect.Akin.mono (h : effect.Akin circle effect') (hcircle : ∀ id, circle id → circle' id) :
    effect.Akin circle' effect' := by
  cases h with
  | refl => exact .refl _
  | deliver hid notice notice' => exact .deliver (hcircle _ hid) notice notice'

namespace Hub

/-- Whether the client is among those a request is meant for. A chat is meant for those in the room of
its sender, and a whisper for its sender and its target. -/
def Reaches (hub : Hub) (sender : Occupant) (id : ClientId) : Request → Prop
  | .chat _ => hub.directory.Seats id sender.room ∧ (id = sender.id → hub.echoChatToSender = true)
  | .whisper target _ => id = sender.id ∨ hub.directory.nicknameOf? id = some target
  | .command _ => False

/-- The event is a chat or a whisper that is meant for the client. -/
def IsFor (hub : Hub) (event : Event) (id : ClientId) : Prop :=
  ∃ sender request, hub.Asks event sender request ∧ hub.Reaches sender id request

theorem isFor_line {hub : Hub} {other id : ClientId} {line : String} :
    hub.IsFor (.line other line) id ↔ ∃ sender request,
      hub.directory.occupants[other]? = some sender ∧ Request.decode line = .ok request ∧
        sender.id = other ∧ sender.isActive = true ∧ hub.Reaches sender id request := by
  constructor
  · rintro ⟨sender, request, ⟨text, hevent, hdecode, hsender, hactive⟩, hreaches⟩
    obtain ⟨rfl, rfl⟩ := Event.line.inj hevent
    exact ⟨sender, request, hsender, hdecode, rfl, hactive, hreaches⟩
  · rintro ⟨sender, request, hsender, hdecode, rfl, hactive, hreaches⟩
    exact ⟨sender, request, ⟨line, rfl, hdecode, hsender, hactive⟩, hreaches⟩

instance (hub : Hub) (sender : Occupant) (id : ClientId) :
    (request : Request) → Decidable (hub.Reaches sender id request)
  | .chat _ => inferInstanceAs (Decidable (_ ∧ _))
  | .whisper _ _ => inferInstanceAs (Decidable (_ ∨ _))
  | .command _ => inferInstanceAs (Decidable False)

instance (hub : Hub) (id : ClientId) : (event : Event) → Decidable (hub.IsFor event id)
  | .line other line =>
    match hsender : hub.directory.occupants[other]?, hdecode : Request.decode line with
    | some sender, .ok request =>
      decidable_of_iff (sender.id = other ∧ sender.isActive = true ∧ hub.Reaches sender id request)
        (by simp [isFor_line, hsender, hdecode])
    | none, _ => isFalse (by simp [isFor_line, hsender])
    | some _, .error _ => isFalse (by simp [isFor_line, hdecode])
  | .register _ _ | .exited _ | .closed _ | .shutdown =>
    isFalse fun ⟨_, _, ⟨_, hevent, _⟩, _⟩ => by cases hevent

/-- Two outcomes that differ at most in what somebody in the circle is told. -/
inductive AkinOutcomes (circle : ClientId → Prop) : Outcome → Outcome → Prop where
  | error (defect : Defect) : AkinOutcomes circle (.error defect) (.error defect)
  | ok (hub : Hub) {effects effects' : List Effect}
      (heffects : List.Forall₂ (Effect.Akin circle) effects effects') :
      AkinOutcomes circle (.ok (hub, effects)) (.ok (hub, effects'))

variable {hub : Hub} {sender : Occupant} {event event' : Event} {outcome outcome' : Outcome}
  {id : ClientId} {line line' text target body : String}

namespace AkinOutcomes

theorem refl (outcome : Outcome) : AkinOutcomes circle outcome outcome := by
  rcases outcome with defect | ⟨hub, effects⟩
  · exact .error defect
  · exact .ok hub (List.forall₂_same.2 fun effect _ => .refl effect)

theorem mono (h : AkinOutcomes circle outcome outcome') (hcircle : ∀ id, circle id → circle' id) :
    AkinOutcomes circle' outcome outcome' := by
  cases h with
  | error defect => exact .error defect
  | ok hub heffects => exact .ok hub (heffects.imp fun _ _ heffect => heffect.mono hcircle)

theorem audited (h : AkinOutcomes circle outcome outcome') :
    AkinOutcomes circle (audited outcome) (audited outcome') := by
  cases h with
  | error defect => exact .error defect
  | ok hub heffects =>
    simp only [Hub.audited]
    split
    next violation _ => exact .error _
    next => exact .ok hub heffects

end AkinOutcomes

theorem chat_akin (hintact : hub.directory.Intact) (hasks : hub.Asks event sender (.chat text))
    (text' : String) :
    List.Forall₂ (Effect.Akin (hub.IsFor event)) (hub.chat sender text) (hub.chat sender text') := by
  unfold chat broadcast
  rw [List.forall₂_map_left_iff, List.forall₂_map_right_iff, List.forall₂_same]
  intro member hmember
  rw [List.mem_filter, mem_members hintact, Bool.and_eq_true, bne_iff_ne] at hmember
  obtain ⟨⟨hid, hroom⟩, hactive, hspared⟩ := hmember
  refine .deliver ⟨sender, _, hasks, ⟨member, hid, hactive, hroom⟩, fun hself => ?_⟩ _ _
  by_contra hecho
  rw [if_neg hecho] at hspared
  exact hspared (congrArg some hself)

/-- A whisper is passed on to those it is between, and whether it is depends on its target. -/
theorem whisper_akin (hintact : hub.directory.Intact)
    (hasks : hub.Asks event sender (.whisper target body)) (body' : String) :
    hub.whisper sender target body = hub.whisper sender target body' ∨
      ∃ effects effects', hub.whisper sender target body = .ok effects ∧
        hub.whisper sender target body' = .ok effects' ∧
        List.Forall₂ (Effect.Akin (hub.IsFor event)) effects effects' := by
  unfold whisper
  cases hfound : (hub.directory.findByNickname? target).filter Occupant.isActive with
  | none => exact Or.inl rfl
  | some hearer =>
    have htarget : hub.directory.nicknameOf? hearer.id = some target :=
      (hintact.nicknameOf?_eq_iff (Option.filter_eq_some_iff.1 hfound).1).2 rfl
    exact Or.inr ⟨_, _, rfl, rfl, .cons (.deliver ⟨sender, _, hasks, Or.inr htarget⟩ _ _)
      (.cons (.deliver ⟨sender, _, hasks, Or.inl rfl⟩ _ _) .nil)⟩

theorem request_of_decode {request : Request} (hdecode : Request.decode line = .ok request) :
    hub.request sender line =
      match hub.perform sender request with
      | .ok outcome => .ok outcome
      | .error (.broken defect) => .error defect
      | .error (.refused refusal) => .ok (hub, [.deliver sender.id (.refused refusal)]) := by
  unfold Hub.request
  rw [hdecode]
  rfl

theorem request_akin (hintact : hub.directory.Intact)
    (hid : hub.directory.occupants[sender.id]? = some sender) (hactive : sender.isActive = true)
    (hlines : Request.outlineOf line = Request.outlineOf line') :
    AkinOutcomes (hub.IsFor (.line sender.id line)) (hub.request sender line)
      (hub.request sender line') := by
  rcases Request.outlineOf_eq_iff.1 hlines with heq | ⟨text, text', hdecode, hdecode'⟩ |
    ⟨target, body, body', hdecode, hdecode'⟩
  · rw [request, request, heq]
    exact .refl _
  · rw [request_of_decode hdecode, request_of_decode hdecode']
    exact .ok hub (chat_akin hintact ⟨line, rfl, hdecode, hid, hactive⟩ text')
  · rw [request_of_decode hdecode, request_of_decode hdecode', perform, perform]
    rcases whisper_akin hintact ⟨line, rfl, hdecode, hid, hactive⟩ body' with heq |
      ⟨effects, effects', heffects, heffects', hakin⟩
    · rw [heq]
      exact .refl _
    · rw [heffects, heffects']
      exact .ok hub hakin

theorem hear_akin (hintact : hub.directory.Intact)
    (hlines : Request.outlineOf line = Request.outlineOf line') :
    AkinOutcomes (hub.IsFor (.line id line)) (hub.hear id line) (hub.hear id line') := by
  unfold hear
  split
  next sender hid =>
    obtain rfl := hintact.occupant_id hid
    split
    next hactive => exact request_akin hintact hid hactive hlines
    next => exact .refl _
  next => exact .refl _

/-- Where two events differ, only those they are meant for are told something else. -/
theorem handle_akin (hintact : hub.directory.Intact) (h : event.Akin event') :
    AkinOutcomes (fun id => event ≠ event' ∧ hub.IsFor event id) (hub.handle event)
      (hub.handle event') := by
  cases h with
  | refl => exact .refl _
  | @line id text text' htext =>
    by_cases heq : text = text'
    · subst heq
      exact .refl _
    · have hne : Event.line id text ≠ .line id text' := fun h => heq (Event.line.inj h).2
      exact (hear_akin hintact htext).audited.mono fun other hother => ⟨hne, hother⟩

end Hub

end ChatRooms
