import ChatRooms.Proofs.Directory.Change
import ChatRooms.Proofs.Directory.Listing

namespace ChatRooms

open Std

inductive Operation where
  | register (id : ClientId) (nickname : String) (peer : Option SocketAddress)
  | addRoom (room : RoomName)
  | removeRoom (room : RoomName)
  | move (id : ClientId) (target : RoomName) (create : Bool)
  | rename (id : ClientId) (nickname : String)
  | remove (id : ClientId)
  | hangUp (id : ClientId)
  | findByNickname (nickname : String)
  | isTaken (nickname : String)
  | hasRoom (room : RoomName)
  | members (room : RoomName)
  | nicknamesIn (room : RoomName)
  | roomSummaries
  | size
  | roomCount
  deriving DecidableEq, Repr

inductive Reply where
  | done
  | registered (client : Occupant)
  | moved (move : Move)
  | renamed (old : String)
  | removed (departure : Option Departure)
  | found (client : Option Occupant)
  | flag (value : Bool)
  | members (clients : List Occupant)
  | nicknames (nicknames : List String)
  | summaries (rooms : List (RoomName × Nat))
  | count (n : Nat)
  deriving DecidableEq, Repr

/-- An operation that is stopped changes nothing. -/
def conclude {σ : Type} (before : σ) : Except Stop (σ × Reply) → σ × Except Stop Reply
  | .ok (after, reply) => (after, .ok reply)
  | .error stop => (before, .error stop)

theorem conclude_map {σ τ : Type} (f : σ → τ) (before : σ) (outcome : Except Stop (σ × Reply)) :
    Prod.map f id (conclude before outcome) =
      conclude (f before) (outcome.map (Prod.map f id)) := by
  cases outcome <;> rfl

/-- What comes of an operation that returns a value with the state it leaves. -/
def answering {ε σ α : Type} (stop : ε → Stop) (reply : α → Reply) :
    Except ε (σ × α) → Except Stop (σ × Reply)
  | .ok (after, a) => .ok (after, reply a)
  | .error e => .error (stop e)

theorem answering_map {ε σ τ α : Type} (stop : ε → Stop) (reply : α → Reply) (f : σ → τ)
    (outcome : Except ε (σ × α)) :
    (answering stop reply outcome).map (Prod.map f id) =
      answering stop reply (outcome.map fun after => (f after.1, after.2)) := by
  cases outcome <;> rfl

def silent {σ : Type} : Except Refusal σ → Except Stop (σ × Reply)
  | .ok after => .ok (after, .done)
  | .error refusal => .error (.refused refusal)

theorem silent_map {σ τ : Type} (f : σ → τ) (outcome : Except Refusal σ) :
    (silent outcome).map (Prod.map f id) = silent (outcome.map f) := by
  cases outcome <;> rfl

namespace Roll

def perform (roll : Roll) : Operation → Except Stop (Roll × Reply)
  | .register id nickname peer =>
    match roll.register id nickname peer with
    | .error refusal => .error (.refused refusal)
    | .ok after => .ok (after, .registered
        { id, nickname, room := roll.defaultRoom, peer, presence := .active })
  | .addRoom room => silent (roll.addRoom room)
  | .removeRoom room => silent (roll.removeRoom room)
  | .move id target create => answering .refused .moved (roll.move id target create)
  | .rename id nickname => answering .refused .renamed (roll.rename id nickname)
  | .remove id => .ok ((roll.remove id).1, .removed (roll.remove id).2)
  | .hangUp id => silent (roll.hangUp id)
  | .findByNickname nickname => .ok (roll, .found (roll.findByNickname? nickname))
  | .isTaken nickname => .ok (roll, .flag (roll.isTaken nickname))
  | .hasRoom room => .ok (roll, .flag (room ∈ roll.rooms))
  | .members room => .ok (roll, .members (roll.members room))
  | .nicknamesIn room => .ok (roll, .nicknames (roll.nicknamesIn room))
  | .roomSummaries => .ok (roll, .summaries roll.roomSummaries)
  | .size => .ok (roll, .count roll.entries.size)
  | .roomCount => .ok (roll, .count roll.rooms.size)

def step (roll : Roll) (operation : Operation) : Roll × Except Stop Reply :=
  conclude roll (roll.perform operation)

end Roll

namespace Directory

def perform (directory : Directory) : Operation → Except Stop (Directory × Reply)
  | .register id nickname peer =>
    match directory.register id nickname peer with
    | .error refusal => .error (.refused refusal)
    | .ok after =>
      match after.occupant id with
      | .error refusal => .error (.refused refusal)
      | .ok client => .ok (after, .registered client)
  | .addRoom room => silent (directory.addRoom room)
  | .removeRoom room => silent (directory.removeRoom room)
  | .move id target create => answering (fun stop => stop) .moved (directory.move id target create)
  | .rename id nickname => answering .refused .renamed (directory.rename id nickname)
  | .remove id => answering .broken .removed (directory.remove id)
  | .hangUp id => silent (directory.hangUp id)
  | .findByNickname nickname => .ok (directory, .found (directory.findByNickname? nickname))
  | .isTaken nickname => .ok (directory, .flag (directory.hasNickname nickname))
  | .hasRoom room => .ok (directory, .flag (directory.hasRoom room))
  | .members room => .ok (directory, .members (directory.members room))
  | .nicknamesIn room => .ok (directory, .nicknames (directory.nicknamesIn room))
  | .roomSummaries => .ok (directory, .summaries directory.roomSummaries)
  | .size => .ok (directory, .count directory.size)
  | .roomCount => .ok (directory, .count directory.roomCount)

def step (directory : Directory) (operation : Operation) : Directory × Except Stop Reply :=
  conclude directory (directory.perform operation)

/-- Only identifiers that are not in use are registered. Everything else may be asked at any time. -/
def Admits (directory : Directory) : Operation → Prop
  | .register id _ _ => id ∉ directory.occupants
  | _ => True

/-- What a new directory can become. -/
inductive Reached (defaultRoom : RoomName) (maxRooms : Nat) : Directory → Prop
  | new : Reached defaultRoom maxRooms (new defaultRoom maxRooms)
  | step {directory : Directory} {operation : Operation}
      (before : Reached defaultRoom maxRooms directory) (hadmits : directory.Admits operation) :
      Reached defaultRoom maxRooms (directory.step operation).1

variable {directory : Directory} {operation : Operation} {defaultRoom : RoomName} {maxRooms : Nat}

theorem silent_eq_ok {outcome : Except Refusal Directory} {after : Directory} {reply : Reply}
    (h : silent outcome = .ok (after, reply)) : outcome = .ok after := by
  cases outcome with
  | error refusal => cases h
  | ok found =>
    cases h
    rfl

theorem answering_eq_ok {ε α : Type} {stop : ε → Stop} {report : α → Reply}
    {outcome : Except ε (Directory × α)} {after : Directory} {reply : Reply}
    (h : answering stop report outcome = .ok (after, reply)) :
    ∃ a, outcome = .ok (after, a) := by
  cases outcome with
  | error e => cases h
  | ok found =>
    cases h
    exact ⟨found.2, rfl⟩

theorem occupant_of_register {id : ClientId} {nickname : String} {peer : Option SocketAddress}
    {after : Directory} (h : directory.register id nickname peer = .ok after) :
    after.occupant id =
      .ok { id, nickname, room := directory.defaultRoom, peer, presence := .active } := by
  obtain ⟨-, heq⟩ := occupants_of_register h
  rw [occupant, heq, ExtTreeMap.getElem?_insert_self]

theorem conclude_fst {P : Directory → Prop} {outcome : Except Stop (Directory × Reply)}
    (hbefore : P directory) (hafter : ∀ after reply, outcome = .ok (after, reply) → P after) :
    P (conclude directory outcome).1 := by
  cases houtcome : outcome with
  | error stop => exact hbefore
  | ok after => exact hafter after.1 after.2 houtcome

namespace Intact

theorem perform (h : directory.Intact) (hadmits : directory.Admits operation) {after : Directory}
    {reply : Reply} (hperform : directory.perform operation = .ok (after, reply)) :
    after.Intact := by
  cases operation with
  | register id nickname peer =>
    rw [Directory.perform] at hperform
    cases hregister : directory.register id nickname peer with
    | error refusal => simp [hregister] at hperform
    | ok found =>
      simp only [hregister, occupant_of_register hregister, Except.ok.injEq,
        Prod.mk.injEq] at hperform
      exact hperform.1 ▸ h.register hadmits hregister
  | addRoom room => exact h.addRoom (silent_eq_ok hperform)
  | removeRoom room => exact h.removeRoom (silent_eq_ok hperform)
  | move id target create =>
    obtain ⟨move, hmove⟩ := answering_eq_ok hperform
    exact h.move hmove
  | rename id nickname =>
    obtain ⟨old, hrename⟩ := answering_eq_ok hperform
    exact h.rename hrename
  | remove id =>
    obtain ⟨departure, hremove⟩ := answering_eq_ok hperform
    exact h.remove hremove
  | hangUp id => exact h.hangUp (silent_eq_ok hperform)
  | findByNickname | isTaken | hasRoom | members | nicknamesIn | roomSummaries | size | roomCount =>
    cases hperform
    exact h

theorem step (h : directory.Intact) (hadmits : directory.Admits operation) :
    (directory.step operation).1.Intact := by
  apply conclude_fst h
  intro after reply hperform
  exact h.perform hadmits hperform

theorem roll_perform (h : directory.Intact) :
    (directory.perform operation).map (Prod.map roll id) = directory.roll.perform operation := by
  cases operation with
  | register id nickname peer =>
    rw [Directory.perform, Roll.perform, ← h.roll_register]
    cases hregister : directory.register id nickname peer with
    | error refusal => rfl
    | ok after =>
      dsimp only
      rw [occupant_of_register hregister]
      rfl
  | addRoom room => rw [Directory.perform, Roll.perform, silent_map, roll_addRoom]
  | removeRoom room => rw [Directory.perform, Roll.perform, silent_map, h.roll_removeRoom]
  | move id target create =>
    rw [Directory.perform, Roll.perform, answering_map, h.roll_move]
    cases directory.roll.move id target create <;> rfl
  | rename id nickname => rw [Directory.perform, Roll.perform, answering_map, h.roll_rename]
  | remove id =>
    rw [Directory.perform, Roll.perform, answering_map, h.roll_remove]
    rfl
  | hangUp id => rw [Directory.perform, Roll.perform, silent_map, roll_hangUp]
  | findByNickname nickname =>
    rw [Directory.perform, Roll.perform, h.findByNickname?_eq]
    rfl
  | isTaken nickname =>
    rw [Directory.perform, Roll.perform, h.hasNickname_eq]
    rfl
  | hasRoom room =>
    have hhas : directory.hasRoom room = decide (room ∈ directory.roll.rooms) := by
      rw [Bool.eq_iff_iff, hasRoom_iff, decide_eq_true_iff, mem_roll_rooms]
    rw [Directory.perform, Roll.perform, hhas]
    rfl
  | members room =>
    rw [Directory.perform, Roll.perform, h.members_eq]
    rfl
  | nicknamesIn room =>
    rw [Directory.perform, Roll.perform, h.nicknamesIn_eq]
    rfl
  | roomSummaries =>
    rw [Directory.perform, Roll.perform, h.roomSummaries_eq]
    rfl
  | size =>
    rw [Directory.perform, Roll.perform, roll_entries_size]
    rfl
  | roomCount =>
    rw [Directory.perform, Roll.perform, roll_rooms_size]
    rfl

theorem roll_step (h : directory.Intact) (operation : Operation) :
    Prod.map roll id (directory.step operation) = directory.roll.step operation := by
  rw [Directory.step, conclude_map, h.roll_perform, Roll.step]

end Intact

theorem Reached.intact (h : Reached defaultRoom maxRooms directory) : directory.Intact := by
  induction h with
  | new => exact intact_new defaultRoom maxRooms
  | step _ hadmits ih => exact ih.step hadmits

theorem Reached.replies_of_roll (h : Reached defaultRoom maxRooms directory) :
    (∀ operation, (directory.step operation).1.roll = (directory.roll.step operation).1 ∧
      (directory.step operation).2 = (directory.roll.step operation).2) ∧
    (directory.roomSummaries.map fun room => Text.utf8Bytes room.1.text).Pairwise (· < ·) ∧
    (∀ name, name ∈ directory.roomSummaries.map Prod.fst ↔ name ∈ directory.roll.rooms) ∧
    (directory.roomSummaries.map Prod.snd).sum = directory.roll.entries.size ∧
    ∀ name, ((directory.nicknamesIn name).map Text.utf8Bytes).Pairwise (· < ·) ∧
      ∀ nickname, nickname ∈ directory.nicknamesIn name ↔
        ∃ (id : ClientId) (entry : Entry), directory.roll.entries[id]? = some entry ∧
          entry.room = name ∧ entry.nickname = nickname := by
  have hintact := h.intact
  refine ⟨?_, ?_, ?_, ?_, ?_⟩
  · intro operation
    rw [← hintact.roll_step]
    exact ⟨rfl, rfl⟩
  · have hordered := hintact.roomSummaries_ordered
    rw [List.pairwise_map] at hordered ⊢
    exact hordered.imp utf8Bytes_lt_of_compare
  · intro name
    rw [hintact.roomSummaries_fst, ExtTreeMap.mem_keys, mem_roll_rooms]
  · rw [hintact.sum_roomSummaries, roll_entries_size, size]
  · intro name
    refine ⟨?_, ?_⟩
    · rw [List.pairwise_map]
      exact (hintact.nicknamesIn_ordered name).imp utf8Bytes_lt_of_compare
    · intro nickname
      rw [hintact.mem_nicknamesIn]
      simp only [roll_entries_getElem?, Option.map_eq_some_iff]
      constructor
      · rintro ⟨id, occupant, hid, hroom, hname⟩
        exact ⟨id, occupant.entry, ⟨occupant, hid, rfl⟩, hroom, hname⟩
      · rintro ⟨id, entry, ⟨occupant, hid, rfl⟩, hroom, hname⟩
        exact ⟨id, occupant, hid, hroom, hname⟩

/-- Two clients, one of whom founds a room, asks for the nickname of the other and goes back. -/
theorem replies_of_roll_two_clients :
    let general : RoomName := ⟨"general", by decide⟩
    let dev : RoomName := ⟨"dev", by decide⟩
    let directory := ((((new general 2).step (.register 1 "ann" none)).1.step
      (.register 2 "bob" none)).1.step (.move 2 dev true)).1
    (directory.step (.rename 2 "ann")).2 = (directory.roll.step (.rename 2 "ann")).2 ∧
      (directory.step (.rename 2 "ann")).2 ≠ (directory.step (.rename 2 "eve")).2 ∧
      (directory.step (.move 2 general false)).1.roll =
        (directory.roll.step (.move 2 general false)).1 ∧
      (directory.roll.step (.move 2 general false)).1.rooms.toList = [general] ∧
      directory.roomSummaries = [(dev, 1), (general, 1)] ∧
      (directory.roomSummaries.map Prod.snd).sum = directory.roll.entries.size ∧
      "bob" ∈ directory.nicknamesIn dev := by
  intro general dev directory
  have h₁ : Reached general 2 ((new general 2).step (.register 1 "ann" none)).1 :=
    .step .new (by show 1 ∉ _; decide)
  have h₂ : Reached general 2 directory := .step (.step h₁ (by show 2 ∉ _; decide)) trivial
  obtain ⟨hreplies, -, -, hsum, hlistings⟩ := h₂.replies_of_roll
  exact ⟨(hreplies (.rename 2 "ann")).2, by decide, (hreplies (.move 2 general false)).1, by decide,
    by decide, hsum, ((hlistings dev).2 "bob").2 ⟨2, ⟨"bob", dev, none, .active⟩, by decide, rfl, rfl⟩⟩

end Directory

end ChatRooms
