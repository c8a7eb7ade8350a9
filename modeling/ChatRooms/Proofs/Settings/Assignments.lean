import Mathlib.Data.List.Nodup
import ChatRooms.Proofs.Settings.Values

namespace ChatRooms.Settings

variable {settings settings' : Settings} {field : Field}

/-- A value for a field. -/
abbrev Assignment :=
  (field : Field) × field.kind.Value

variable {assignments : List Assignment}

def assign (settings : Settings) (assignments : List Assignment) : Settings :=
  assignments.foldl (fun settings assignment => assignment.1.set settings assignment.2) settings

/-- The fields that are given have these values, and all others have their defaults. -/
structure Replaces (assignments : List Assignment) (settings : Settings) : Prop where
  given {assignment : Assignment} : assignment ∈ assignments →
    assignment.1.get settings = assignment.2
  default {field : Field} : field ∉ assignments.map Sigma.fst → field.get settings = field.get {}

theorem get_assign_of_not_mem (h : field ∉ assignments.map Sigma.fst) :
    field.get (settings.assign assignments) = field.get settings := by
  induction assignments generalizing settings with
  | nil => rfl
  | cons assignment assignments ih =>
    rw [List.map_cons, List.mem_cons, not_or] at h
    exact (ih h.2).trans (Field.get_set_of_ne h.1 _)

theorem get_assign_of_mem {assignment : Assignment} (hnodup : (assignments.map Sigma.fst).Nodup)
    (h : assignment ∈ assignments) :
    assignment.1.get (settings.assign assignments) = assignment.2 := by
  induction assignments generalizing settings with
  | nil => cases h
  | cons first assignments ih =>
    rw [List.map_cons, List.nodup_cons] at hnodup
    rcases List.mem_cons.1 h with rfl | h
    · -- No later assignment is for the same field.
      exact (get_assign_of_not_mem hnodup.1).trans (Field.get_set_self _)
    · exact ih hnodup.2 h

theorem replaces_assign (h : (assignments.map Sigma.fst).Nodup) :
    Replaces assignments (assign {} assignments) where
  given := get_assign_of_mem h
  default := get_assign_of_not_mem

theorem Replaces.unique (h : Replaces assignments settings) (h' : Replaces assignments settings') :
    settings = settings' := by
  refine Field.ext_get fun field => ?_
  by_cases hfield : field ∈ assignments.map Sigma.fst
  · obtain ⟨assignment, hmem, rfl⟩ := List.mem_map.1 hfield
    exact (h.given hmem).trans (h'.given hmem).symm
  · exact (h.default hfield).trans (h'.default hfield).symm

theorem Replaces.perm {assignments' : List Assignment} (h : Replaces assignments settings)
    (hperm : assignments.Perm assignments') : Replaces assignments' settings where
  given hmem := h.given (hperm.mem_iff.2 hmem)
  default hfield := h.default fun hmem => hfield ((hperm.map Sigma.fst).mem_iff.1 hmem)

/-- All that keeps a server from running with these settings, in the order of the checks. -/
def faults (settings : Settings) : List String :=
  (if settings.maxClients = 0 then ["max_clients must be positive"] else []) ++
  ((if settings.maxRooms = 0 then ["max_rooms must be positive"] else []) ++
  ((if settings.clientQueue = 0 ∨ settings.channelCapacity = 0 then
    ["queue capacities must be positive"] else []) ++
  ((if settings.maxLineLength = 0 then ["max_line_length must be positive"] else []) ++
  match nameFlaw settings.defaultRoom with
  | none => []
  | some flaw => ["default_room: " ++
      (Refusal.malformed (.badName "room name" flaw settings.defaultRoom)).message])))

def verdict (settings : Settings) : Except Failure Settings :=
  match settings.faults with
  | [] => .ok settings
  | fault :: _ => .error (.settings fault)

theorem defaultRoomName_eq (settings : Settings) : settings.defaultRoomName.map (fun _ => ()) =
    match nameFlaw settings.defaultRoom with
    | none => .ok ()
    | some flaw => .error (.settings ("default_room: " ++
        (Refusal.malformed (.badName "room name" flaw settings.defaultRoom)).message)) := by
  rw [defaultRoomName, RoomName.parse]
  split
  next heq =>
    split at heq
    next => cases heq
    next h => rw [h]; rfl
  next heq =>
    split at heq
    next h => cases heq; rw [h]; rfl
    next => cases heq

theorem check_eq (settings : Settings) : settings.check =
    match settings.faults with
    | [] => .ok ()
    | fault :: _ => .error (.settings fault) := by
  have hroom := defaultRoomName_eq settings
  unfold check faults
  split
  next => rfl
  rw [List.nil_append]
  split
  next => rfl
  rw [List.nil_append]
  split
  next => rfl
  rw [List.nil_append]
  split
  next => rfl
  rw [List.nil_append]
  refine Eq.trans ?_ (hroom.trans ?_)
  · cases settings.defaultRoomName <;> rfl
  · cases nameFlaw settings.defaultRoom <;> rfl

/-- What a check finds out. -/
structure IsChecked (settings : Settings) : Prop where
  maxClients : settings.maxClients ≠ 0
  channelCapacity : settings.channelCapacity ≠ 0
  clientQueue : settings.clientQueue ≠ 0
  maxLineLength : settings.maxLineLength ≠ 0
  defaultRoom : ∃ room, settings.defaultRoomName = .ok room

theorem isChecked_of_check (h : settings.check = .ok ()) : settings.IsChecked := by
  unfold check at h
  split at h
  next => cases h
  next hclients =>
    split at h
    next => cases h
    next =>
      split at h
      next => cases h
      next hqueues =>
        split at h
        next => cases h
        next hlength =>
          split at h
          next room hroom =>
            exact ⟨hclients, fun hzero => hqueues (Or.inr hzero), fun hzero => hqueues (Or.inl hzero),
              hlength, room, hroom⟩
          next => cases h

theorem ofJson_of_readJson {text : String} (h : readJson text = .ok settings) :
    ofJson text = settings.verdict := by
  rw [ofJson, h, verdict]
  dsimp only
  rw [check_eq]
  cases settings.faults <;> rfl

end ChatRooms.Settings
