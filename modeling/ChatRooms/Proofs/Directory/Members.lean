import ChatRooms.Room
import Mathlib.Logic.Basic

namespace ChatRooms.Room

open Std

variable {room room' : Room} {id : ClientId} {gone gone' : ClientId → Bool}

theorem eq_of_members (hname : room'.name = room.name) (hdefault : room'.isDefault = room.isDefault)
    (hmembers : ∀ id, id ∈ room'.members ↔ id ∈ room.members) : room' = room := by
  have hsame : room'.members = room.members := ExtTreeSet.ext_mem fun {id} => hmembers id
  obtain ⟨name, isDefault, members⟩ := room'
  subst hname hdefault hsame
  rfl

theorem mem_members_add {other : ClientId} :
    other ∈ (room.add id).members ↔ other = id ∨ other ∈ room.members := by
  rw [add, ExtTreeSet.mem_insert, Std.compare_eq_iff_eq, eq_comm]

theorem mem_members_remove {other : ClientId} :
    other ∈ (room.remove id).members ↔ other ≠ id ∧ other ∈ room.members := by
  rw [remove, ExtTreeSet.mem_erase, ne_eq, Std.compare_eq_iff_eq, eq_comm]

theorem remove_add (h : id ∉ room.members) : (room.add id).remove id = room := by
  refine eq_of_members (by rfl) (by rfl) fun other => ?_
  rw [mem_members_remove, mem_members_add]
  grind

theorem add_remove (h : id ∈ room.members) : (room.remove id).add id = room := by
  refine eq_of_members (by rfl) (by rfl) fun other => ?_
  rw [mem_members_add, mem_members_remove]
  grind

/-- The room without those who are gone. -/
def without (room : Room) (gone : ClientId → Bool) : Room :=
  { room with members := room.members.filter fun id => !gone id }

/-- Whether the room is still there then. One that nobody was in to begin with is. -/
def outlives (room : Room) (gone : ClientId → Bool) : Bool :=
  room.isDefault || room.isEmpty || !(room.without gone).isEmpty

/-- What is left of the room, if it is still there. -/
def remnant? (room : Room) (gone : ClientId → Bool) : Option Room :=
  if room.outlives gone then some (room.without gone) else none

theorem mem_members_without :
    id ∈ (room.without gone).members ↔ id ∈ room.members ∧ gone id = false := by
  simp [without]

theorem isEmpty_without_iff :
    (room.without gone).isEmpty = true ↔ ∀ id ∈ room.members, gone id = true := by
  rw [isEmpty, ExtTreeSet.isEmpty_iff, ExtTreeSet.eq_empty_iff_forall_not_mem]
  simp only [mem_members_without, not_and, Bool.not_eq_false]

theorem without_eq_self (h : ∀ id ∈ room.members, gone id = false) : room.without gone = room := by
  refine eq_of_members (by rfl) (by rfl) fun id => ?_
  rw [mem_members_without]
  exact and_iff_left_of_imp (h id)

theorem remnant?_of_forall (h : ∀ id ∈ room.members, gone id = false) :
    room.remnant? gone = some room := by
  have hstays : room.outlives gone = true := by
    rw [outlives, without_eq_self h, Bool.or_assoc, Bool.or_not_self, Bool.or_true]
  rw [remnant?, if_pos hstays, without_eq_self h]

theorem outlives_iff : room.outlives gone = true ↔
    room.isDefault = true ∨ room.isEmpty = true ∨ ∃ id ∈ room.members, gone id = false := by
  rw [outlives, Bool.or_eq_true, Bool.or_eq_true, or_assoc, Bool.not_eq_true', ← Bool.not_eq_true,
    isEmpty_without_iff]
  simp only [not_forall, Bool.not_eq_true, exists_prop]

theorem without_singleton : room.without (· == id) = room.remove id := by
  refine eq_of_members (by rfl) (by rfl) fun other => ?_
  rw [mem_members_without, mem_members_remove, beq_eq_false_iff_ne, and_comm]

theorem without_without :
    (room.without gone).without gone' = room.without fun id => gone id || gone' id := by
  refine eq_of_members (by rfl) (by rfl) fun id => ?_
  rw [mem_members_without, mem_members_without, mem_members_without, Bool.or_eq_false_iff, and_assoc]

theorem outlives_or : room.outlives (fun id => gone id || gone' id) =
    (room.outlives gone && (room.without gone).outlives gone') := by
  have hvacant : room.isEmpty = true → (room.without gone).isEmpty = true := by
    intro hempty
    rw [isEmpty, ExtTreeSet.isEmpty_iff] at hempty
    simp [isEmpty_without_iff, hempty]
  -- Once nobody is left, nobody comes back.
  have hrest : (room.without gone).isEmpty = true →
      (room.without fun id => gone id || gone' id).isEmpty = true := by
    rw [isEmpty_without_iff, isEmpty_without_iff]
    exact fun hall id hmem => by rw [hall id hmem, Bool.true_or]
  have hdefault : (room.without gone).isDefault = room.isDefault := rfl
  rw [outlives, outlives, outlives, without_without, hdefault]
  grind

theorem remnant?_remnant? : (room.remnant? gone).bind (fun left => left.remnant? gone') =
    room.remnant? fun id => gone id || gone' id := by
  rw [remnant?, remnant?, outlives_or, ← without_without]
  cases room.outlives gone <;> rfl

theorem remnant?_singleton (h : id ∈ room.members) : room.remnant? (· == id) =
    if (room.remove id).isDeserted then none else some (room.remove id) := by
  have hempty : room.isEmpty = false := by
    rw [isEmpty, ← Bool.not_eq_true, ExtTreeSet.isEmpty_iff]
    intro hnobody
    exact ExtTreeSet.not_mem_empty (hnobody ▸ h)
  have hstays : room.outlives (· == id) = !(room.remove id).isDeserted := by
    have hdefault : (room.remove id).isDefault = room.isDefault := rfl
    rw [outlives, without_singleton, hempty, isDeserted, hdefault, Bool.or_false, Bool.not_and,
      Bool.not_not, Bool.or_comm]
  rw [remnant?, hstays, without_singleton]
  cases (room.remove id).isDeserted <;> rfl

end ChatRooms.Room
