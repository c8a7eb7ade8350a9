import ChatRooms.Proofs.Directory.Refinement
import ChatRooms.Proofs.Text.ByteOrder
import Mathlib.Algebra.BigOperators.Group.Finset.Piecewise
import Mathlib.Algebra.Ring.Nat

namespace ChatRooms.Directory

open Std

variable {directory : Directory} {id : ClientId} {occupant : Occupant} {name : RoomName}
  {nickname : String}

theorem utf8Bytes_lt_of_compare {a b : String} (h : compare a b = .lt) :
    Text.utf8Bytes a < Text.utf8Bytes b := by
  apply Text.utf8Bytes_lt
  exact compareOfLessAndEq_eq_lt.1 h

theorem sum_count_by_key {α β : Type} [DecidableEq β] (key : α → β) {keys : List β} {l : List α}
    (hnodup : keys.Nodup) (hmem : ∀ a ∈ l, key a ∈ keys) :
    (keys.map fun k => (l.filter fun a => key a = k).length).sum = l.length := by
  induction l with
  | nil => simp
  | cons a l ih =>
    -- An element counts for its own key, which is listed once.
    have hone : (keys.map fun k => if key a = k then 1 else 0).sum = 1 := by
      rw [← List.sum_toFinset _ hnodup, Finset.sum_ite_eq,
        if_pos (List.mem_toFinset.2 (hmem a List.mem_cons_self))]
    have hcons : ∀ k, ((a :: l).filter fun b => key b = k).length =
        (if key a = k then 1 else 0) + (l.filter fun b => key b = k).length := by
      intro k
      by_cases hk : key a = k <;> simp [hk, Nat.add_comm]
    simp only [hcons, List.sum_map_add, hone]
    rw [ih fun b hb => hmem b (List.mem_cons_of_mem a hb), List.length_cons, Nat.add_comm]

namespace Intact

theorem nodup_nicknames (h : directory.Intact) (name : RoomName) :
    ((directory.lodgers name).map fun entry => entry.2.nickname).Nodup := by
  have hids : (directory.lodgers name).Nodup := by
    apply List.Nodup.filter
    exact ExtTreeMap.distinct_keys_toList.imp fun hne heq => by simp [heq] at hne
  apply hids.map_on
  rintro ⟨id, occupant⟩ hmem ⟨other, found⟩ hother (hsame : occupant.nickname = found.nickname)
  have hid := (mem_lodgers.1 hmem).1
  have hfound := (mem_lodgers.1 hother).1
  obtain rfl := h.indexed.eq_of_name_eq (nicknameOf?_eq hid) (hsame ▸ nicknameOf?_eq hfound)
  rw [Option.some.inj (hid.symm.trans hfound)]

theorem nicknamesIn_perm (h : directory.Intact) (name : RoomName) :
    (directory.nicknamesIn name).Perm
      ((directory.lodgers name).map fun entry => entry.2.nickname) := by
  rw [nicknamesIn, h.members_eq_lodgers, List.map_map]
  exact List.mergeSort_perm _ _

theorem nicknamesIn_ordered (h : directory.Intact) (name : RoomName) :
    (directory.nicknamesIn name).Pairwise (compare · · = .lt) := by
  have hle : (directory.nicknamesIn name).Pairwise fun a b => (compare a b).isLE = true := by
    apply List.pairwise_mergeSort
    · intro a b c hab hbc
      exact TransCmp.isLE_trans hab hbc
    · intro a b
      rw [Bool.or_eq_true, ← OrientedCmp.isGE_iff_isLE (a := a)]
      cases compare a b <;> simp
  have hnodup : (directory.nicknamesIn name).Nodup :=
    (h.nicknamesIn_perm name).nodup_iff.2 (h.nodup_nicknames name)
  -- Sorting leaves equals side by side, and there are none.
  apply hle.imp₂ _ hnodup
  intro a b hab hne
  cases hcompare : compare a b with
  | lt => rfl
  | eq => exact absurd (LawfulEqOrd.eq_of_compare hcompare) hne
  | gt => simp [hcompare] at hab

theorem mem_nicknamesIn (h : directory.Intact) : nickname ∈ directory.nicknamesIn name ↔
    ∃ (id : ClientId) (occupant : Occupant), directory.occupants[id]? = some occupant ∧
      occupant.room = name ∧ occupant.nickname = nickname := by
  rw [(h.nicknamesIn_perm name).mem_iff, List.mem_map]
  simp only [Prod.exists, mem_lodgers, and_assoc]

theorem roomSummaries_fst (h : directory.Intact) :
    directory.roomSummaries.map Prod.fst = directory.rooms.keys := by
  rw [h.roomSummaries_eq, Roll.roomSummaries, roll_rooms_toList, List.map_map]
  exact List.map_id _

theorem roomSummaries_ordered (h : directory.Intact) :
    (directory.roomSummaries.map Prod.fst).Pairwise (compare · · = .lt) := by
  rw [h.roomSummaries_fst]
  exact ExtTreeMap.ordered_keys

theorem sum_roomSummaries (h : directory.Intact) :
    (directory.roomSummaries.map Prod.snd).sum = directory.size := by
  have hcounts : directory.roomSummaries.map Prod.snd = directory.rooms.keys.map fun name =>
      (directory.occupants.toList.filter fun entry => entry.2.room = name).length := by
    rw [h.roomSummaries_eq, Roll.roomSummaries, roll_rooms_toList, List.map_map]
    apply List.map_congr_left
    intro name _
    show (directory.roll.members name).length = _
    rw [h.roll_members, List.length_map]
    rfl
  rw [hcounts, sum_count_by_key, ExtTreeMap.length_toList, size]
  · exact ExtTreeMap.nodup_keys
  · rintro ⟨id, occupant⟩ hmem
    rw [ExtTreeMap.mem_keys]
    exact h.housed.mem_of_place (roomOf?_eq (ExtTreeMap.mem_toList_iff_getElem?_eq_some.1 hmem))

end Intact

end ChatRooms.Directory
