import ChatRooms.Proofs.Directory.Refinement
import ChatRooms.Proofs.Hub.Step

namespace ChatRooms

open Std

/-- The notice that an effect is for the client, if it is one. -/
def Effect.noticeFor (id : ClientId) : Effect → Option Notice
  | deliver other notice => if other = id then some notice else none
  | _ => none

def noticesFor (id : ClientId) (effects : List Effect) : List Notice :=
  effects.filterMap (Effect.noticeFor id)

namespace Hub

variable {id other : ClientId} {notice : Notice} {effects more : List Effect}
  {directory : Directory} {room : RoomName} {spared : Option ClientId} {client : Occupant}

@[simp] theorem noticesFor_nil : noticesFor id [] = [] := rfl

@[simp] theorem noticesFor_append :
    noticesFor id (effects ++ more) = noticesFor id effects ++ noticesFor id more :=
  List.filterMap_append

@[simp] theorem noticesFor_deliver_self :
    noticesFor id (.deliver id notice :: effects) = notice :: noticesFor id effects := by
  simp [noticesFor, Effect.noticeFor]

theorem noticesFor_deliver_of_ne (h : other ≠ id) :
    noticesFor id (.deliver other notice :: effects) = noticesFor id effects := by
  simp [noticesFor, Effect.noticeFor, h]

@[simp] theorem noticesFor_hangUp :
    noticesFor id (.hangUp other :: effects) = noticesFor id effects := rfl

@[simp] theorem noticesFor_attach :
    noticesFor id (.attach other :: effects) = noticesFor id effects := rfl

@[simp] theorem noticesFor_detach :
    noticesFor id (.detach other :: effects) = noticesFor id effects := rfl

theorem mem_noticesFor : notice ∈ noticesFor id effects ↔ .deliver id notice ∈ effects := by
  rw [noticesFor, List.mem_filterMap]
  constructor
  · rintro ⟨effect, hmem, hnotice⟩
    unfold Effect.noticeFor at hnotice
    split at hnotice
    next other found =>
      split at hnotice
      next heq =>
        obtain rfl := Option.some.inj hnotice
        exact heq ▸ hmem
      next => cases hnotice
    next => cases hnotice
  · intro hmem
    exact ⟨_, hmem, if_pos rfl⟩

theorem eq_of_mem_noticesFor {found : Notice} (h : found ∈ noticesFor id [.deliver other notice]) :
    found = notice := by
  have hmem := mem_noticesFor.1 h
  rw [List.mem_singleton] at hmem
  exact (Effect.deliver.inj hmem).2

theorem noticesFor_eq_nil (h : ∀ notice, Effect.deliver id notice ∉ effects) :
    noticesFor id effects = [] := by
  rw [List.eq_nil_iff_forall_not_mem]
  intro notice hmem
  exact h notice (mem_noticesFor.1 hmem)

theorem mem_members (h : directory.Intact) : client ∈ directory.members room ↔
    directory.occupants[client.id]? = some client ∧ client.room = room := by
  rw [h.members_eq, h.mem_roll_members]

theorem nodup_members (h : directory.Intact) (room : RoomName) :
    ((directory.members room).map Occupant.id).Nodup := by
  have hids : (directory.members room).map Occupant.id =
      (directory.lodgers room).map Prod.fst := by
    rw [h.members_eq_lodgers, List.map_map]
    apply List.map_congr_left
    rintro ⟨id, occupant⟩ hmem
    exact h.occupant_id (Directory.mem_lodgers.1 hmem).1
  rw [hids, List.Nodup, List.pairwise_map]
  apply List.Pairwise.filter
  exact ExtTreeMap.distinct_keys_toList.imp fun hne heq => by simp [heq] at hne

theorem mem_broadcast (h : directory.Intact) {effect : Effect} :
    effect ∈ broadcast directory room notice spared ↔
      ∃ member : Occupant, directory.occupants[member.id]? = some member ∧ member.room = room ∧
        member.isActive = true ∧ some member.id ≠ spared ∧ effect = .deliver member.id notice := by
  rw [broadcast, List.mem_map]
  simp only [List.mem_filter, mem_members h, Bool.and_eq_true, bne_iff_ne, and_assoc]
  simp only [eq_comm]

theorem hangUp_not_mem_broadcast : Effect.hangUp id ∉ broadcast directory room notice spared := by
  simp [broadcast]

theorem noticesFor_eq_singleton {hearers : List Occupant} (hnodup : (hearers.map Occupant.id).Nodup)
    (hmem : client ∈ hearers) :
    noticesFor client.id (hearers.map fun member => .deliver member.id notice) = [notice] := by
  induction hearers with
  | nil => cases hmem
  | cons hearer hearers ih =>
    rw [List.map_cons, List.nodup_cons] at hnodup
    rw [List.map_cons]
    by_cases hid : hearer.id = client.id
    · have hnone : noticesFor client.id
          (hearers.map fun member => Effect.deliver member.id notice) = [] := by
        apply noticesFor_eq_nil
        intro other hdeliver
        obtain ⟨member, hmember, heq⟩ := List.mem_map.1 hdeliver
        have hsame : member.id = client.id := (Effect.deliver.inj heq).1
        exact hnodup.1 (hid.trans hsame.symm ▸ List.mem_map_of_mem hmember)
      rw [hid, noticesFor_deliver_self, hnone]
    · rw [noticesFor_deliver_of_ne hid]
      apply ih hnodup.2
      rcases List.mem_cons.1 hmem with rfl | htail
      · exact absurd rfl hid
      · exact htail

theorem noticesFor_broadcast (h : directory.Intact) (hid : directory.occupants[id]? = some client)
    (hactive : client.isActive = true) (hroom : client.room = room) (hspared : some id ≠ spared) :
    noticesFor id (broadcast directory room notice spared) = [notice] := by
  obtain rfl := h.occupant_id hid
  apply noticesFor_eq_singleton
  · exact (nodup_members h room).sublist (List.filter_sublist.map Occupant.id)
  · rw [List.mem_filter, mem_members h, Bool.and_eq_true, bne_iff_ne]
    exact ⟨⟨hid, hroom⟩, hactive, hspared⟩

theorem noticesFor_broadcast_of_ne (h : directory.Intact)
    (hid : directory.occupants[id]? = some client) (hroom : client.room ≠ room) :
    noticesFor id (broadcast directory room notice spared) = [] := by
  apply noticesFor_eq_nil
  intro other hmem
  obtain ⟨member, hmember, hmemberRoom, -, -, heq⟩ := (mem_broadcast h).1 hmem
  obtain rfl := (Effect.deliver.inj heq).1
  obtain rfl := Option.some.inj (hmember.symm.trans hid)
  exact hroom hmemberRoom

theorem noticesFor_broadcast_eq (h : directory.Intact)
    (hid : directory.occupants[id]? = some client) (hactive : client.isActive = true)
    (hspared : some id ≠ spared) :
    noticesFor id (broadcast directory room notice spared) =
      if client.room = room then [notice] else [] := by
  split
  next hroom => exact noticesFor_broadcast h hid hactive hroom hspared
  next hroom => exact noticesFor_broadcast_of_ne h hid hroom

theorem noticesFor_broadcast_spared (h : directory.Intact) :
    noticesFor id (broadcast directory room notice (some id)) = [] := by
  apply noticesFor_eq_nil
  intro other hmem
  obtain ⟨member, -, -, -, hspared, heq⟩ := (mem_broadcast h).1 hmem
  exact hspared (congrArg some (Effect.deliver.inj heq).1.symm)

end Hub

end ChatRooms
