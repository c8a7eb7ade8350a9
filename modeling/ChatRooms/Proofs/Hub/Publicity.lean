import ChatRooms.Proofs.Hub.Authors
import ChatRooms.Proofs.Hub.Due

namespace ChatRooms

open Std

def Notice.isPublic : Notice → Bool
  | chat _ _ _ | connected _ | disconnected _ | joined _ _ | left _ _ | renamed _ _ => true
  | refused _ | welcome _ _ | moved _ | alreadyIn _ | roomCreated _ | roomRemoved _ | roomList _
  | userList _ _ | nicknameSet _ | whisperFrom _ _ | whisperTo _ _ | goodbye | shuttingDown
  | help => false

namespace Hub

variable {hub hub' : Hub} {client : Occupant} {request : Request} {event : Event} {effects : List Effect}
  {id : ClientId} {directory : Directory} {room : RoomName} {notice : Notice} {spared : Option ClientId}

/-- What a client hears in public when the effects are carried out. -/
def publicFor (id : ClientId) (effects : List Effect) : List Notice :=
  (noticesFor id effects).filter Notice.isPublic

theorem publicFor_eq_nil (h : ∀ notice, .deliver id notice ∈ effects → notice.isPublic = false) :
    publicFor id effects = [] := by
  rw [publicFor, List.filter_eq_nil_iff]
  intro notice hmem
  rw [h notice (mem_noticesFor.1 hmem)]
  exact Bool.false_ne_true

theorem publicFor_cons_of_private {effect : Effect}
    (h : ∀ other notice, effect = .deliver other notice → notice.isPublic = false) :
    publicFor id (effect :: effects) = publicFor id effects := by
  have hprivate : publicFor id [effect] = [] := by
    apply publicFor_eq_nil
    intro notice hmem
    exact h id notice (List.mem_singleton.1 hmem).symm
  rw [← List.singleton_append, publicFor, noticesFor_append, List.filter_append, ← publicFor, hprivate,
    List.nil_append, publicFor]

theorem length_publicFor_broadcast_le (h : directory.Intact) :
    (publicFor id (broadcast directory room notice spared)).length ≤ 1 := by
  rw [publicFor, noticesFor_broadcast_seats h]
  apply (List.length_filter_le _ _).trans
  split <;> simp

/-- Whoever asks for something hears of it in private, unless it hears its own words. -/
theorem length_public_dueOfSuccess_le (hub : Hub) (client : Occupant) (request : Request) :
    ((hub.dueOfSuccess client client.id request).filter Notice.isPublic).length ≤ 1 := by
  have hmove (target : RoomName) :
      (hub.dueOfMove client target client.id).filter Notice.isPublic = [] := by
    rw [dueOfMove, if_pos rfl, dueToSelf, if_pos rfl]
    split <;> rfl
  cases request with
  | chat text =>
    rw [dueOfSuccess]
    apply (List.length_filter_le _ _).trans
    split <;> simp
  | whisper target body =>
    rw [dueOfSuccess, dueToSelf, if_pos rfl]
    split <;> simp [Notice.isPublic]
  | command command =>
    cases command with
    | join target =>
      rw [dueOfSuccess, hmove]
      exact Nat.zero_le 1
    | leave =>
      rw [dueOfSuccess, hmove]
      exact Nat.zero_le 1
    | nickname nickname =>
      rw [dueOfSuccess, dueOfRename, if_pos rfl]
      exact Nat.zero_le 1
    | add | remove | list | users | quit | help => simp [dueOfSuccess, dueToSelf, Notice.isPublic]

theorem Steps.length_publicFor_le (hstep : Steps hub event hub' effects)
    (hintact : hub.directory.Intact) (hadmits : hub.Admits event) (id : ClientId) :
    (publicFor id effects).length ≤ 1 := by
  have hafter := hstep.intact hintact hadmits
  cases hstep with
  | ignore => exact Nat.zero_le 1
  | refuse =>
    rw [publicFor_cons_of_private (by simp [Notice.isPublic])]
    exact Nat.zero_le 1
  | @perform sender line client request hub' effects hid _ _ hperform =>
    obtain rfl := hintact.occupant_id hid
    rw [publicFor, hperform.noticesFor_eq hintact hid]
    by_cases hself : id = client.id
    · subst hself
      exact length_public_dueOfSuccess_le hub client request
    · exact (List.length_filter_le _ _).trans (length_dueOfSuccess_le request hself)
  | welcome =>
    rw [publicFor_cons_of_private (by simp), publicFor_cons_of_private (by simp [Notice.isPublic])]
    exact length_publicFor_broadcast_le hafter
  | turnAway => exact Nat.zero_le 1
  | reclaim =>
    rw [publicFor_cons_of_private (by simp), publicFor_cons_of_private (by simp)]
    split
    next => exact Nat.zero_le 1
    next => exact length_publicFor_broadcast_le hafter
  | reclaimAgain => exact Nat.zero_le 1
  | shutdown =>
    rw [publicFor_eq_nil]
    · exact Nat.zero_le 1
    · intro notice hmem
      obtain ⟨⟨other, client⟩, -, hmem⟩ := List.mem_flatMap.1 hmem
      dsimp only at hmem
      split at hmem <;> simp only [List.mem_cons, List.not_mem_nil, or_false, reduceCtorEq] at hmem
      rw [(Effect.deliver.inj hmem).2]
      rfl

theorem Steps.exists_line_of_chat {nickname text : String} (hstep : Steps hub event hub' effects)
    (hintact : hub.directory.Intact) (hmem : .deliver id (.chat room nickname text) ∈ effects) :
    ∃ sender line, event = .line sender line := by
  obtain ⟨client, ⟨line, hevent, -⟩, -⟩ := (hstep.vouches hintact hmem).chat rfl
  exact ⟨client.id, line, hevent⟩

end Hub

end ChatRooms
