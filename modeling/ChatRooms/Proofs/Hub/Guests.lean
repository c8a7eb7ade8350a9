import ChatRooms.Hub
import Mathlib.Data.List.Nodup
import Std.Data.String.ToNat

namespace ChatRooms.Hub

open Std

theorem guestNickname_injective {m n : Nat} (h : guestNickname m = guestNickname n) : m = n :=
  Nat.repr_injective ((String.append_right_inj "guest").1 h)

variable {directory : Directory} {tries last n : Nat}

theorem nextGuest_spec (h : nextGuest directory tries last = some n) :
    last < n ∧ n < guestLimit ∧ directory.hasNickname (guestNickname n) = false ∧
      ∀ k, last < k → k < n → directory.hasNickname (guestNickname k) = true := by
  induction tries generalizing last with
  | zero => simp [nextGuest] at h
  | succ tries ih =>
    rw [nextGuest] at h
    split at h
    next => cases h
    next hlimit =>
      split at h
      next htaken =>
        obtain ⟨hlast, hn, hfree, hbetween⟩ := ih h
        refine ⟨by omega, hn, hfree, ?_⟩
        intro k hk hkn
        -- The first try met a nickname that is taken; the rest is left to the tries after it.
        by_cases hfirst : k = last + 1
        · exact hfirst ▸ htaken
        · exact hbetween k (by omega) hkn
      next hfree =>
        obtain rfl := Option.some.inj h
        exact ⟨by omega, by omega, by simpa using hfree, fun k hk hkn => by omega⟩

theorem nextGuest_eq_none (h : nextGuest directory tries last = none) :
    guestLimit ≤ last + tries ∨
      ∀ k, last < k → k ≤ last + tries → directory.hasNickname (guestNickname k) = true := by
  induction tries generalizing last with
  | zero => exact Or.inr fun k hk hkn => by omega
  | succ tries ih =>
    rw [nextGuest] at h
    split at h
    next hlimit => exact Or.inl (by omega)
    next =>
      split at h
      next htaken =>
        rcases ih h with hlimit | hbetween
        · exact Or.inl (by omega)
        · refine Or.inr fun k hk hkn => ?_
          by_cases hfirst : k = last + 1
          · exact hfirst ▸ htaken
          · exact hbetween k (by omega) (by omega)
      next => cases h

theorem exists_free_guest (directory : Directory) (last : Nat) :
    ∃ k, last < k ∧ k ≤ last + (directory.nicknames.size + 1) ∧
      directory.hasNickname (guestNickname k) = false := by
  by_contra hall
  have htaken : ((List.range' (last + 1) (directory.nicknames.size + 1)).map guestNickname) ⊆
      directory.nicknames.keys := by
    intro nickname hmem
    obtain ⟨k, hk, rfl⟩ := List.mem_map.1 hmem
    rw [List.mem_range'_1] at hk
    rw [ExtTreeMap.mem_keys, ← ExtTreeMap.contains_iff_mem]
    by_contra hfree
    exact hall ⟨k, by omega, by omega, Bool.not_eq_true _ ▸ hfree⟩
  have hnodup : ((List.range' (last + 1) (directory.nicknames.size + 1)).map guestNickname).Nodup :=
    (List.nodup_range').map fun _ _ => guestNickname_injective
  -- One more than there are keys.
  have hle := hnodup.length_le_of_subset htaken
  rw [List.length_map, List.length_range', ExtTreeMap.length_keys] at hle
  omega

theorem guestLimit_le_of_nextGuestNumber {hub : Hub} (h : hub.nextGuestNumber = none) :
    guestLimit ≤ hub.lastGuest + (hub.directory.nicknames.size + 1) := by
  rcases nextGuest_eq_none h with hlimit | htaken
  · exact hlimit
  · obtain ⟨k, hk, hkn, hfree⟩ := exists_free_guest hub.directory hub.lastGuest
    rw [htaken k hk hkn] at hfree
    cases hfree

end ChatRooms.Hub
