import ChatRooms.Proofs.Hub.Lifetimes

namespace ChatRooms.Hub

open Std

/-- The first number after the one given out last whose nickname is free. -/
structure IsNextGuest (hub : Hub) (n : Nat) : Prop where
  lt : hub.lastGuest < n
  free : hub.directory.hasNickname (guestNickname n) = false
  taken {k : Nat} : hub.lastGuest < k → k < n → hub.directory.hasNickname (guestNickname k) = true

/-- The number that a newcomer is given. -/
def numberGiven? : Hub × Event → Option Nat
  | (hub, .register _ _) => hub.nextGuestNumber
  | _ => none

variable {directory : Directory} {settings : Settings} {past : List (Hub × Event)} {hub hub' : Hub}
  {client : Occupant} {request : Request} {event : Event} {effects : List Effect}
  {tries last n : Nat} {id : ClientId} {peer : Option SocketAddress}

/-- The search takes one try for each number up to the one that it finds. -/
theorem nextGuest_eq (hlast : last < n) (hlimit : n < guestLimit)
    (hfree : directory.hasNickname (guestNickname n) = false)
    (htaken : ∀ k, last < k → k < n → directory.hasNickname (guestNickname k) = true) (tries : Nat) :
    nextGuest directory tries last = if n ≤ last + tries then some n else none := by
  induction tries generalizing last with
  | zero => rw [nextGuest, if_neg (by omega)]
  | succ tries ih =>
    -- The first try is the last one, or it is in vain and the others go on from there.
    rw [nextGuest, if_neg (by omega)]
    by_cases hfirst : last + 1 = n
    · rw [hfirst, hfree, if_neg Bool.false_ne_true, if_pos (by omega)]
    · rw [if_pos (htaken _ (by omega) (by omega)),
        ih (by omega) fun k hk hkn => htaken k (by omega) hkn]
      congr 2
      omega

theorem isNextGuest_of_nextGuestNumber (h : hub.nextGuestNumber = some n) : hub.IsNextGuest n := by
  obtain ⟨hlt, -, hfree, htaken⟩ := nextGuest_spec h
  exact ⟨hlt, hfree, htaken _⟩

theorem IsNextGuest.le (h : hub.IsNextGuest n) :
    n ≤ hub.lastGuest + (hub.directory.nicknames.size + 1) := by
  obtain ⟨k, hk, hle, hfree⟩ := exists_free_guest hub.directory hub.lastGuest
  by_contra hlt
  rw [h.taken hk (by omega)] at hfree
  cases hfree

theorem exists_nextGuestNumber
    (hroom : hub.lastGuest + hub.directory.nicknames.size + 1 < guestLimit) :
    ∃ n, hub.nextGuestNumber = some n := by
  cases hguest : hub.nextGuestNumber with
  | some n => exact ⟨n, rfl⟩
  | none =>
    have hlimit := guestLimit_le_of_nextGuestNumber hguest
    omega

theorem Performs.lastGuest_eq (hstep : Performs hub client request hub' effects) :
    hub'.lastGuest = hub.lastGuest := by
  cases hstep <;> rfl

/-- The number is used up even if the newcomer should be turned away. -/
theorem Steps.lastGuest (hstep : Steps hub event hub' effects) :
    numberGiven? (hub, event) = none ∧ hub'.lastGuest = hub.lastGuest ∨
      ∃ n, numberGiven? (hub, event) = some n ∧ hub.lastGuest < n ∧ hub'.lastGuest = n := by
  cases hstep with
  | ignore | refuse | shutdown => exact Or.inl ⟨rfl, rfl⟩
  | perform _ _ _ hperform => exact Or.inl ⟨rfl, hperform.lastGuest_eq⟩
  | welcome hguest | turnAway hguest =>
    exact Or.inr ⟨_, hguest, (isNextGuest_of_nextGuestNumber hguest).lt, rfl⟩
  | reclaim hevent | reclaimAgain hevent =>
    rcases hevent with rfl | rfl <;> exact Or.inl ⟨rfl, rfl⟩

theorem handle_register_eq (hguest : hub.nextGuestNumber = some n)
    (hregister : hub.directory.register id (guestNickname n) peer = .ok directory) :
    hub.handle (.register id peer) = .ok ({ hub with directory, lastGuest := n },
      .attach id :: .deliver id (.welcome (guestNickname n) directory.defaultRoom) ::
        broadcast directory directory.defaultRoom (.connected (guestNickname n)) (some id)) := by
  rw [handle, welcome, hguest]
  dsimp only
  rw [hregister]

theorem nicknameOf?_of_register {directory' : Directory} {nickname : String}
    (hregister : directory.register id nickname peer = .ok directory') :
    directory'.nicknameOf? id = some nickname := by
  rw [Directory.nicknameOf?, (Directory.occupants_of_register hregister).2,
    ExtTreeMap.getElem?_insert_self, Option.map_some]

theorem History.exists_handle {moment : Hub × Event} (h : History settings past hub)
    (hmem : moment ∈ past) : Reachable settings moment.1 ∧
      ∃ after effects, moment.1.handle moment.2 = .ok (after, effects) := by
  induction h with
  | start => cases hmem
  | step before _ hhandle ih =>
    rw [List.mem_append, List.mem_singleton] at hmem
    obtain hearlier | rfl := hmem
    · exact ih hearlier
    · exact ⟨before.reachable, _, _, hhandle⟩

theorem History.numbersGiven (h : History settings past hub) :
    (past.filterMap numberGiven?).Pairwise (· < ·) ∧
      ∀ n ∈ past.filterMap numberGiven?, n ≤ hub.lastGuest := by
  induction h with
  | start => exact ⟨.nil, nofun⟩
  | @step past hub hub' event effects before _ hhandle ih =>
    obtain ⟨hordered, hle⟩ := ih
    rw [List.filterMap_append]
    -- A number that is drawn now is above the one drawn last, which is the highest so far.
    obtain ⟨hnone, hsame⟩ | ⟨n, hsome, hlt, rfl⟩ := (steps_of_handle hhandle).lastGuest
    · rw [List.filterMap_cons_none hnone, List.filterMap_nil, List.append_nil, hsame]
      exact ⟨hordered, hle⟩
    · rw [List.filterMap_cons_some hsome, List.filterMap_nil]
      refine ⟨List.pairwise_append.2 ⟨hordered, List.pairwise_singleton _ _, ?_⟩, fun k hk => ?_⟩
      · intro k hk n hn
        obtain rfl := List.mem_singleton.1 hn
        exact Nat.lt_of_le_of_lt (hle k hk) hlt
      · obtain hk | hk := List.mem_append.1 hk
        · exact Nat.le_of_lt (Nat.lt_of_le_of_lt (hle k hk) hlt)
        · exact Nat.le_of_eq (List.mem_singleton.1 hk)

theorem Reachable.given_is_free (h : Reachable settings hub)
    (hhandle : hub.handle (.register id peer) = .ok (hub', effects)) :
    ∃ n, numberGiven? (hub, .register id peer) = some n ∧ hub.IsNextGuest n ∧
      (∀ other, hub.directory.nicknameOf? other ≠ some (guestNickname n)) ∧
      hub'.lastGuest = n ∧ hub'.directory.nicknameOf? id = some (guestNickname n) := by
  cases steps_of_handle hhandle with
  | @welcome _ _ n directory hguest hregister =>
    have hnext := isNextGuest_of_nextGuestNumber hguest
    refine ⟨n, hguest, hnext, fun other hother => ?_, rfl, nicknameOf?_of_register hregister⟩
    -- Whatever nickname somebody has is in the index, and the search has looked there.
    have hindexed := (h.intact.indexed _ other).2 hother
    have htaken : hub.directory.hasNickname (guestNickname n) = true :=
      ExtTreeMap.contains_iff_mem.2 (Maps.mem_of_getElem? hindexed)
    rw [hnext.free] at htaken
    cases htaken
  | turnAway hguest hregister => exact absurd hregister (register_ne_error hguest)
  | reclaim hevent | reclaimAgain hevent => rcases hevent with hevent | hevent <;> cases hevent

/-- A newcomer gets the first number in line that is free, and is not kept waiting for long. So numbers only
go up over a run, and nobody is given a nickname that somebody has. -/
theorem guest_numbers :
    (∀ hub : Hub, hub.lastGuest + hub.directory.nicknames.size + 1 < guestLimit →
      ∃ n, hub.IsNextGuest n ∧ n ≤ hub.lastGuest + (hub.directory.nicknames.size + 1) ∧
        (∀ tries, nextGuest hub.directory tries hub.lastGuest =
          if n ≤ hub.lastGuest + tries then some n else none) ∧
        ∀ id peer, ∃ directory effects,
          hub.directory.register id (guestNickname n) peer = .ok directory ∧
          hub.handle (.register id peer) = .ok ({ hub with directory, lastGuest := n }, effects)) ∧
    ∀ (settings : Settings) (past : List (Hub × Event)) (hub : Hub), History settings past hub →
      (past.filterMap numberGiven?).Pairwise (· < ·) ∧ (past.filterMap numberGiven?).Nodup ∧
      ∀ before id peer, (before, Event.register id peer) ∈ past →
        ∃ n after effects, numberGiven? (before, .register id peer) = some n ∧
          before.handle (.register id peer) = .ok (after, effects) ∧ before.IsNextGuest n ∧
          (∀ other, before.directory.nicknameOf? other ≠ some (guestNickname n)) ∧
          after.lastGuest = n ∧ after.directory.nicknameOf? id = some (guestNickname n) := by
  refine ⟨fun hub hroom => ?_, fun settings past hub h => ?_⟩
  · obtain ⟨n, hguest⟩ := exists_nextGuestNumber hroom
    have hnext := isNextGuest_of_nextGuestNumber hguest
    have hle := hnext.le
    refine ⟨n, hnext, hle, nextGuest_eq hnext.lt (by omega) hnext.free fun _ => hnext.taken,
      fun id peer => ?_⟩
    obtain ⟨directory, hregister⟩ := exists_register hguest id peer
    exact ⟨directory, _, hregister, handle_register_eq hguest hregister⟩
  · obtain ⟨hordered, -⟩ := h.numbersGiven
    refine ⟨hordered, hordered.imp Nat.ne_of_lt, fun before id peer hmem => ?_⟩
    obtain ⟨hreachable, after, effects, hhandle⟩ := h.exists_handle hmem
    obtain ⟨n, hgiven, hnext, hfree, hlast, hname⟩ := hreachable.given_is_free hhandle
    exact ⟨n, after, effects, hgiven, hhandle, hnext, hfree, hlast, hname⟩

set_option maxRecDepth 20000 in
/-- The first guest takes the nickname of the second, who gets the third. When the first has gone, its
number is free again, but it is not given out a second time. -/
theorem guest_numbers_reclaimed :
    ∃ (past : List (Hub × Event)) (hub : Hub), History {} past hub ∧
      past.filterMap numberGiven? = [1, 3] ∧ hub.directory.hasNickname "guest2" = false ∧
      (past.filterMap numberGiven?).Nodup ∧ hub.IsNextGuest 4 := by
  have run {past : List (Hub × Event)} {hub hub' : Hub} {effects : List Effect}
      (h : History {} past hub) (event : Event) (hadmits : hub.Admits event)
      (hhandle : hub.handle event = .ok (hub', effects)) :
      History {} (past ++ [(hub, event)]) hub' := .step h hadmits hhandle
  have h₀ : History {} [] (.start {} ⟨"general", by decide⟩) := .start rfl
  have h₁ := run h₀ (.register 1 none) (by decide) rfl
  have h₂ := run h₁ (.line 1 "CMD:nickname:guest2:") trivial rfl
  have h₃ := run h₂ (.register 2 none) (by decide) rfl
  have h₄ := run h₃ (.closed 1) trivial rfl
  obtain ⟨past, hub, h, hgiven, hfree, hlast, hsize, hnext⟩ : ∃ (past : List (Hub × Event)) (hub : Hub),
      History {} past hub ∧ past.filterMap numberGiven? = [1, 3] ∧
      hub.directory.hasNickname "guest2" = false ∧ hub.lastGuest = 3 ∧
      hub.directory.nicknames.size = 1 ∧ hub.nextGuestNumber = some 4 :=
    ⟨_, _, h₄, by decide, by decide, rfl, by decide, by decide⟩
  obtain ⟨hsearch, hruns⟩ := guest_numbers
  obtain ⟨n, hnumber, hle, htries, -⟩ := hsearch hub (by rw [hlast, hsize]; decide)
  have hfound : hub.nextGuestNumber = some n := (htries _).trans (if_pos hle)
  obtain rfl : n = 4 := Option.some.inj (hfound.symm.trans hnext)
  exact ⟨past, hub, h, hgiven, hfree, (hruns _ past hub h).2.1, hnumber⟩

end ChatRooms.Hub
