import ChatRooms.Proofs.Directory.Change
import ChatRooms.Proofs.Hub.Integrity
import Mathlib.Data.Nat.Digits.Defs

namespace ChatRooms

open Std

theorem toNat_of_isDigit {c : Char} (h : c.isDigit = true) : 48 ≤ c.toNat ∧ c.toNat ≤ 57 := by
  simp only [Char.isDigit, Bool.and_eq_true, decide_eq_true_eq] at h
  exact h

theorem utf8ByteSize_of_isDigit {cs : List Char} (h : ∀ c ∈ cs, c.isDigit = true) :
    (String.ofList cs).utf8ByteSize = cs.length := by
  induction cs with
  | nil => rfl
  | cons c cs ih =>
    have hc := toNat_of_isDigit (h c List.mem_cons_self)
    have hone : (String.ofList [c]).utf8ByteSize = 1 := by
      rw [← String.singleton_eq_ofList, String.utf8ByteSize_singleton, Char.utf8Size_eq_one_iff]
      exact Nat.le_trans hc.2 (by decide)
    have hsplit : String.ofList (c :: cs) = String.ofList [c] ++ String.ofList cs := by
      rw [← String.ofList_append, List.singleton_append]
    rw [hsplit, String.utf8ByteSize_append, hone, ih fun d hd => h d (List.mem_cons_of_mem c hd),
      List.length_cons, Nat.add_comm]

theorem isForbiddenInName_of_isDigit {c : Char} (h : c.isDigit = true) :
    isForbiddenInName c = false := by
  have hc := toNat_of_isDigit h
  have hcolon : c ≠ ':' := by
    rintro rfl
    exact absurd hc.2 (by decide)
  simp only [isForbiddenInName, Text.isBlank, Text.isControl, hcolon]
  generalize c.toNat = n at hc
  simp
  omega

namespace Hub

theorem nameFlaw_guestNickname {n : Nat} (h : n < guestLimit) :
    nameFlaw (guestNickname n) = none := by
  have hdigits : ∀ c ∈ Nat.toDigits 10 n, c.isDigit = true := fun c hc =>
    Nat.isDigit_of_mem_toDigits (by decide) (by decide) hc
  have hlength : (Nat.toDigits 10 n).length ≤ 20 :=
    Nat.toDigits_length 10 n 20 (by decide) (Nat.lt_trans h (by decide))
  have hname : guestNickname n = "guest" ++ String.ofList (Nat.toDigits 10 n) := by
    rw [guestNickname, Nat.toString_eq_ofList_toDigits]
  have hguest : "guest".utf8ByteSize = 5 := rfl
  have hsize : (guestNickname n).utf8ByteSize = 5 + (Nat.toDigits 10 n).length := by
    rw [hname, String.utf8ByteSize_append, utf8ByteSize_of_isDigit hdigits, hguest]
  have hchars : ¬(guestNickname n).toList.any isForbiddenInName = true := by
    have hword : "guest".toList.any isForbiddenInName = false := by decide
    rw [hname, String.toList_append, List.any_append, hword, String.toList_ofList, Bool.false_or,
      List.any_eq_true]
    rintro ⟨c, hc, hforbidden⟩
    rw [isForbiddenInName_of_isDigit (hdigits c hc)] at hforbidden
    cases hforbidden
  have hempty : ¬(guestNickname n).isEmpty = true := by
    rw [String.isEmpty_iff_utf8ByteSize_eq_zero, hsize]
    omega
  rw [nameFlaw, if_neg hempty, if_neg (by rw [hsize, maxNameBytes]; omega), if_neg hchars]

end Hub

theorem Command.nameFlaw_of_nicknameArgument {verb argument name : String}
    (h : nicknameArgument verb argument = .ok name) : nameFlaw name = none := by
  unfold nicknameArgument required checkName at h
  split at h
  next => cases h
  next =>
    cases hflaw : nameFlaw argument with
    | some flaw => simp [hflaw, bind, Except.bind] at h
    | none =>
      simp [hflaw, bind, Except.bind, pure, Except.pure] at h
      exact h ▸ hflaw

theorem Command.nameFlaw_of_parse {verb argument name : String}
    (h : parse verb argument = .ok (.nickname name)) : nameFlaw name = none := by
  have hroom {make : RoomName → Command} (hmake : ∀ room, make room ≠ .nickname name)
      (hmap : make <$> roomArgument verb argument = .ok (.nickname name)) : False := by
    cases hargument : roomArgument verb argument with
    | error refusal =>
      rw [hargument] at hmap
      cases hmap
    | ok room =>
      rw [hargument] at hmap
      exact hmake room (Except.ok.inj hmap)
  have hnickname (hmap : nickname <$> nicknameArgument verb argument = .ok (.nickname name)) :
      nameFlaw name = none := by
    cases hargument : nicknameArgument verb argument with
    | error refusal =>
      rw [hargument] at hmap
      cases hmap
    | ok found =>
      rw [hargument] at hmap
      obtain rfl := Command.nickname.inj (Except.ok.inj hmap)
      exact nameFlaw_of_nicknameArgument hargument
  -- The verbs with a room, then those with a nickname; the others take no argument.
  unfold parse at h
  split at h
  next => cases h
  next =>
    split at h
    case h_1 => exact (hroom (by simp) h).elim
    case h_2 => exact (hroom (by simp) h).elim
    case h_3 => exact (hroom (by simp) h).elim
    case h_7 => exact hnickname h
    case h_8 => exact hnickname h
    all_goals cases h

theorem Request.nameFlaw_of_decode {line name : String}
    (h : Request.decode line = .ok (.command (.nickname name))) : nameFlaw name = none := by
  unfold Request.decode at h
  cases hframe : Frame.parse line with
  | error refusal =>
    rw [hframe] at h
    cases h
  | ok frame =>
    rw [hframe] at h
    change ofFrame frame = _ at h
    unfold ofFrame at h
    split at h
    next => cases h
    next =>
      cases hparse : Command.parse frame.arg1 frame.arg2 with
      | error refusal =>
        rw [hparse] at h
        cases h
      | ok command =>
        rw [hparse] at h
        obtain rfl := Request.command.inj (Except.ok.inj h)
        exact Command.nameFlaw_of_parse hparse
    next => split at h <;> cases h

namespace Directory

/-- Every nickname in use is a valid name. -/
def WellNamed (directory : Directory) : Prop :=
  ∀ (id : ClientId) (occupant : Occupant), directory.occupants[id]? = some occupant →
    nameFlaw occupant.nickname = none

namespace WellNamed

variable {directory directory' : Directory} {id : ClientId} {occupant : Occupant}

theorem of_eq (h : directory.WellNamed) (heq : directory'.occupants = directory.occupants) :
    directory'.WellNamed := by
  unfold WellNamed
  rw [heq]
  exact h

theorem of_insert (h : directory.WellNamed) (hname : nameFlaw occupant.nickname = none)
    (heq : directory'.occupants = directory.occupants.insert id occupant) :
    directory'.WellNamed := by
  intro other found hfound
  rw [heq, ExtTreeMap.getElem?_insert] at hfound
  split at hfound
  next => exact Option.some.inj hfound ▸ hname
  next => exact h other found hfound

theorem of_erase (h : directory.WellNamed)
    (heq : directory'.occupants = directory.occupants.erase id) : directory'.WellNamed := by
  intro other found hfound
  rw [heq, ExtTreeMap.getElem?_erase] at hfound
  split at hfound
  next => cases hfound
  next => exact h other found hfound

end WellNamed

end Directory

namespace Hub

variable {hub hub' : Hub} {client : Occupant} {request : Request} {event : Event}
  {effects : List Effect}

theorem Performs.wellNamed (hstep : Performs hub client request hub' effects)
    (hintact : hub.directory.Intact) (h : hub.directory.WellNamed)
    (hvalid : ∀ name, request = .command (.nickname name) → nameFlaw name = none) :
    hub'.directory.WellNamed := by
  cases hstep with
  | chat | whisper | list | users | keepNickname | help => exact h
  | add hadd => exact h.of_eq (Directory.occupants_of_addRoom hadd)
  | remove hremove => exact h.of_eq (Directory.occupants_of_removeRoom hremove)
  | stay _ hmove =>
    rw [Directory.eq_of_move_unchanged hmove]
    exact h
  | move _ hmove =>
    obtain ⟨occupant, hid, -, -, -, heq, -⟩ := hintact.occupants_of_move hmove
    have hname := h client.id occupant hid
    exact h.of_insert (by exact hname) heq
  | nickname _ hrename =>
    obtain ⟨occupant, -, -, heq⟩ := Directory.occupants_of_rename hrename
    exact h.of_insert (hvalid _ rfl) heq
  | quit hquit =>
    obtain ⟨occupant, hid, heq⟩ := Directory.occupants_of_hangUp hquit
    have hname := h client.id occupant hid
    exact h.of_insert (by exact hname) heq

theorem Steps.wellNamed (hstep : Steps hub event hub' effects)
    (hintact : hub.directory.Intact) (h : hub.directory.WellNamed) : hub'.directory.WellNamed := by
  cases hstep with
  | ignore | refuse | turnAway => exact h
  | perform _ _ hdecode hperform =>
    apply hperform.wellNamed hintact h
    rintro name rfl
    exact Request.nameFlaw_of_decode hdecode
  | welcome hguest hregister =>
    obtain ⟨-, hlimit, -, -⟩ := nextGuest_spec hguest
    exact h.of_insert (nameFlaw_guestNickname hlimit) (Directory.occupants_of_register hregister).2
  | reclaim _ hremove =>
    obtain ⟨occupant, -, -, heq, -⟩ := hintact.occupants_of_remove hremove
    exact h.of_erase heq
  | reclaimAgain _ hremove =>
    rw [(Directory.eq_of_remove_none hremove).1]
    exact h
  | shutdown =>
    intro id occupant hid
    simp only [closeAll, Directory.hangUpAll, ExtTreeMap.getElem?_map,
      Option.map_eq_some_iff] at hid
    obtain ⟨found, hfound, rfl⟩ := hid
    exact h id found hfound

theorem Reachable.wellNamed {settings : Settings} (h : Reachable settings hub) :
    hub.directory.WellNamed := by
  induction h with
  | start hroom =>
    intro id occupant hid
    simp [Hub.start, Directory.new] at hid
  | step before _ hhandle ih => exact (steps_of_handle hhandle).wellNamed before.intact ih

end Hub

end ChatRooms
