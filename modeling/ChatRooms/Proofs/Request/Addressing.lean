import ChatRooms.Proofs.Request.Grammar

namespace ChatRooms

open Text

/-- What a valid name is. -/
structure IsProperName (name : String) : Prop where
  size : 1 ≤ name.utf8ByteSize ∧ name.utf8ByteSize ≤ 31
  plain : ∀ c ∈ name.toList, c ≠ ':' ∧ isBlank c = false ∧ isControl c = false

theorem nameFlaw_eq_none_iff {name : String} : nameFlaw name = none ↔ IsProperName name := by
  have hplain : name.toList.any isForbiddenInName = false ↔
      ∀ c ∈ name.toList, c ≠ ':' ∧ isBlank c = false ∧ isControl c = false := by
    simp only [List.any_eq_false, isForbiddenInName, Bool.or_eq_true, decide_eq_true_eq, not_or,
      Bool.not_eq_true, and_assoc]
  constructor
  · intro h
    unfold nameFlaw at h
    split at h
    next => cases h
    next hempty =>
      split at h
      next => cases h
      next hlong =>
        split at h
        next => cases h
        next hforbidden =>
          rw [String.isEmpty_iff_utf8ByteSize_eq_zero] at hempty
          refine ⟨⟨Nat.pos_of_ne_zero hempty, Nat.not_lt.1 hlong⟩, ?_⟩
          exact hplain.1 (Bool.eq_false_iff.2 hforbidden)
  · rintro ⟨⟨hpos, hshort⟩, hchars⟩
    have hempty : ¬name.isEmpty = true := by
      rw [String.isEmpty_iff_utf8ByteSize_eq_zero]
      omega
    have hshort : ¬maxNameBytes < name.utf8ByteSize := Nat.not_lt.2 hshort
    rw [nameFlaw, if_neg hempty, if_neg hshort, if_neg (Bool.eq_false_iff.1 (hplain.2 hchars))]

namespace IsProperName

variable {name : String}

theorem colon_not_mem (h : IsProperName name) : ':' ∉ name.toList :=
  fun hmem => (h.plain ':' hmem).1 rfl

theorem carries (h : IsProperName name) : Carries name.toList name.toList := by
  refine ⟨⟨fun c hc => ?_, fun c hc => ?_⟩, [], [], nofun, nofun, (List.append_nil _).symm⟩
  · exact (h.plain c (List.mem_of_mem_head? hc)).2.1
  · exact (h.plain c (List.mem_of_mem_getLast? hc)).2.1

theorem toList_ne_nil (h : IsProperName name) : name.toList ≠ [] := by
  intro hnil
  have hsize := h.size.1
  rw [← String.ofList_toList (s := name), hnil] at hsize
  exact absurd hsize (by decide)

end IsProperName

namespace Request

variable {name body : String}

theorem decode_join (room : RoomName) :
    decode ("CMD:join:" ++ room.text ++ ":") = .ok (.command (.join room)) := by
  have hproper := nameFlaw_eq_none_iff.1 room.valid
  have htag : Carries "CMD".toList "CMD".toList := trim_eq_iff.1 rfl
  have hverb : Carries "join".toList "join".toList := trim_eq_iff.1 rfl
  have hline : ("CMD:join:" ++ room.text ++ ":").toList =
      Frame.write "CMD".toList "join".toList room.text.toList (some []) := by
    rw [String.toList_append, String.toList_append]
    rfl
  have hlast : '\r' ∉ ("CMD:join:" ++ room.text ++ ":").toList.getLast? := by
    have hcolon : ":".toList = [':'] := rfl
    rw [String.toList_append, hcolon, List.getLast?_concat]
    decide
  have hwrites : Frame.Writes ("CMD:join:" ++ room.text ++ ":").toList "CMD".toList "join".toList
      room.text.toList [] :=
    ⟨_, _, _, some [], by decide, by decide, hproper.colon_not_mem, htag, hverb, hproper.carries, rfl,
      Or.inr ⟨hline, hline ▸ hlast⟩⟩
  have hspells : Spells "join" "join".toList := (spells_iff rfl).2 rfl
  exact decode_of_renders (.command hwrites ((spells_iff rfl).2 rfl) hspells (.join room))

/-- A client is whispered to under its nickname. A line ending would not be part of what is whispered. -/
theorem decode_whisper (hproper : IsProperName name) (hbody : body.toList.getLast? ≠ some '\r') :
    decode ("WHISPER::" ++ name ++ ":" ++ body) = .ok (.whisper name body) := by
  have htag : Carries "WHISPER".toList "WHISPER".toList := trim_eq_iff.1 rfl
  have hnothing : Carries [] [] := trim_eq_iff.1 rfl
  have hline : ("WHISPER::" ++ name ++ ":" ++ body).toList =
      Frame.write "WHISPER".toList [] name.toList (some body.toList) := by
    simp only [String.toList_append, List.append_assoc]
    rfl
  have hlast : '\r' ∉ ("WHISPER::" ++ name ++ ":" ++ body).toList.getLast? := by
    have hcolon : ":".toList = [':'] := rfl
    rw [String.toList_append, List.getLast?_append]
    cases hend : body.toList.getLast? with
    | some c => exact fun hmem => hbody (hend.trans (by simpa using hmem))
    | none =>
      rw [String.toList_append, hcolon, List.getLast?_concat]
      decide
  have hwrites : Frame.Writes ("WHISPER::" ++ name ++ ":" ++ body).toList "WHISPER".toList []
      name.toList body.toList :=
    ⟨_, _, _, some _, by decide, List.not_mem_nil, hproper.colon_not_mem, htag, hnothing, hproper.carries, rfl,
      Or.inr ⟨hline, hline ▸ hlast⟩⟩
  have hdecode := decode_of_renders (.whisper hwrites ((spells_iff rfl).2 rfl) hproper.toList_ne_nil)
  rwa [String.ofList_toList, String.ofList_toList] at hdecode

end Request

end ChatRooms
