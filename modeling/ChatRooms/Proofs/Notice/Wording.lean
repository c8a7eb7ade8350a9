import ChatRooms.Notice
import ChatRooms.Proofs.Request.Addressing
import ChatRooms.Proofs.Text.OneLine

namespace ChatRooms

theorem isOneLine_of_nameFlaw {name : String} (h : nameFlaw name = none) : IsOneLine name := by
  intro hmem
  exact absurd ((nameFlaw_eq_none_iff.1 h).plain '\n' hmem).2.1 (by decide)

theorem RoomName.isOneLine (room : RoomName) : IsOneLine room.text :=
  isOneLine_of_nameFlaw room.valid

namespace ClientId

theorem hexDigit_ne_newline : ∀ n < 16, hexDigit n ≠ '\n' := by decide

theorem newline_not_mem_hexDigits (width n : Nat) : '\n' ∉ hexDigits width n := by
  induction width generalizing n with
  | zero => exact List.not_mem_nil
  | succ width ih =>
    have hdigit := hexDigit_ne_newline (n % 16) (Nat.mod_lt n (by decide))
    simp [hexDigits, ih, hdigit.symm]

theorem isOneLine_render (id : ClientId) : IsOneLine id.render := by
  simp [IsOneLine, render, newline_not_mem_hexDigits]

end ClientId

/-- The text that a refusal quotes, if it quotes one. -/
def Refusal.quotes : Refusal → List String
  | invalidFormat text | unknownCommand text | alreadyExists text | notEmpty text | protectedRoom text
  | roomNotFound text | duplicateNickname text | userNotFound text | alreadyDefault text => [text]
  | clientNotFound _ | serverFull _ | tooManyRooms _ => []

theorem Refusal.isOneLine_message {refusal : Refusal} (h : ∀ text ∈ refusal.quotes, IsOneLine text) :
    IsOneLine refusal.message := by
  cases refusal with
  | invalidFormat text => exact .append (by decide +kernel) (h text List.mem_cons_self)
  | unknownCommand text | alreadyExists text | notEmpty text | protectedRoom text
  | roomNotFound text | duplicateNickname text | userNotFound text | alreadyDefault text =>
    exact (h text List.mem_cons_self).enclose (by decide +kernel) (by decide +kernel)
  | clientNotFound id => exact id.isOneLine_render.enclose (by decide +kernel) (by decide +kernel)
  | serverFull n | tooManyRooms n =>
    exact (isOneLine_toString n).enclose (by decide +kernel) (by decide +kernel)

namespace Notice

/-- The texts that a notice quotes. Rooms are told by their names, which are valid ones. -/
def quotes : Notice → List String
  | refused cause => cause.quotes
  | chat _ nickname text | whisperFrom nickname text | whisperTo nickname text => [nickname, text]
  | welcome nickname _ | connected nickname | disconnected nickname | joined nickname _
  | left nickname _ | nicknameSet nickname => [nickname]
  | renamed old new => [old, new]
  | userList _ nicknames => nicknames
  | moved _ | alreadyIn _ | roomCreated _ | roomRemoved _ | roomList _ | goodbye | shuttingDown
  | help => []

theorem isOneLine_roomEntry (entry : RoomName × Nat) : IsOneLine (roomEntry entry) :=
  .append (.append (entry.1.isOneLine.append (by decide)) (isOneLine_toString entry.2)) (by decide)

theorem isOneLine_line {notice : Notice} (h : ∀ text ∈ notice.quotes, IsOneLine text) :
    IsOneLine notice.line := by
  cases notice with
  | refused cause =>
    have hkind : IsOneLine cause.kind := by cases cause <;> simp [Refusal.kind, IsOneLine]
    exact .append (hkind.enclose (by decide) (by decide)) (Refusal.isOneLine_message h)
  | welcome nickname room =>
    have hnickname := h nickname List.mem_cons_self
    exact .append (.append (hnickname.enclose (by decide) (by decide +kernel)) room.isOneLine)
      (by decide +kernel)
  | chat room nickname text =>
    have hnickname := h nickname List.mem_cons_self
    have htext := h text (by simp [quotes])
    exact .append (.append (.append (room.isOneLine.enclose (by decide) (by decide)) hnickname)
      (by decide)) htext
  | whisperFrom nickname text | whisperTo nickname text | renamed nickname text =>
    have hnickname := h nickname List.mem_cons_self
    have htext := h text (by simp [quotes])
    exact .append (hnickname.enclose (by decide) (by decide)) htext
  | connected nickname | disconnected nickname | nicknameSet nickname =>
    exact (h nickname List.mem_cons_self).enclose (by decide +kernel) (by decide)
  | joined nickname room | left nickname room =>
    have hnickname := h nickname List.mem_cons_self
    exact .append (.append (hnickname.enclose (by decide) (by decide)) room.isOneLine) (by decide)
  | moved room | alreadyIn room | roomCreated room | roomRemoved room =>
    exact room.isOneLine.enclose (by decide +kernel) (by decide)
  | roomList rooms =>
    have hentries : ∀ text ∈ rooms.map roomEntry, IsOneLine text := by
      intro text hmem
      obtain ⟨entry, -, rfl⟩ := List.mem_map.1 hmem
      exact isOneLine_roomEntry entry
    exact .append ((isOneLine_toString rooms.length).enclose (by decide) (by decide))
      (.intercalate hentries (by decide))
  | userList room nicknames =>
    have hcount := isOneLine_toString nicknames.length
    exact .append (.append (.append (room.isOneLine.enclose (by decide) (by decide)) hcount) (by decide))
      (.intercalate h (by decide))
  | goodbye | shuttingDown | help => decide +kernel

end Notice

end ChatRooms
