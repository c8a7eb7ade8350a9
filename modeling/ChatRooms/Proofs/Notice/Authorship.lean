import ChatRooms.Proofs.Notice.Tidings

namespace ChatRooms

theorem head?_append {word rest : String} {c : Char} (h : word.toList.head? = some c) :
    (word ++ rest).toList.head? = some c := by
  rw [String.toList_append, List.head?_append, h, Option.some_or]

namespace Notice

variable {notice : Notice} {room : RoomName} {nickname text sender body target : String}

def bracketed (name : String) : String :=
  "[" ++ name ++ "]"

theorem space_not_mem_bracketed {name : String} (h : ' ' ∉ name.toList) :
    ' ' ∉ (bracketed name).toList := by
  simp [bracketed, h]

theorem bracketed_injective {name name' : String} (h : bracketed name = bracketed name') :
    name = name' :=
  (String.append_right_inj _).1 ((String.append_left_inj _).1 h)

theorem bracketed_ne_whisper (name : String) : bracketed name ≠ "[whisper" := by
  intro heq
  have hlast : (bracketed name).toList.getLast? = some ']' := by
    have hbracket : "]".toList = [']'] := rfl
    rw [bracketed, String.toList_append, hbracket, List.getLast?_concat]
  rw [heq] at hlast
  exact absurd hlast (by decide)

/-- Whoever is named as the author could be one. -/
def IsSigned : Notice → Prop
  | chat _ nickname _ => nameFlaw nickname = none
  | whisperFrom sender _ => nameFlaw sender = none
  | _ => True

theorem line_chat : (chat room nickname text).line =
    bracketed room.text ++ (" " ++ (nickname ++ ":" ++ (" " ++ text))) := by
  change "[" ++ room.text ++ "] " ++ nickname ++ ": " ++ text = _
  apply String.toList_inj.1
  simp only [bracketed, String.toList_append, List.append_assoc]
  rfl

theorem line_whisperFrom : (whisperFrom sender body).line =
    "[whisper" ++ (" " ++ ("from" ++ (" " ++ (sender ++ "]" ++ (" " ++ body))))) := by
  change "[whisper from " ++ sender ++ "] " ++ body = _
  apply String.toList_inj.1
  simp only [String.toList_append, List.append_assoc]
  rfl

theorem line_whisperTo : (whisperTo target body).line =
    "[whisper" ++ (" " ++ ("to" ++ (" " ++ (target ++ "] " ++ body)))) := by
  change "[whisper to " ++ target ++ "] " ++ body = _
  simp [← String.append_assoc]

theorem words_chat (h : ' ' ∉ nickname.toList) : words (chat room nickname text).line =
    bracketed room.text :: (nickname ++ ":") :: words text := by
  have hmark : ' ' ∉ (nickname ++ ":").toList := by simpa using h
  rw [line_chat, words_append (space_not_mem_bracketed room.space_not_mem), words_append hmark]

theorem words_whisperFrom (h : ' ' ∉ sender.toList) : words (whisperFrom sender body).line =
    "[whisper" :: "from" :: (sender ++ "]") :: words body := by
  have hmark : ' ' ∉ (sender ++ "]").toList := by simpa using h
  rw [line_whisperFrom, words_append (by decide), words_append (by decide), words_append hmark]

theorem words_whisperTo : words (whisperTo target body).line =
    "[whisper" :: "to" :: words (target ++ "] " ++ body) := by
  rw [line_whisperTo, words_append (by decide), words_append (by decide)]

/-- What the line begins with. -/
def mark : Notice → Char
  | refused _ => 'e'
  | chat _ _ _ | whisperFrom _ _ | whisperTo _ _ => '['
  | _ => '*'

theorem head?_line (notice : Notice) : notice.line.toList.head? = some notice.mark := by
  cases notice with
  | goodbye | shuttingDown => rfl
  | connected | disconnected | moved | alreadyIn | roomCreated | roomRemoved | nicknameSet =>
    exact head?_append (head?_append rfl)
  | help =>
    change helpText.toList.head? = some '*'
    delta helpText
    exact head?_append (head?_append rfl)
  | refused | renamed | whisperFrom | whisperTo | roomList =>
    exact head?_append (head?_append (head?_append rfl))
  | welcome | joined | left => exact head?_append (head?_append (head?_append (head?_append rfl)))
  | chat | userList =>
    exact head?_append (head?_append (head?_append (head?_append (head?_append rfl))))

theorem mark_eq_of_line {other : Notice} (h : notice.line = other.line) : notice.mark = other.mark := by
  have hheads := head?_line notice
  rw [h, head?_line] at hheads
  exact (Option.some.inj hheads).symm

/-- A line that begins as those do that name an author has one, or tells an author what it whispered. -/
theorem of_mark_eq (h : notice.mark = '[') :
    (∃ room nickname text, notice = chat room nickname text) ∨
    (∃ sender body, notice = whisperFrom sender body) ∨
    ∃ target body, notice = whisperTo target body := by
  cases notice with
  | chat room nickname text => exact Or.inl ⟨room, nickname, text, rfl⟩
  | whisperFrom sender body => exact Or.inr (Or.inl ⟨sender, body, rfl⟩)
  | whisperTo target body => exact Or.inr (Or.inr ⟨target, body, rfl⟩)
  | _ => cases h

theorem eq_chat_of_line (hsigned : notice.IsSigned) (hname : nameFlaw nickname = none)
    (hline : notice.line = (chat room nickname text).line) : notice = chat room nickname text := by
  have hwords : words notice.line = bracketed room.text :: (nickname ++ ":") :: words text := by
    rw [hline, words_chat (space_not_mem_of_nameFlaw hname)]
  have hmark : notice.mark = '[' := mark_eq_of_line hline
  rcases of_mark_eq hmark with ⟨room', nickname', text', rfl⟩ | ⟨sender, body, rfl⟩ | ⟨target, body, rfl⟩
  · rw [words_chat (space_not_mem_of_nameFlaw hsigned)] at hwords
    obtain ⟨hroom, hrest⟩ := List.cons.inj hwords
    obtain ⟨hnickname, -⟩ := List.cons.inj hrest
    obtain rfl := RoomName.ext_text (bracketed_injective hroom)
    obtain rfl := (String.append_left_inj _).1 hnickname
    have htext : _ ++ text' = _ ++ text := hline
    rw [(String.append_right_inj _).1 htext]
  · rw [words_whisperFrom (space_not_mem_of_nameFlaw hsigned)] at hwords
    exact absurd (List.cons.inj hwords).1.symm (bracketed_ne_whisper room.text)
  · rw [words_whisperTo] at hwords
    exact absurd (List.cons.inj hwords).1.symm (bracketed_ne_whisper room.text)

theorem eq_whisperFrom_of_line (hsigned : notice.IsSigned) (hname : nameFlaw sender = none)
    (hline : notice.line = (whisperFrom sender body).line) : notice = whisperFrom sender body := by
  have hwords : words notice.line = "[whisper" :: "from" :: (sender ++ "]") :: words body := by
    rw [hline, words_whisperFrom (space_not_mem_of_nameFlaw hname)]
  have hmark : notice.mark = '[' := mark_eq_of_line hline
  rcases of_mark_eq hmark with ⟨room, nickname, text, rfl⟩ | ⟨sender', body', rfl⟩ | ⟨target, body', rfl⟩
  · rw [words_chat (space_not_mem_of_nameFlaw hsigned)] at hwords
    exact absurd (List.cons.inj hwords).1 (bracketed_ne_whisper room.text)
  · rw [words_whisperFrom (space_not_mem_of_nameFlaw hsigned)] at hwords
    have hsender := (List.cons.inj (List.cons.inj (List.cons.inj hwords).2).2).1
    obtain rfl := (String.append_left_inj _).1 hsender
    have hbody : _ ++ body' = _ ++ body := hline
    rw [(String.append_right_inj _).1 hbody]
  · rw [words_whisperTo] at hwords
    exact absurd (List.cons.inj (List.cons.inj hwords).2).1 (by decide)

end Notice

end ChatRooms
