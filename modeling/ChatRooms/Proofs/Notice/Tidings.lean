import ChatRooms.Notice

namespace ChatRooms

open Std

theorem space_not_mem_of_nameFlaw {name : String} (h : nameFlaw name = none) :
    ' ' ∉ name.toList := by
  intro hmem
  have hforbidden : name.toList.any isForbiddenInName = true :=
    List.any_eq_true.2 ⟨' ', hmem, by decide⟩
  unfold nameFlaw at h
  simp only [hforbidden, if_true] at h
  split at h
  next => cases h
  next => split at h <;> cases h

theorem RoomName.space_not_mem (room : RoomName) : ' ' ∉ room.text.toList :=
  space_not_mem_of_nameFlaw room.valid

/-- What stands between single spaces. -/
def words (line : String) : List String :=
  (line.toList.splitOn ' ').map String.ofList

variable {line word rest : String}

theorem words_append (h : ' ' ∉ word.toList) : words (word ++ (" " ++ rest)) = word :: words rest := by
  have hspace : " ".toList = [' '] := rfl
  rw [words, String.toList_append, String.toList_append, hspace, List.singleton_append,
    List.splitOn_append_cons_self_of_not_mem h, List.map_cons, String.ofList_toList, words]

theorem words_eq_singleton (h : ' ' ∉ word.toList) : words word = [word] := by
  rw [words, List.splitOn_eq_singleton h, List.map_singleton, String.ofList_toList]

theorem exists_words_eq_cons {c : Char} {cs : List Char} (hline : line.toList = c :: cs)
    (hc : c ≠ ' ') : ∃ w ws, words line = String.ofList (c :: w) :: ws := by
  rw [words, hline, List.splitOn_cons_eq_if_modifyHead, if_neg (by simpa using hc)]
  cases hsplit : cs.splitOn ' ' with
  | nil => exact absurd hsplit (List.splitOn_ne_nil ' ' cs)
  | cons w ws => exact ⟨w, ws.map String.ofList, rfl⟩

/-- What a line says about who is in a room. -/
inductive Tidings where
  | entered (nickname : String)
  | gone (nickname : String)
  | renamed (old new : String)
  | renamedSelf (nickname : String)
  | nothing
  deriving DecidableEq, Repr

def quoted (name : String) : String :=
  "'" ++ name ++ "'"

def unquoted (word : String) : String :=
  String.ofList word.toList.tail.dropLast

theorem unquoted_quoted (name : String) : unquoted (quoted name) = name := by
  have hquote : "'".toList = ['\''] := rfl
  rw [unquoted, quoted, String.toList_append, String.toList_append, hquote, List.singleton_append,
    List.cons_append, List.tail_cons, List.dropLast_concat, String.ofList_toList]

theorem space_not_mem_quoted {name : String} (h : ' ' ∉ name.toList) :
    ' ' ∉ (quoted name).toList := by
  simp [quoted, h]

/-- Reads a line the way a member of the room does. -/
def readTidings (room : RoomName) (line : String) : Tidings :=
  match words line with
  | ["*", nickname, "connected"] => .entered nickname
  | ["*", nickname, "disconnected"] => .gone nickname
  | ["*", nickname, "joined", "room", name] =>
    if name = quoted room.text then .entered nickname else .nothing
  | ["*", nickname, "left", "room", name] =>
    if name = quoted room.text then .gone nickname else .nothing
  | ["*", old, "is", "now", "known", "as", new] => .renamed old new
  | ["*", "your", "nickname", "is", "now", name] =>
    if name = quoted (unquoted name) then .renamedSelf (unquoted name) else .nothing
  | _ => .nothing

variable {room : RoomName}

theorem readTidings_append {c : Char} {cs : List Char} (hword : word.toList = c :: cs)
    (hspace : c ≠ ' ') (hstar : c ≠ '*') : readTidings room (word ++ rest) = .nothing := by
  have hline : (word ++ rest).toList = c :: (cs ++ rest.toList) := by
    rw [String.toList_append, hword, List.cons_append]
  obtain ⟨w, ws, hwords⟩ := exists_words_eq_cons hline hspace
  -- All that is read begins with a star that stands alone.
  have hne : String.ofList (c :: w) ≠ "*" := by
    intro heq
    have hhead : c :: w = ['*'] := by simpa using congrArg String.toList heq
    exact hstar (List.cons.inj hhead).1
  unfold readTidings
  rw [hwords]
  split <;> simp_all

/-- The words that come third in lines about who is in a room. -/
def keywords : List String :=
  ["connected", "disconnected", "joined", "left", "is", "nickname"]

theorem readTidings_of_third {second third : String} {ws : List String}
    (hwords : words line = "*" :: second :: third :: ws) (hthird : third ∉ keywords) :
    readTidings room line = .nothing := by
  simp only [keywords, List.mem_cons, List.not_mem_nil, or_false, not_or] at hthird
  unfold readTidings
  rw [hwords]
  split <;> simp_all

theorem not_mem_keywords_of_head {c : Char} {cs : List Char} (hword : word.toList = c :: cs)
    (hc : c ∉ ['c', 'd', 'j', 'l', 'i', 'n']) : word ∉ keywords := by
  have hheads : keywords.all (fun w =>
      w.toList.head?.any ['c', 'd', 'j', 'l', 'i', 'n'].contains) = true := rfl
  intro hmem
  have hhead := List.all_eq_true.1 hheads word hmem
  rw [hword, List.head?_cons, Option.any_some, List.contains_iff_mem] at hhead
  exact hc hhead

theorem quoted_not_mem_keywords (name : String) : quoted name ∉ keywords := by
  have hword : (quoted name).toList = '\'' :: (name ++ "'").toList := by
    rw [quoted, String.append_assoc, String.toList_append]
    rfl
  exact not_mem_keywords_of_head hword (by decide)

theorem exclaimed_not_mem_keywords (name : String) : name ++ "!" ∉ keywords := by
  intro hmem
  have hlast : ∀ w ∈ keywords, w.toList.getLast? ≠ some '!' := by decide
  apply hlast _ hmem
  have hmark : "!".toList = ['!'] := rfl
  rw [String.toList_append, hmark, List.getLast?_concat]

namespace Notice

/-- What a notice is meant to say about who is in a room. -/
def tidings (room : RoomName) : Notice → Tidings
  | connected nickname => .entered nickname
  | disconnected nickname => .gone nickname
  | joined nickname target => if target = room then .entered nickname else .nothing
  | left nickname origin => if origin = room then .gone nickname else .nothing
  | renamed old new => .renamed old new
  | nicknameSet nickname => .renamedSelf nickname
  | _ => .nothing

/-- The nicknames in a notice are single words. What clients wrote may be anything. -/
def IsPlain : Notice → Prop
  | welcome nickname _ | connected nickname | disconnected nickname | joined nickname _
  | left nickname _ | nicknameSet nickname => ' ' ∉ nickname.toList
  | renamed old new => ' ' ∉ old.toList ∧ ' ' ∉ new.toList
  | _ => True

section

variable {nickname old new : String}

theorem words_connected (h : ' ' ∉ nickname.toList) :
    words (connected nickname).line = ["*", nickname, "connected"] := by
  have hline : "* " ++ nickname ++ " connected" =
      "*" ++ (" " ++ (nickname ++ (" " ++ "connected"))) := by
    simp [← String.append_assoc]
  change words ("* " ++ nickname ++ " connected") = _
  rw [hline, words_append (by decide), words_append h, words_eq_singleton (by decide)]

theorem words_disconnected (h : ' ' ∉ nickname.toList) :
    words (disconnected nickname).line = ["*", nickname, "disconnected"] := by
  have hline : "* " ++ nickname ++ " disconnected" =
      "*" ++ (" " ++ (nickname ++ (" " ++ "disconnected"))) := by
    simp [← String.append_assoc]
  change words ("* " ++ nickname ++ " disconnected") = _
  rw [hline, words_append (by decide), words_append h, words_eq_singleton (by decide)]

theorem words_joined (h : ' ' ∉ nickname.toList) (target : RoomName) :
    words (joined nickname target).line =
      ["*", nickname, "joined", "room", quoted target.text] := by
  have hline : "* " ++ nickname ++ " joined room '" ++ target.text ++ "'" = "*" ++ (" " ++
      (nickname ++ (" " ++ ("joined" ++ (" " ++ ("room" ++ (" " ++ quoted target.text))))))) := by
    simp [quoted, ← String.append_assoc]
  change words ("* " ++ nickname ++ " joined room '" ++ target.text ++ "'") = _
  rw [hline, words_append (by decide), words_append h, words_append (by decide),
    words_append (by decide), words_eq_singleton (space_not_mem_quoted target.space_not_mem)]

theorem words_left (h : ' ' ∉ nickname.toList) (origin : RoomName) :
    words (left nickname origin).line = ["*", nickname, "left", "room", quoted origin.text] := by
  have hline : "* " ++ nickname ++ " left room '" ++ origin.text ++ "'" = "*" ++ (" " ++
      (nickname ++ (" " ++ ("left" ++ (" " ++ ("room" ++ (" " ++ quoted origin.text))))))) := by
    simp [quoted, ← String.append_assoc]
  change words ("* " ++ nickname ++ " left room '" ++ origin.text ++ "'") = _
  rw [hline, words_append (by decide), words_append h, words_append (by decide),
    words_append (by decide), words_eq_singleton (space_not_mem_quoted origin.space_not_mem)]

theorem words_renamed (hold : ' ' ∉ old.toList) (hnew : ' ' ∉ new.toList) :
    words (renamed old new).line = ["*", old, "is", "now", "known", "as", new] := by
  have hline : "* " ++ old ++ " is now known as " ++ new = "*" ++ (" " ++ (old ++ (" " ++
      ("is" ++ (" " ++ ("now" ++ (" " ++ ("known" ++ (" " ++ ("as" ++ (" " ++ new))))))))))) := by
    simp [← String.append_assoc]
  change words ("* " ++ old ++ " is now known as " ++ new) = _
  rw [hline, words_append (by decide), words_append hold, words_append (by decide),
    words_append (by decide), words_append (by decide), words_append (by decide),
    words_eq_singleton hnew]

theorem words_nicknameSet (h : ' ' ∉ nickname.toList) :
    words (nicknameSet nickname).line =
      ["*", "your", "nickname", "is", "now", quoted nickname] := by
  have hline : "* your nickname is now '" ++ nickname ++ "'" = "*" ++ (" " ++ ("your" ++ (" " ++
      ("nickname" ++ (" " ++ ("is" ++ (" " ++ ("now" ++ (" " ++ quoted nickname))))))))) := by
    simp [quoted, ← String.append_assoc]
  change words ("* your nickname is now '" ++ nickname ++ "'") = _
  rw [hline, words_append (by decide), words_append (by decide), words_append (by decide),
    words_append (by decide), words_append (by decide), words_eq_singleton (space_not_mem_quoted h)]

theorem words_welcome (h : ' ' ∉ nickname.toList) (target : RoomName) :
    words (welcome nickname target).line = "*" :: "welcome" :: (nickname ++ "!") ::
      words ("you are in room '" ++ target.text ++ "' (CMD:help:: lists commands)") := by
  have hline : "* welcome " ++ nickname ++ "! you are in room '" ++ target.text ++
      "' (CMD:help:: lists commands)" = "*" ++ (" " ++ ("welcome" ++ (" " ++
        (nickname ++ "!" ++ (" " ++ ("you are in room '" ++ target.text ++
          "' (CMD:help:: lists commands)")))))) := by
    apply String.toList_inj.1
    simp only [String.toList_append, List.append_assoc]
    rfl
  have hmark : ' ' ∉ (nickname ++ "!").toList := by simpa using h
  change words ("* welcome " ++ nickname ++ "! you are in room '" ++ target.text ++
    "' (CMD:help:: lists commands)") = _
  rw [hline, words_append (by decide), words_append (by decide), words_append hmark]

end

section

variable (target : RoomName)

theorem words_moved : words (moved target).line =
    "*" :: "you" :: "are" :: words ("now in room " ++ quoted target.text) := by
  have hline : "* you are now in room '" ++ target.text ++ "'" = "*" ++ (" " ++ ("you" ++ (" " ++
      ("are" ++ (" " ++ ("now in room " ++ quoted target.text)))))) := by
    simp [quoted, ← String.append_assoc]
  change words ("* you are now in room '" ++ target.text ++ "'") = _
  rw [hline, words_append (by decide), words_append (by decide), words_append (by decide)]

theorem words_alreadyIn : words (alreadyIn target).line =
    "*" :: "you" :: "are" :: words ("already in room " ++ quoted target.text) := by
  have hline : "* you are already in room '" ++ target.text ++ "'" = "*" ++ (" " ++ ("you" ++
      (" " ++ ("are" ++ (" " ++ ("already in room " ++ quoted target.text)))))) := by
    simp [quoted, ← String.append_assoc]
  change words ("* you are already in room '" ++ target.text ++ "'") = _
  rw [hline, words_append (by decide), words_append (by decide), words_append (by decide)]

theorem words_roomCreated : words (roomCreated target).line =
    "*" :: "room" :: quoted target.text :: words "created" := by
  have hline : "* room '" ++ target.text ++ "' created" = "*" ++ (" " ++ ("room" ++ (" " ++
      (quoted target.text ++ (" " ++ "created"))))) := by
    apply String.toList_inj.1
    simp only [quoted, String.toList_append, List.append_assoc]
    rfl
  change words ("* room '" ++ target.text ++ "' created") = _
  rw [hline, words_append (by decide), words_append (by decide),
    words_append (space_not_mem_quoted target.space_not_mem)]

theorem words_roomRemoved : words (roomRemoved target).line =
    "*" :: "room" :: quoted target.text :: words "removed" := by
  have hline : "* room '" ++ target.text ++ "' removed" = "*" ++ (" " ++ ("room" ++ (" " ++
      (quoted target.text ++ (" " ++ "removed"))))) := by
    apply String.toList_inj.1
    simp only [quoted, String.toList_append, List.append_assoc]
    rfl
  change words ("* room '" ++ target.text ++ "' removed") = _
  rw [hline, words_append (by decide), words_append (by decide),
    words_append (space_not_mem_quoted target.space_not_mem)]

theorem words_userList (nicknames : List String) : words (userList target nicknames).line =
    "*" :: "users" :: "in" :: words (quoted target.text ++ " (" ++ toString nicknames.length ++
      "): " ++ ", ".intercalate nicknames) := by
  have hline : "* users in '" ++ target.text ++ "' (" ++ toString nicknames.length ++ "): " ++
      ", ".intercalate nicknames = "*" ++ (" " ++ ("users" ++ (" " ++ ("in" ++ (" " ++
        (quoted target.text ++ " (" ++ toString nicknames.length ++ "): " ++
          ", ".intercalate nicknames)))))) := by
    apply String.toList_inj.1
    simp only [quoted, String.toList_append, List.append_assoc]
    rfl
  change words ("* users in '" ++ target.text ++ "' (" ++ toString nicknames.length ++ "): " ++
    ", ".intercalate nicknames) = _
  rw [hline, words_append (by decide), words_append (by decide), words_append (by decide)]

theorem words_roomList (rooms : List (RoomName × Nat)) :
    ∃ w ws, words (roomList rooms).line = "*" :: "rooms" :: String.ofList ('(' :: w) :: ws := by
  have hline : "* rooms (" ++ toString rooms.length ++ "): " ++
      ", ".intercalate (rooms.map roomEntry) = "*" ++ (" " ++ ("rooms" ++ (" " ++
        ("(" ++ (toString rooms.length ++ "): " ++ ", ".intercalate (rooms.map roomEntry)))))) := by
    simp [← String.append_assoc]
  have hparen : ("(" ++ (toString rooms.length ++ "): " ++
      ", ".intercalate (rooms.map roomEntry))).toList = '(' :: (toString rooms.length ++ "): " ++
        ", ".intercalate (rooms.map roomEntry)).toList := by
    rw [String.toList_append]
    rfl
  obtain ⟨w, ws, hwords⟩ := exists_words_eq_cons hparen (by decide)
  refine ⟨w, ws, ?_⟩
  change words ("* rooms (" ++ toString rooms.length ++ "): " ++
    ", ".intercalate (rooms.map roomEntry)) = _
  rw [hline, words_append (by decide), words_append (by decide), hwords]

end

theorem words_help : ∃ ws, words helpText = "*" :: "commands:" :: "CMD:add:<room>:" :: ws := by
  have hwords (rest : String) : words ("*" ++ (" " ++ ("commands:" ++ (" " ++
      ("CMD:add:<room>:" ++ (" " ++ rest)))))) =
        "*" :: "commands:" :: "CMD:add:<room>:" :: words rest := by
    rw [words_append (by decide), words_append (by decide), words_append (by decide)]
  have hline : helpText = "*" ++ (" " ++ ("commands:" ++ (" " ++ ("CMD:add:<room>:" ++ (" " ++
      ("CMD:rm:<room>: CMD:join:<room>: CMD:leave:: " ++
        "CMD:list:: CMD:users:: CMD:nickname:<name>: CMD:quit:: " ++
        "| chat: CHAT:<nick>:<room>:<text> | whisper: WHISPER:<nick>:<target>:<text>")))))) := by
    -- The text is put together from literals: nothing is known of it before they are opened.
    delta helpText
    apply String.toList_inj.1
    simp only [String.toList_append, List.append_assoc]
    rfl
  exact ⟨_, (congrArg words hline).trans (hwords _)⟩

theorem quoted_injective {a b : String} (h : quoted a = quoted b) : a = b := by
  rw [← unquoted_quoted a, h, unquoted_quoted]

theorem quoted_text_eq_iff {a b : RoomName} : quoted a.text = quoted b.text ↔ a = b :=
  ⟨fun h => RoomName.ext_text (quoted_injective h), fun h => h ▸ rfl⟩

theorem readTidings_line {notice : Notice} (h : notice.IsPlain) (room : RoomName) :
    readTidings room notice.line = notice.tidings room := by
  cases notice with
  | connected nickname => simp [readTidings, words_connected h, tidings]
  | disconnected nickname => simp [readTidings, words_disconnected h, tidings]
  | joined nickname target =>
    simp [readTidings, words_joined h, tidings, quoted_text_eq_iff]
  | left nickname origin => simp [readTidings, words_left h, tidings, quoted_text_eq_iff]
  | renamed old new => simp [readTidings, words_renamed h.1 h.2, tidings]
  | nicknameSet nickname => simp [readTidings, words_nicknameSet h, tidings, unquoted_quoted]
  | refused cause =>
    change readTidings room ("error: " ++ cause.kind ++ ": " ++ cause.message) = .nothing
    rw [String.append_assoc, String.append_assoc]
    exact readTidings_append (by rfl) (by decide) (by decide)
  | chat origin nickname text =>
    change readTidings room ("[" ++ origin.text ++ "] " ++ nickname ++ ": " ++ text) = .nothing
    rw [String.append_assoc, String.append_assoc, String.append_assoc, String.append_assoc]
    exact readTidings_append (by rfl) (by decide) (by decide)
  | whisperFrom sender body =>
    change readTidings room ("[whisper from " ++ sender ++ "] " ++ body) = .nothing
    rw [String.append_assoc, String.append_assoc]
    exact readTidings_append (by rfl) (by decide) (by decide)
  | whisperTo target body =>
    change readTidings room ("[whisper to " ++ target ++ "] " ++ body) = .nothing
    rw [String.append_assoc, String.append_assoc]
    exact readTidings_append (by rfl) (by decide) (by decide)
  | goodbye => rfl
  | shuttingDown => rfl
  | help =>
    obtain ⟨ws, hwords⟩ := words_help
    exact readTidings_of_third hwords (by decide)
  | welcome nickname target =>
    exact readTidings_of_third (words_welcome h target) (exclaimed_not_mem_keywords nickname)
  | moved target => exact readTidings_of_third (words_moved target) (by decide)
  | alreadyIn target => exact readTidings_of_third (words_alreadyIn target) (by decide)
  | roomCreated target =>
    exact readTidings_of_third (words_roomCreated target) (quoted_not_mem_keywords target.text)
  | roomRemoved target =>
    exact readTidings_of_third (words_roomRemoved target) (quoted_not_mem_keywords target.text)
  | userList target nicknames =>
    exact readTidings_of_third (words_userList target nicknames) (by decide)
  | roomList rooms =>
    obtain ⟨w, ws, hwords⟩ := words_roomList rooms
    have hparen : (String.ofList ('(' :: w)).toList = '(' :: w := String.toList_ofList
    exact readTidings_of_third hwords (not_mem_keywords_of_head hparen (by decide))

end Notice

end ChatRooms
