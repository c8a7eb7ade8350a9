import ChatRooms.Proofs.Notice.Authorship
import ChatRooms.Proofs.Notice.Causes

namespace ChatRooms

variable {line : String}

/-- A text is its words with single spaces between them. -/
def unwords (words : List String) : String :=
  " ".intercalate words

theorem unwords_words (line : String) : unwords (words line) = line := by
  have hspace : " ".toList = [' '] := rfl
  have hlists : (words line).map String.toList = line.toList.splitOn ' ' := by
    rw [words, List.map_map]
    exact (List.map_congr_left fun _ _ => String.toList_ofList).trans (List.map_id _)
  apply String.toList_inj.1
  rw [unwords, String.toList_intercalate, hlists, hspace, List.intercalate_splitOn]

/-- A name that stands before a mark. -/
def unmarked (word : String) : String :=
  String.ofList word.toList.dropLast

theorem unmarked_append (name : String) {mark : String} {c : Char} (h : mark.toList = [c]) :
    unmarked (name ++ mark) = name := by
  rw [unmarked, String.toList_append, h, List.dropLast_concat, String.ofList_toList]

/-- A room whose name stands between quotes or brackets. -/
def enclosedRoom? (word : String) : Option RoomName :=
  (RoomName.parse (unquoted word)).toOption

theorem RoomName.toOption_parse_text (room : RoomName) :
    (RoomName.parse room.text).toOption = some room := by
  rw [parse_text]
  rfl

theorem enclosedRoom?_quoted (room : RoomName) : enclosedRoom? (quoted room.text) = some room := by
  rw [enclosedRoom?, unquoted_quoted, RoomName.toOption_parse_text]

theorem enclosedRoom?_bracketed (room : RoomName) :
    enclosedRoom? (Notice.bracketed room.text) = some room := by
  have hname : unquoted (Notice.bracketed room.text) = room.text := by
    have hopen : "[".toList = ['['] := rfl
    have hclose : "]".toList = [']'] := rfl
    rw [unquoted, Notice.bracketed, String.toList_append, String.toList_append, hopen, hclose,
      List.singleton_append, List.cons_append, List.tail_cons, List.dropLast_concat,
      String.ofList_toList]
  rw [enclosedRoom?, hname, RoomName.toOption_parse_text]

/-- The number between parentheses, whatever follows them. -/
def counted (n : Nat) : String :=
  "(" ++ toString n ++ ")"

def count? (word : String) : Option Nat :=
  (String.ofList (word.toList.tail.takeWhile Char.isDigit)).toNat?

theorem count?_counted (n : Nat) (rest : String) : count? (counted n ++ rest) = some n := by
  have hdigits : (toString n).toList.all Char.isDigit = true := by
    rw [Nat.toString_eq_ofList_toDigits, String.toList_ofList, List.all_eq_true]
    intro c hc
    exact Nat.isDigit_of_mem_toDigits (by decide) (by decide) hc
  have hchars : (counted n ++ rest).toList = '(' :: ((toString n).toList ++ ')' :: rest.toList) := by
    simp [counted]
  have hnumber : ((counted n ++ rest).toList.tail.takeWhile Char.isDigit) = (toString n).toList := by
    rw [hchars, List.tail_cons, List.takeWhile_append_of_pos (List.all_eq_true.1 hdigits),
      List.takeWhile_cons_of_neg (by decide), List.append_nil]
  rw [count?, hnumber, String.ofList_toList]
  exact Nat.toNat?_repr n

theorem space_not_mem_counted (n : Nat) : ' ' ∉ (counted n).toList := by
  have hdigits : ' ' ∉ (toString n).toList := by
    rw [Nat.toString_eq_ofList_toDigits, String.toList_ofList]
    intro hmem
    exact absurd (Nat.isDigit_of_mem_toDigits (by decide) (by decide) hmem) (by decide)
  simpa [counted] using hdigits

/-- Names that stand one after another, each but the last with a comma. -/
def readNames : List String → List String
  | [] => []
  | [name] => if name.isEmpty then [] else [name]
  | name :: rest => unmarked name :: readNames rest

/-- Rooms, each with the number of its members. -/
def readRooms? : List String → Option (List (RoomName × Nat))
  | name :: count :: rest =>
    match (RoomName.parse name).toOption, count? count, readRooms? rest with
    | some room, some n, some rooms => some ((room, n) :: rooms)
    | _, _, _ => none
  | _ => some []

theorem intercalate_comma_cons (name next : String) (names : List String) :
    ", ".intercalate (name :: next :: names) =
      name ++ "," ++ (" " ++ ", ".intercalate (next :: names)) := by
  have hcomma : ", " = "," ++ " " := rfl
  rw [String.intercalate_cons_cons]
  nth_rewrite 1 [hcomma]
  simp only [String.append_assoc]

theorem readNames_cons_words (name line : String) :
    readNames (name :: words line) = unmarked name :: readNames (words line) := by
  have hne : words line ≠ [] := by simp [words, List.splitOn_ne_nil]
  cases hwords : words line with
  | nil => exact absurd hwords hne
  | cons word rest => rfl

theorem readNames_words {names : List String} (h : ∀ name ∈ names, nameFlaw name = none) :
    readNames (words (", ".intercalate names)) = names := by
  induction names with
  | nil => rfl
  | cons name names ih =>
    have hname := h name List.mem_cons_self
    have hspace := space_not_mem_of_nameFlaw hname
    cases names with
    | nil =>
      have hempty : name.isEmpty = false := by
        cases hempty : name.isEmpty with
        | false => rfl
        | true => simp [nameFlaw, hempty] at hname
      rw [String.intercalate_singleton, words_eq_singleton hspace, readNames, hempty]
      rfl
    | cons next names =>
      have hmark : ' ' ∉ (name ++ ",").toList := by simpa using hspace
      rw [intercalate_comma_cons, words_append hmark, readNames_cons_words, unmarked_append name rfl,
        ih fun name hmem => h name (List.mem_cons_of_mem _ hmem)]

theorem readRooms?_cons {room : RoomName} {n : Nat} {mark : String} {ws : List String}
    {rooms : List (RoomName × Nat)} (h : readRooms? ws = some rooms) :
    readRooms? (room.text :: (counted n ++ mark) :: ws) = some ((room, n) :: rooms) := by
  rw [readRooms?, room.toOption_parse_text, count?_counted, h]

theorem readRooms?_words (rooms : List (RoomName × Nat)) :
    readRooms? (words (", ".intercalate (rooms.map Notice.roomEntry))) = some rooms := by
  have hentry (room : RoomName) (n : Nat) :
      Notice.roomEntry (room, n) = room.text ++ (" " ++ counted n) := by
    simp [Notice.roomEntry, counted, ← String.append_assoc]
  induction rooms with
  | nil => rfl
  | cons entry rooms ih =>
    obtain ⟨room, n⟩ := entry
    cases rooms with
    | nil =>
      have hlast := @readRooms?_cons room n "" [] [] rfl
      rw [String.append_empty] at hlast
      rw [List.map_singleton, String.intercalate_singleton, hentry, words_append room.space_not_mem,
        words_eq_singleton (space_not_mem_counted n), hlast]
    | cons next rooms =>
      have hmark : ' ' ∉ (counted n ++ ",").toList := by simpa using space_not_mem_counted n
      have hline (rest : String) : Notice.roomEntry (room, n) ++ "," ++ (" " ++ rest) =
          room.text ++ (" " ++ (counted n ++ "," ++ (" " ++ rest))) := by
        rw [hentry]
        simp only [String.append_assoc]
      rw [List.map_cons, List.map_cons, intercalate_comma_cons, ← List.map_cons, hline,
        words_append room.space_not_mem, words_append hmark, readRooms?_cons ih]

namespace Notice

/-- Lines about what somebody has done begin with a nickname. -/
def readDoing (nickname third : String) (rest : List String) : Option Notice :=
  match third, rest with
  | "connected", [] => some (connected nickname)
  | "disconnected", [] => some (disconnected nickname)
  | "joined", ["room", name] => (enclosedRoom? name).map (joined nickname)
  | "left", ["room", name] => (enclosedRoom? name).map (left nickname)
  | "is", ["now", "known", "as", new] => some (renamed nickname new)
  | "is", ["shutting", "down"] => some shuttingDown
  | "nickname", ["is", "now", name] => some (nicknameSet (unquoted name))
  | _, _ => none

/-- Other lines begin with a word of the server. -/
def readState (second third : String) (rest : List String) : Option Notice :=
  match second, rest with
  | "welcome", "you" :: "are" :: "in" :: "room" :: name :: _ =>
    (enclosedRoom? name).map (welcome (unmarked third))
  | "you", ["now", "in", "room", name] => (enclosedRoom? name).map moved
  | "you", ["already", "in", "room", name] => (enclosedRoom? name).map alreadyIn
  | "room", ["created"] => (enclosedRoom? third).map roomCreated
  | "room", ["removed"] => (enclosedRoom? third).map roomRemoved
  | "rooms", entries => (readRooms? entries).map roomList
  | "users", name :: _ :: nicknames =>
    (enclosedRoom? name).map fun room => userList room (readNames nicknames)
  | "commands:", _ => some help
  | _, _ => none

/-- The third word tells whether the second one is a nickname. -/
def readNews : List String → Option Notice
  | [] => none
  | [second] => if second = "goodbye" then some goodbye else none
  | second :: third :: rest =>
    if third ∈ keywords then readDoing second third rest else readState second third rest

def readCause : List String → Option Notice
  | [] => none
  | kind :: message => (Refusal.read (unmarked kind) (unwords message)).map refused

def readWhisper : List String → Option Notice
  | direction :: name :: body =>
    if direction = "from" then some (whisperFrom (unmarked name) (unwords body))
    else some (whisperTo (unmarked name) (unwords body))
  | _ => none

def readChat (room : String) : List String → Option Notice
  | [] => none
  | nickname :: text =>
    (enclosedRoom? room).map fun room => chat room (unmarked nickname) (unwords text)

/-- Reads a line back. Its first word tells what kind of line it is. -/
def read (line : String) : Option Notice :=
  match words line with
  | [] => none
  | first :: rest =>
    if first = "*" then readNews rest
    else if first = "error:" then readCause rest
    else if first = "[whisper" then readWhisper rest
    else readChat first rest

variable {second third : String} {ws : List String}

theorem read_of_doing (hwords : words line = "*" :: second :: third :: ws) (hthird : third ∈ keywords) :
    read line = readDoing second third ws := by
  rw [read, hwords]
  exact if_pos hthird

theorem read_of_state (hwords : words line = "*" :: second :: third :: ws) (hthird : third ∉ keywords) :
    read line = readState second third ws := by
  rw [read, hwords]
  exact if_neg hthird

/-- The names in it are valid, and identifiers are as long as they are meant to be. What clients write is
not restricted. -/
def IsValid : Notice → Prop
  | refused cause => cause.IsValid
  | welcome nickname _ | chat _ nickname _ | connected nickname | disconnected nickname
  | joined nickname _ | left nickname _ | nicknameSet nickname | whisperFrom nickname _
  | whisperTo nickname _ => nameFlaw nickname = none
  | renamed old new => nameFlaw old = none ∧ nameFlaw new = none
  | userList _ nicknames => ∀ nickname ∈ nicknames, nameFlaw nickname = none
  | _ => True

section

variable {nickname : String} {names : List String} (room : RoomName)

theorem words_in_room {adverb : String} (h : ' ' ∉ adverb.toList) :
    words (adverb ++ " in room " ++ quoted room.text) = [adverb, "in", "room", quoted room.text] := by
  have hline : adverb ++ " in room " ++ quoted room.text =
      adverb ++ (" " ++ ("in" ++ (" " ++ ("room" ++ (" " ++ quoted room.text))))) := by
    apply String.toList_inj.1
    simp only [String.toList_append, List.append_assoc]
    rfl
  rw [hline, words_append h, words_append (by decide), words_append (by decide),
    words_eq_singleton (space_not_mem_quoted room.space_not_mem)]

theorem words_welcome_room : ∃ ws, words ("you are in room '" ++ room.text ++
    "' (CMD:help:: lists commands)") = "you" :: "are" :: "in" :: "room" :: quoted room.text :: ws := by
  have hline : "you are in room '" ++ room.text ++ "' (CMD:help:: lists commands)" =
      "you" ++ (" " ++ ("are" ++ (" " ++ ("in" ++ (" " ++ ("room" ++ (" " ++ (quoted room.text ++
        (" " ++ "(CMD:help:: lists commands)"))))))))) := by
    apply String.toList_inj.1
    simp only [quoted, String.toList_append, List.append_assoc]
    rfl
  refine ⟨words "(CMD:help:: lists commands)", ?_⟩
  rw [hline, words_append (by decide), words_append (by decide), words_append (by decide),
    words_append (by decide), words_append (space_not_mem_quoted room.space_not_mem)]

theorem words_users : words (quoted room.text ++ " (" ++ toString names.length ++ "): " ++
    ", ".intercalate names) =
      quoted room.text :: (counted names.length ++ ":") :: words (", ".intercalate names) := by
  have hline : quoted room.text ++ " (" ++ toString names.length ++ "): " ++ ", ".intercalate names =
      quoted room.text ++ (" " ++ (counted names.length ++ ":" ++ (" " ++ ", ".intercalate names))) := by
    apply String.toList_inj.1
    simp only [counted, String.toList_append, List.append_assoc]
    rfl
  have hmark : ' ' ∉ (counted names.length ++ ":").toList := by
    simpa using space_not_mem_counted names.length
  rw [hline, words_append (space_not_mem_quoted room.space_not_mem), words_append hmark]

theorem words_rooms (rooms : List (RoomName × Nat)) : words (roomList rooms).line = "*" :: "rooms" ::
    (counted rooms.length ++ ":") :: words (", ".intercalate (rooms.map roomEntry)) := by
  have hline : "* rooms (" ++ toString rooms.length ++ "): " ++
      ", ".intercalate (rooms.map roomEntry) = "*" ++ (" " ++ ("rooms" ++ (" " ++
        (counted rooms.length ++ ":" ++ (" " ++ ", ".intercalate (rooms.map roomEntry)))))) := by
    apply String.toList_inj.1
    simp only [counted, String.toList_append, List.append_assoc]
    rfl
  have hmark : ' ' ∉ (counted rooms.length ++ ":").toList := by
    simpa using space_not_mem_counted rooms.length
  change words ("* rooms (" ++ toString rooms.length ++ "): " ++
    ", ".intercalate (rooms.map roomEntry)) = _
  rw [hline, words_append (by decide), words_append (by decide), words_append hmark]

theorem words_refused (cause : Refusal) :
    words (refused cause).line = "error:" :: (cause.kind ++ ":") :: words cause.message := by
  have hline : "error: " ++ cause.kind ++ ": " ++ cause.message =
      "error:" ++ (" " ++ (cause.kind ++ ":" ++ (" " ++ cause.message))) := by
    apply String.toList_inj.1
    simp only [String.toList_append, List.append_assoc]
    rfl
  have hkind : ' ' ∉ (cause.kind ++ ":").toList := by
    cases cause <;> simp [Refusal.kind]
  change words ("error: " ++ cause.kind ++ ": " ++ cause.message) = _
  rw [hline, words_append (by decide), words_append hkind]

theorem words_whisperTo_body {target body : String} (h : ' ' ∉ target.toList) :
    words (whisperTo target body).line = "[whisper" :: "to" :: (target ++ "]") :: words body := by
  have hmark : ' ' ∉ (target ++ "]").toList := by simpa using h
  have hline : target ++ "] " ++ body = target ++ "]" ++ (" " ++ body) := by
    apply String.toList_inj.1
    simp only [String.toList_append, List.append_assoc]
    rfl
  rw [words_whisperTo, hline, words_append hmark]

end

section

variable {nickname text : String} (room : RoomName)

theorem read_left (h : ' ' ∉ nickname.toList) :
    read (left nickname room).line = some (left nickname room) := by
  rw [read_of_doing (words_left h room) (by decide)]
  exact congrArg (Option.map _) (enclosedRoom?_quoted room)

theorem read_joined (h : ' ' ∉ nickname.toList) :
    read (joined nickname room).line = some (joined nickname room) := by
  rw [read_of_doing (words_joined h room) (by decide)]
  exact congrArg (Option.map _) (enclosedRoom?_quoted room)

theorem read_nicknameSet (h : ' ' ∉ nickname.toList) :
    read (nicknameSet nickname).line = some (nicknameSet nickname) := by
  rw [read_of_doing (words_nicknameSet h) (by decide)]
  exact congrArg (fun name => some (nicknameSet name)) (unquoted_quoted nickname)

theorem read_welcome (h : ' ' ∉ nickname.toList) :
    read (welcome nickname room).line = some (welcome nickname room) := by
  obtain ⟨ws, hroom⟩ := words_welcome_room room
  have hwords := words_welcome h room
  rw [hroom] at hwords
  rw [read_of_state hwords (exclaimed_not_mem_keywords nickname)]
  change (enclosedRoom? (quoted room.text)).map (welcome (unmarked (nickname ++ "!"))) = _
  rw [enclosedRoom?_quoted, unmarked_append nickname rfl]
  rfl

theorem read_moved : read (moved room).line = some (moved room) := by
  have hphrase : "now in room " = "now" ++ " in room " := rfl
  have hwords := words_moved room
  rw [hphrase, words_in_room room (by decide)] at hwords
  rw [read_of_state hwords (by decide)]
  exact congrArg (Option.map _) (enclosedRoom?_quoted room)

theorem read_alreadyIn : read (alreadyIn room).line = some (alreadyIn room) := by
  have hphrase : "already in room " = "already" ++ " in room " := rfl
  have hwords := words_alreadyIn room
  rw [hphrase, words_in_room room (by decide)] at hwords
  rw [read_of_state hwords (by decide)]
  exact congrArg (Option.map _) (enclosedRoom?_quoted room)

theorem read_roomCreated : read (roomCreated room).line = some (roomCreated room) := by
  have hlast : words "created" = ["created"] := words_eq_singleton (by decide)
  have hwords := words_roomCreated room
  rw [hlast] at hwords
  rw [read_of_state hwords (quoted_not_mem_keywords room.text)]
  exact congrArg (Option.map _) (enclosedRoom?_quoted room)

theorem read_roomRemoved : read (roomRemoved room).line = some (roomRemoved room) := by
  have hlast : words "removed" = ["removed"] := words_eq_singleton (by decide)
  have hwords := words_roomRemoved room
  rw [hlast] at hwords
  rw [read_of_state hwords (quoted_not_mem_keywords room.text)]
  exact congrArg (Option.map _) (enclosedRoom?_quoted room)

theorem counted_not_mem_keywords (n : Nat) (mark : String) : counted n ++ mark ∉ keywords := by
  have hword : (counted n ++ mark).toList = '(' :: (toString n ++ ")" ++ mark).toList := by
    simp [counted]
  exact not_mem_keywords_of_head hword (by decide)

theorem read_roomList (rooms : List (RoomName × Nat)) :
    read (roomList rooms).line = some (roomList rooms) := by
  rw [read_of_state (words_rooms rooms) (counted_not_mem_keywords _ ":")]
  exact congrArg (Option.map _) (readRooms?_words rooms)

theorem read_userList {nicknames : List String} (h : ∀ nickname ∈ nicknames, nameFlaw nickname = none) :
    read (userList room nicknames).line = some (userList room nicknames) := by
  have hwords := words_userList room nicknames
  rw [words_users] at hwords
  rw [read_of_state hwords (by decide)]
  change (enclosedRoom? (quoted room.text)).map
    (fun room => userList room (readNames (words (", ".intercalate nicknames)))) = _
  rw [enclosedRoom?_quoted, readNames_words h]
  rfl

theorem read_help : read help.line = some help := by
  obtain ⟨ws, hwords⟩ := words_help
  exact read_of_state hwords (by decide)

theorem read_refused {cause : Refusal} (h : cause.IsValid) :
    read (refused cause).line = some (refused cause) := by
  have hread : read (refused cause).line =
      (Refusal.read (unmarked (cause.kind ++ ":")) (unwords (words cause.message))).map refused := by
    rw [read, words_refused]
    rfl
  rw [hread, unmarked_append cause.kind rfl, unwords_words, Refusal.read_message h]
  rfl

theorem read_whisperFrom {sender body : String} (h : ' ' ∉ sender.toList) :
    read (whisperFrom sender body).line = some (whisperFrom sender body) := by
  have hread : read (whisperFrom sender body).line =
      some (whisperFrom (unmarked (sender ++ "]")) (unwords (words body))) := by
    rw [read, words_whisperFrom h]
    rfl
  rw [hread, unmarked_append sender rfl, unwords_words]

theorem read_whisperTo {target body : String} (h : ' ' ∉ target.toList) :
    read (whisperTo target body).line = some (whisperTo target body) := by
  have hread : read (whisperTo target body).line =
      some (whisperTo (unmarked (target ++ "]")) (unwords (words body))) := by
    rw [read, words_whisperTo_body h]
    rfl
  rw [hread, unmarked_append target rfl, unwords_words]

theorem read_chat (h : ' ' ∉ nickname.toList) :
    read (chat room nickname text).line = some (chat room nickname text) := by
  have hhead : (bracketed room.text).toList.head? = some '[' := head?_append (head?_append rfl)
  have hstar : bracketed room.text ≠ "*" := by
    intro heq
    rw [heq] at hhead
    exact absurd hhead (by decide)
  have herror : bracketed room.text ≠ "error:" := by
    intro heq
    rw [heq] at hhead
    exact absurd hhead (by decide)
  have hread : read (chat room nickname text).line =
      readChat (bracketed room.text) ((nickname ++ ":") :: words text) := by
    rw [read, words_chat h]
    simp only [hstar, herror, bracketed_ne_whisper, if_false]
  rw [hread]
  change (enclosedRoom? (bracketed room.text)).map
    (fun room => chat room (unmarked (nickname ++ ":")) (unwords (words text))) = _
  rw [enclosedRoom?_bracketed, unmarked_append nickname rfl, unwords_words]
  rfl

end

theorem read_line {notice : Notice} (h : notice.IsValid) : read notice.line = some notice := by
  cases notice with
  | refused cause => exact read_refused h
  | welcome nickname room => exact read_welcome room (space_not_mem_of_nameFlaw h)
  | chat room nickname text => exact read_chat room (space_not_mem_of_nameFlaw h)
  | connected nickname =>
    exact read_of_doing (words_connected (space_not_mem_of_nameFlaw h)) (by decide)
  | disconnected nickname =>
    exact read_of_doing (words_disconnected (space_not_mem_of_nameFlaw h)) (by decide)
  | joined nickname room => exact read_joined room (space_not_mem_of_nameFlaw h)
  | left nickname room => exact read_left room (space_not_mem_of_nameFlaw h)
  | moved room => exact read_moved room
  | alreadyIn room => exact read_alreadyIn room
  | roomCreated room => exact read_roomCreated room
  | roomRemoved room => exact read_roomRemoved room
  | roomList rooms => exact read_roomList rooms
  | userList room nicknames => exact read_userList room h
  | nicknameSet nickname => exact read_nicknameSet (space_not_mem_of_nameFlaw h)
  | renamed old new =>
    exact read_of_doing (words_renamed (space_not_mem_of_nameFlaw h.1) (space_not_mem_of_nameFlaw h.2))
      (by decide)
  | whisperFrom sender body => exact read_whisperFrom (space_not_mem_of_nameFlaw h)
  | whisperTo target body => exact read_whisperTo (space_not_mem_of_nameFlaw h)
  | goodbye => rfl
  | shuttingDown => rfl
  | help => exact read_help

/-- Lines are unambiguous: what has happened, and to whom, can be told from the line alone, so that no
two notices share one. -/
theorem line_unambiguous {notice other : Notice} (h : notice.IsValid) (h' : other.IsValid) :
    read notice.line = some notice ∧ (notice.line = other.line ↔ notice = other) := by
  refine ⟨read_line h, fun hline => ?_, congrArg line⟩
  have hread := read_line h
  rw [hline, read_line h'] at hread
  exact (Option.some.inj hread).symm

/-- Names may look like parts of a list, and be words of the server. -/
theorem line_unambiguous_lookalikes :
    let room : RoomName := ⟨"(2)", by decide⟩
    let commas := userList room ["you,", "server"]
    let comma := userList room ["you", ",server"]
    (commas.IsValid ∧ comma.IsValid) ∧ commas.line = "* users in '(2)' (2): you,, server" ∧
      read commas.line = some commas ∧ commas.line ≠ comma.line := by
  intro room commas comma
  have hcommas : commas.IsValid := by
    change ∀ nickname ∈ ["you,", "server"], nameFlaw nickname = none
    decide
  have hcomma : comma.IsValid := by
    change ∀ nickname ∈ ["you", ",server"], nameFlaw nickname = none
    decide
  obtain ⟨hread, hiff⟩ := line_unambiguous hcommas hcomma
  exact ⟨⟨hcommas, hcomma⟩, rfl, hread, fun hline => absurd (hiff.1 hline) (by decide)⟩

end Notice

end ChatRooms
