import ChatRooms.Proofs.Text.Fields
import ChatRooms.Request

namespace ChatRooms

open Text

/-- The text is the word, each of its letters in either case. -/
def Spells (word : String) (text : List Char) : Prop :=
  List.Forall₂ (fun letter c => c = letter ∨ c = letter.toUpper) word.toList text

theorem toNat_toLower (c : Char) :
    c.toLower.toNat = if 65 ≤ c.toNat ∧ c.toNat ≤ 90 then c.toNat + 32 else c.toNat := by
  have hshift : ('a'.val - 'A'.val).toNat = 32 := rfl
  have hbound (h : c.val ≥ 'A'.val ∧ c.val ≤ 'Z'.val) : 65 ≤ c.toNat ∧ c.toNat ≤ 90 := h
  unfold Char.toLower
  split
  next h =>
    rw [if_pos (hbound h)]
    show (c.val + ('a'.val - 'A'.val)).toNat = c.val.toNat + 32
    rw [UInt32.toNat_add, hshift]
    have := (hbound h).2
    unfold Char.toNat at this
    omega
  next h => rw [if_neg (show ¬(65 ≤ c.toNat ∧ c.toNat ≤ 90) from h)]

theorem toNat_toUpper {c : Char} (h : 97 ≤ c.toNat ∧ c.toNat ≤ 122) :
    c.toUpper.toNat + 32 = c.toNat := by
  have hshift : ('A'.val - 'a'.val).toNat = 4294967264 := rfl
  unfold Char.toUpper
  rw [dif_pos (show 'a'.val ≤ c.val ∧ c.val ≤ 'z'.val from h)]
  show (c.val + ('A'.val - 'a'.val)).toNat + 32 = c.val.toNat
  rw [UInt32.toNat_add, hshift]
  unfold Char.toNat at h
  omega

theorem toLower_eq_iff {letter c : Char} (hletter : letter.isLower = true) :
    c.toLower = letter ↔ c = letter ∨ c = letter.toUpper := by
  have hlower : 97 ≤ letter.toNat ∧ letter.toNat ≤ 122 := by
    have hrange : (decide (97 ≤ letter.val) && decide (letter.val ≤ 122)) = true := hletter
    rw [Bool.and_eq_true, decide_eq_true_eq, decide_eq_true_eq] at hrange
    exact hrange
  have hupper := toNat_toUpper hlower
  rw [← Char.toNat_inj, ← Char.toNat_inj, ← Char.toNat_inj, toNat_toLower]
  split <;> omega

theorem spells_iff {word : String} {text : List Char}
    (hword : word.toList.all Char.isLower = true) :
    Spells word text ↔ Frame.lowercase text = word.toList := by
  rw [Spells, Frame.lowercase]
  generalize word.toList = letters at hword
  induction letters generalizing text with
  | nil =>
    cases text with
    | nil => exact ⟨fun _ => rfl, fun _ => .nil⟩
    | cons c text => constructor <;> intro h <;> cases h
  | cons letter letters ih =>
    rw [List.all_cons, Bool.and_eq_true] at hword
    cases text with
    | nil =>
      rw [List.map_nil]
      constructor <;> intro h <;> cases h
    | cons c text =>
      rw [List.forall₂_cons, ih hword.2, List.map_cons, List.cons.injEq, toLower_eq_iff hword.1]

/-- How the tag of a line is spelled. -/
def FrameKind.word : FrameKind → String
  | chat => "chat"
  | command => "cmd"
  | whisper => "whisper"

namespace Frame

/-- The fields of a line, put together. The last one may be missing altogether. -/
def write (tag arg1 arg2 : List Char) (content : Option (List Char)) : List Char :=
  tag ++ ':' :: (arg1 ++ ':' :: (arg2 ++ content.elim [] (':' :: ·)))

/-- The line consists of a tag, two arguments and a content. Blanks around all but the content do not
count, and neither does one carriage return at the end; where the content itself ends in one, there has
to be another. -/
def Writes (line tag arg1 arg2 body : List Char) : Prop :=
  ∃ field field1 field2 content, ':' ∉ field ∧ ':' ∉ field1 ∧ ':' ∉ field2 ∧
    Carries field tag ∧ Carries field1 arg1 ∧ Carries field2 arg2 ∧ content.getD [] = body ∧
    (line = write field field1 field2 content ++ ['\r'] ∨
      line = write field field1 field2 content ∧ '\r' ∉ (write field field1 field2 content).getLast?)

end Frame

namespace Command

/-- The command that a verb stands for. Some take no argument, and then it does not matter. -/
inductive Means : String → List Char → Command → Prop where
  | add (room : RoomName) : Means "add" room.text.toList (.add room)
  | remove (room : RoomName) : Means "rm" room.text.toList (.remove room)
  | join (room : RoomName) : Means "join" room.text.toList (.join room)
  | leave (argument : List Char) : Means "leave" argument .leave
  | list (argument : List Char) : Means "list" argument .list
  | users (argument : List Char) : Means "users" argument .users
  | nickname {name : String} (hvalid : nameFlaw name = none) :
      Means "nickname" name.toList (.nickname name)
  | nick {name : String} (hvalid : nameFlaw name = none) : Means "nick" name.toList (.nickname name)
  | quit (argument : List Char) : Means "quit" argument .quit
  | help (argument : List Char) : Means "help" argument .help

/-- The verbs that need an argument, and what it is. -/
inductive Needs : String → String → Prop where
  | add : Needs "add" "room name"
  | remove : Needs "rm" "room name"
  | join : Needs "join" "room name"
  | nickname : Needs "nickname" "nickname"
  | nick : Needs "nick" "nickname"

def verbs : List String :=
  ["add", "rm", "join", "leave", "list", "users", "nickname", "nick", "quit", "help"]

/-- What is wrong with a verb and its argument. -/
inductive Objects (verb argument : List Char) : Refusal → Prop where
  | noVerb (hverb : verb = []) : Objects verb argument (.malformed .missingVerb)
  | noArgument {word what : String} (hspells : Spells word verb) (hneeds : Needs word what)
      (hargument : argument = []) :
      Objects verb argument (.malformed (.missingArgument (String.ofList verb) what))
  | badName {word what : String} {flaw : NameFlaw} (hspells : Spells word verb)
      (hneeds : Needs word what) (hargument : argument ≠ [])
      (hflaw : nameFlaw (String.ofList argument) = some flaw) :
      Objects verb argument (.malformed (.badName what flaw (String.ofList argument)))
  | unknown (hverb : verb ≠ []) (hunknown : ∀ word ∈ verbs, ¬Spells word verb) :
      Objects verb argument (.unknownCommand (String.ofList verb))

end Command

namespace Request

/-- The line is one way to write the request. -/
inductive Renders (line : List Char) : Request → Prop where
  | chat {tag arg1 arg2 text : List Char} (hline : Frame.Writes line tag arg1 arg2 text)
      (htag : Spells FrameKind.chat.word tag) : Renders line (.chat (String.ofList text))
  | whisper {tag arg1 target body : List Char} (hline : Frame.Writes line tag arg1 target body)
      (htag : Spells FrameKind.whisper.word tag) (htarget : target ≠ []) :
      Renders line (.whisper (String.ofList target) (String.ofList body))
  | command {tag verb argument body : List Char} {word : String} {command : Command}
      (hline : Frame.Writes line tag verb argument body) (htag : Spells FrameKind.command.word tag)
      (hverb : Spells word verb) (hmeans : command.Means word argument) :
      Renders line (.command command)

/-- The line is a command whose verb nobody knows, however it is spelled. -/
def HasUnknownVerb (line verb : List Char) : Prop :=
  ∃ tag argument body, Frame.Writes line tag verb argument body ∧ Spells FrameKind.command.word tag ∧
    verb ≠ [] ∧ ∀ word ∈ Command.verbs, ¬Spells word verb

/-- What is wrong with the line. -/
inductive Objects (line : List Char) : Refusal → Prop where
  | missingFields (hcount : line.count ':' < 2) : Objects line (.malformed .missingFields)
  | unknownType {tag arg1 arg2 body : List Char} (hline : Frame.Writes line tag arg1 arg2 body)
      (hunknown : ∀ kind : FrameKind, ¬Spells kind.word tag) :
      Objects line (.malformed (.unknownType (String.ofList tag)))
  | noTarget {tag arg1 body : List Char} (hline : Frame.Writes line tag arg1 [] body)
      (htag : Spells FrameKind.whisper.word tag) : Objects line (.malformed .missingTarget)
  | command {tag verb argument body : List Char} {refusal : Refusal}
      (hline : Frame.Writes line tag verb argument body) (htag : Spells FrameKind.command.word tag)
      (hobjects : Command.Objects verb argument refusal) : Objects line refusal

end Request

namespace Frame

variable {text field field1 field2 tag arg1 arg2 body : List Char} {content : Option (List Char)}
  {line : String}

theorem fields_write (h : ':' ∉ field) (h1 : ':' ∉ field1) (h2 : ':' ∉ field2) :
    fields (write field field1 field2 content) = some (field, field1, field2, content.getD []) := by
  rw [fields, write, cut_append h]
  dsimp only
  rw [cut_append h1]
  dsimp only
  cases content with
  | none =>
    rw [Option.elim_none, List.append_nil, cut_of_not_mem h2]
  | some content =>
    rw [Option.elim_some, cut_append h2]

/-- A text has fewer than two colons, or it is put together from fields. -/
theorem fields_cases (text : List Char) : (text.count ':' < 2 ∧ fields text = none) ∨
    ∃ field field1 field2 content, ':' ∉ field ∧ ':' ∉ field1 ∧ ':' ∉ field2 ∧
      text = write field field1 field2 content := by
  rcases cut_cases ':' text with ⟨hnone, hcut⟩ | ⟨field, rest, h, rfl, hcut⟩
  · left
    rw [fields, hcut, List.count_eq_zero.2 hnone]
    exact ⟨Nat.zero_lt_two, rfl⟩
  rcases cut_cases ':' rest with ⟨hnone, hcut1⟩ | ⟨field1, rest, h1, rfl, hcut1⟩
  · left
    constructor
    · rw [List.count_append, List.count_eq_zero.2 h, List.count_cons_self, List.count_eq_zero.2 hnone]
      exact Nat.one_lt_two
    · rw [fields, hcut]
      dsimp only
      rw [hcut1]
  right
  rcases cut_cases ':' rest with ⟨h2, -⟩ | ⟨field2, content, h2, rfl, -⟩
  · refine ⟨field, field1, rest, none, h, h1, h2, ?_⟩
    rw [write, Option.elim_none, List.append_nil]
  · exact ⟨field, field1, field2, some content, h, h1, h2, rfl⟩

theorem two_le_count_write : 2 ≤ (write field field1 field2 content).count ':' := by
  simp only [write, List.count_append, List.count_cons_self]
  omega

theorem count_dropReturn (line : List Char) : (dropReturn line).count ':' = line.count ':' := by
  rcases dropReturn_eq_iff.1 (Eq.refl (dropReturn line)) with hline | ⟨hline, -⟩
  · rw [congrArg (List.count ':') hline, List.count_append]
    rfl
  · exact congrArg (List.count ':') hline.symm

theorem parse_of_count_lt (h : line.toList.count ':' < 2) :
    parse line = .error (.malformed .missingFields) := by
  rw [← count_dropReturn] at h
  rcases fields_cases (dropReturn line.toList) with ⟨-, hnone⟩ | ⟨_, _, _, _, -, -, -, htext⟩
  · rw [parse, hnone]
  · rw [htext] at h
    exact absurd two_le_count_write (Nat.not_le.2 h)

theorem exists_writes_of_le_count (h : 2 ≤ line.toList.count ':') :
    ∃ tag arg1 arg2 body, Writes line.toList tag arg1 arg2 body := by
  rcases fields_cases (dropReturn line.toList) with ⟨hcount, -⟩ |
    ⟨field, field1, field2, content, h, h1, h2, htext⟩
  · rw [count_dropReturn] at hcount
    exact absurd h (Nat.not_le.2 hcount)
  · exact ⟨trim field, trim field1, trim field2, content.getD [], field, field1, field2, content, h, h1,
      h2, trim_eq_iff.1 rfl, trim_eq_iff.1 rfl, trim_eq_iff.1 rfl, rfl, dropReturn_eq_iff.1 htext⟩

theorem parse_of_writes (h : Writes line.toList tag arg1 arg2 body) :
    parse line = match kindOfTag tag with
      | none => .error (.malformed (.unknownType (String.ofList tag)))
      | some kind =>
        .ok ⟨kind, String.ofList arg1, String.ofList arg2, String.ofList body⟩ := by
  obtain ⟨field, field1, field2, content, h, h1, h2, htag, harg1, harg2, rfl, hline⟩ := h
  cases hkind : kindOfTag tag <;>
    simp only [parse, dropReturn_eq_iff.2 hline, fields_write h h1 h2, trim_eq_iff.2 htag,
      trim_eq_iff.2 harg1, trim_eq_iff.2 harg2, hkind]

/-- The three tags differ in their first letters, so a tag is of one kind at most. -/
theorem kindOfTag_eq_some_iff {kind : FrameKind} :
    kindOfTag tag = some kind ↔ Spells kind.word tag := by
  have hword : kind.word.toList.all Char.isLower = true := by cases kind <;> rfl
  rw [spells_iff hword, kindOfTag]
  generalize lowercase tag = tag
  constructor
  · intro h
    split_ifs at h with hchat hcmd hwhisper
    · obtain rfl := Option.some.inj h
      exact hchat
    · obtain rfl := Option.some.inj h
      exact hcmd
    · obtain rfl := Option.some.inj h
      exact hwhisper
  · rintro rfl
    cases kind <;> rfl

theorem kindOfTag_unknown (h : ∀ kind : FrameKind, ¬Spells kind.word tag) : kindOfTag tag = none := by
  rw [Option.eq_none_iff_forall_ne_some]
  intro kind hkind
  exact h kind (kindOfTag_eq_some_iff.1 hkind)

end Frame

namespace Command

variable {verb argument : List Char} {word what : String} {command : Command} {refusal : Refusal}

theorem Means.mem_verbs (h : Means word argument command) : word ∈ verbs := by
  cases h <;> simp [verbs]

theorem Needs.mem_verbs (h : Needs word what) : word ∈ verbs := by
  cases h <;> simp [verbs]

theorem needs_or_means (h : word ∈ verbs) :
    (∃ what, Needs word what) ∨ ∃ command, ∀ argument, Means word argument command := by
  simp only [verbs, List.mem_cons, List.not_mem_nil, or_false] at h
  rcases h with rfl | rfl | rfl | rfl | rfl | rfl | rfl | rfl | rfl | rfl
  · exact Or.inl ⟨_, .add⟩
  · exact Or.inl ⟨_, .remove⟩
  · exact Or.inl ⟨_, .join⟩
  · exact Or.inr ⟨_, .leave⟩
  · exact Or.inr ⟨_, .list⟩
  · exact Or.inr ⟨_, .users⟩
  · exact Or.inl ⟨_, .nickname⟩
  · exact Or.inl ⟨_, .nick⟩
  · exact Or.inr ⟨_, .quit⟩
  · exact Or.inr ⟨_, .help⟩

theorem Needs.exists_means {name : String} (h : Needs word what) (hvalid : nameFlaw name = none) :
    ∃ command, Means word name.toList command := by
  cases h with
  | add => exact ⟨_, .add ⟨name, hvalid⟩⟩
  | remove => exact ⟨_, .remove ⟨name, hvalid⟩⟩
  | join => exact ⟨_, .join ⟨name, hvalid⟩⟩
  | nickname => exact ⟨_, .nickname hvalid⟩
  | nick => exact ⟨_, .nick hvalid⟩

theorem means_or_objects (verb argument : List Char) :
    (∃ word command, Spells word verb ∧ Means word argument command) ∨
      ∃ refusal, Objects verb argument refusal := by
  by_cases hverb : verb = []
  · exact Or.inr ⟨_, .noVerb hverb⟩
  by_cases hknown : ∃ word ∈ verbs, Spells word verb
  · obtain ⟨word, hword, hspells⟩ := hknown
    rcases needs_or_means hword with ⟨what, hneeds⟩ | ⟨command, hmeans⟩
    · by_cases hargument : argument = []
      · exact Or.inr ⟨_, .noArgument hspells hneeds hargument⟩
      cases hflaw : nameFlaw (String.ofList argument) with
      | some flaw => exact Or.inr ⟨_, .badName hspells hneeds hargument hflaw⟩
      | none =>
        obtain ⟨command, hmeans⟩ := hneeds.exists_means hflaw
        rw [String.toList_ofList] at hmeans
        exact Or.inl ⟨word, command, hspells, hmeans⟩
    · exact Or.inl ⟨word, command, hspells, hmeans argument⟩
  · refine Or.inr ⟨_, .unknown hverb fun word hword hspells => ?_⟩
    exact hknown ⟨word, hword, hspells⟩

theorem isLower_of_mem_verbs (h : word ∈ verbs) : word.toList.all Char.isLower = true := by
  have hall : verbs.all (fun word => word.toList.all Char.isLower) = true := rfl
  exact List.all_eq_true.1 hall word h

theorem ofList_lowercase (hspells : Spells word verb) (hword : word ∈ verbs) :
    String.ofList (Frame.lowercase (String.ofList verb).toList) = word := by
  have hlower := (spells_iff (isLower_of_mem_verbs hword)).1 hspells
  rw [String.toList_ofList, hlower, String.ofList_toList]

theorem not_isEmpty_ofList (h : argument ≠ []) : ¬(String.ofList argument).isEmpty = true := by
  rw [String.isEmpty_iff]
  intro hempty
  apply h
  rw [← @String.toList_ofList argument, hempty]
  rfl

theorem ne_nil_of_spells (hspells : Spells word verb) (hword : word ∈ verbs) : verb ≠ [] := by
  rintro rfl
  have hempty := ofList_lowercase hspells hword
  rw [← hempty] at hword
  exact absurd hword (by decide)

theorem not_isEmpty_of_valid {name : String} (h : nameFlaw name = none) : ¬name.isEmpty = true := by
  intro hempty
  rw [nameFlaw, if_pos hempty] at h
  cases h

theorem required_of_ne {name : String} (h : ¬name.isEmpty = true) (verb what : String) :
    required verb name what = .ok name := by
  rw [required, if_neg h]

theorem roomArgument_text (verb : String) (room : RoomName) :
    roomArgument verb room.text = .ok room := by
  rw [roomArgument, required_of_ne (not_isEmpty_of_valid room.valid)]
  exact room.parse_text

theorem nicknameArgument_of_valid {name : String} (verb : String) (h : nameFlaw name = none) :
    nicknameArgument verb name = .ok name := by
  have hcheck : checkName "nickname" name = .ok () := by rw [checkName, h]
  rw [nicknameArgument, required_of_ne (not_isEmpty_of_valid h)]
  simp only [bind, Except.bind, hcheck]
  rfl

theorem roomArgument_of_flaw {name : String} {flaw : NameFlaw} (verb : String)
    (hname : ¬name.isEmpty = true) (h : nameFlaw name = some flaw) :
    roomArgument verb name = .error (.malformed (.badName "room name" flaw name)) := by
  rw [roomArgument, required_of_ne hname]
  show RoomName.parse name = _
  unfold RoomName.parse
  split
  next found hfound => rw [Option.some.inj (hfound.symm.trans h)]
  next hnone => cases hnone.symm.trans h

theorem nicknameArgument_of_flaw {name : String} {flaw : NameFlaw} (verb : String)
    (hname : ¬name.isEmpty = true) (h : nameFlaw name = some flaw) :
    nicknameArgument verb name = .error (.malformed (.badName "nickname" flaw name)) := by
  have hcheck : checkName "nickname" name = .error (.malformed (.badName "nickname" flaw name)) := by
    rw [checkName, h]
  rw [nicknameArgument, required_of_ne hname]
  simp only [bind, Except.bind, hcheck]

theorem parse_of_means (hspells : Spells word verb) (hmeans : Means word argument command) :
    parse (String.ofList verb) (String.ofList argument) = .ok command := by
  have hword := hmeans.mem_verbs
  rw [parse, if_neg (not_isEmpty_ofList (ne_nil_of_spells hspells hword)),
    ofList_lowercase hspells hword]
  cases hmeans with
  | add room | remove room | join room =>
    rw [String.ofList_toList]
    rw [roomArgument_text]
    rfl
  | nickname hvalid | nick hvalid =>
    rw [String.ofList_toList]
    rw [nicknameArgument_of_valid _ hvalid]
    rfl
  | leave | list | users | quit | help => rfl

theorem parse_of_objects (h : Objects verb argument refusal) :
    parse (String.ofList verb) (String.ofList argument) = .error refusal := by
  cases h with
  | noVerb hverb =>
    rw [hverb]
    rfl
  | noArgument hspells hneeds hargument =>
    have hword := hneeds.mem_verbs
    rw [parse, if_neg (not_isEmpty_ofList (ne_nil_of_spells hspells hword)),
      ofList_lowercase hspells hword, hargument]
    cases hneeds <;> rfl
  | badName hspells hneeds hargument hflaw =>
    have hword := hneeds.mem_verbs
    have hargument := not_isEmpty_ofList hargument
    rw [parse, if_neg (not_isEmpty_ofList (ne_nil_of_spells hspells hword)),
      ofList_lowercase hspells hword]
    cases hneeds with
    | add | remove | join =>
      rw [roomArgument_of_flaw _ hargument hflaw]
      rfl
    | nickname | nick =>
      rw [nicknameArgument_of_flaw _ hargument hflaw]
      rfl
  | unknown hverb hunknown =>
    have hother (word : String) (hword : word ∈ verbs) :
        String.ofList (Frame.lowercase (String.ofList verb).toList) ≠ word := by
      rintro rfl
      apply hunknown _ hword
      rw [spells_iff (isLower_of_mem_verbs hword), String.toList_ofList, String.toList_ofList]
    rw [parse, if_neg (not_isEmpty_ofList hverb)]
    split
    case h_11 => rfl
    all_goals
      next heq => exact absurd heq (hother _ (by simp [verbs]))

end Command

namespace Request

variable {line : String} {request : Request} {refusal : Refusal}

theorem decode_of_renders (h : Renders line.toList request) : decode line = .ok request := by
  cases h with
  | chat hline htag =>
    rw [decode, Frame.parse_of_writes hline, Frame.kindOfTag_eq_some_iff.2 htag]
    rfl
  | whisper hline htag htarget =>
    rw [decode, Frame.parse_of_writes hline, Frame.kindOfTag_eq_some_iff.2 htag]
    exact if_neg (Command.not_isEmpty_ofList htarget)
  | command hline htag hverb hmeans =>
    rw [decode, Frame.parse_of_writes hline, Frame.kindOfTag_eq_some_iff.2 htag]
    show command <$> Command.parse _ _ = _
    rw [Command.parse_of_means hverb hmeans]
    rfl

theorem decode_of_objects (h : Objects line.toList refusal) : decode line = .error refusal := by
  cases h with
  | missingFields hcount =>
    rw [decode, Frame.parse_of_count_lt hcount]
    rfl
  | unknownType hline hunknown =>
    rw [decode, Frame.parse_of_writes hline, Frame.kindOfTag_unknown hunknown]
    rfl
  | noTarget hline htag =>
    rw [decode, Frame.parse_of_writes hline, Frame.kindOfTag_eq_some_iff.2 htag]
    rfl
  | command hline htag hobjects =>
    rw [decode, Frame.parse_of_writes hline, Frame.kindOfTag_eq_some_iff.2 htag]
    show command <$> Command.parse _ _ = _
    rw [Command.parse_of_objects hobjects]
    rfl

theorem renders_or_objects (line : String) :
    (∃ request, Renders line.toList request) ∨ ∃ refusal, Objects line.toList refusal := by
  rcases Nat.lt_or_ge (line.toList.count ':') 2 with hcount | hcount
  · exact Or.inr ⟨_, .missingFields hcount⟩
  obtain ⟨tag, arg1, arg2, body, hline⟩ := Frame.exists_writes_of_le_count hcount
  cases hkind : Frame.kindOfTag tag with
  | none =>
    refine Or.inr ⟨_, .unknownType hline fun kind hspells => ?_⟩
    cases hkind.symm.trans (Frame.kindOfTag_eq_some_iff.2 hspells)
  | some kind =>
    have htag := Frame.kindOfTag_eq_some_iff.1 hkind
    cases kind with
    | chat => exact Or.inl ⟨_, .chat hline htag⟩
    | whisper =>
      by_cases htarget : arg2 = []
      · rw [htarget] at hline
        exact Or.inr ⟨_, .noTarget hline htag⟩
      · exact Or.inl ⟨_, .whisper hline htag htarget⟩
    | command =>
      rcases Command.means_or_objects arg1 arg2 with
        ⟨word, command, hverb, hmeans⟩ | ⟨refusal, hobjects⟩
      · exact Or.inl ⟨_, .command hline htag hverb hmeans⟩
      · exact Or.inr ⟨_, .command hline htag hobjects⟩

theorem Objects.hasUnknownVerb_or_malformed {line : List Char} (h : Objects line refusal) :
    (∃ verb, HasUnknownVerb line verb ∧ refusal = .unknownCommand (String.ofList verb)) ∨
      ∃ fault, refusal = .malformed fault := by
  cases h with
  | missingFields | unknownType | noTarget => exact Or.inr ⟨_, rfl⟩
  | command hline htag hobjects =>
    cases hobjects with
    | noVerb | noArgument | badName => exact Or.inr ⟨_, rfl⟩
    | unknown hverb hunknown => exact Or.inl ⟨_, ⟨_, _, _, hline, htag, hverb, hunknown⟩, rfl⟩

/-- A line is read as a request exactly if it is a way to write it, and refused with exactly what is wrong
with it: a verb that nobody knows, or else its form. -/
theorem decode_iff_renders (line : String) :
    (∀ request, decode line = .ok request ↔ Renders line.toList request) ∧
    (∀ refusal, decode line = .error refusal ↔ Objects line.toList refusal) ∧
    ((∃ request, Renders line.toList request) ∨
      (∃ verb, HasUnknownVerb line.toList verb ∧
        decode line = .error (.unknownCommand (String.ofList verb))) ∨
      ∃ fault, decode line = .error (.malformed fault)) := by
  rcases renders_or_objects line with ⟨request, hrenders⟩ | ⟨refusal, hobjects⟩
  · have hok := decode_of_renders hrenders
    refine ⟨fun other => ⟨fun h => ?_, decode_of_renders⟩,
      fun other => ⟨fun h => ?_, decode_of_objects⟩, Or.inl ⟨request, hrenders⟩⟩
    · obtain rfl := Except.ok.inj (hok.symm.trans h)
      exact hrenders
    · cases hok.symm.trans h
  · have herror := decode_of_objects hobjects
    refine ⟨fun other => ⟨fun h => ?_, decode_of_renders⟩,
      fun other => ⟨fun h => ?_, decode_of_objects⟩, Or.inr ?_⟩
    · cases herror.symm.trans h
    · obtain rfl := Except.error.inj (herror.symm.trans h)
      exact hobjects
    · rw [herror]
      rcases hobjects.hasUnknownVerb_or_malformed with ⟨verb, hunknown, rfl⟩ | ⟨fault, rfl⟩
      · exact Or.inl ⟨verb, hunknown, rfl⟩
      · exact Or.inr ⟨fault, rfl⟩

/-- Of two carriage returns the second one is the line ending. -/
example : decode " Whisper ::\u00a0bob :a:b\r\r" = .ok (.whisper "bob" "a:b\r") := by decide +kernel

end Request

end ChatRooms
