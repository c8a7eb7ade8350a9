import ChatRooms.Proofs.Json.Skipping
import ChatRooms.Settings.Reader

namespace ChatRooms.Settings

open Json

/-- What a field may hold. -/
inductive Kind where
  | text
  | flag
  | mode
  | natural (limit : Nat) (hlimit : limit ≤ wordLimit)

/-- The values of a kind. A natural number has its place whatever its size; only one that is written
must be below the limit. -/
def Kind.Value : Kind → Type
  | text => String
  | flag => Bool
  | mode => IntakeMode
  | natural _ _ => Nat

def Kind.read : (kind : Kind) → List Char → Except JsonFlaw (kind.Value × List Char)
  | text, written => do
    let (cs, rest) ← readText written
    .ok (String.ofList cs, rest)
  | flag, written => readFlag written
  | mode, written => readMode written
  | natural limit _, written => readNatural limit written

namespace Field

def kind : Field → Kind
  | bindHost | defaultRoom => .text
  | echoChatToSender | autoCreateRooms => .flag
  | readiness => .mode
  | port => .natural (Nat.pow 2 16) (by decide)
  | maxClients | maxRooms | maxLineLength | channelCapacity | clientQueue | shutdownTimeoutMs =>
    .natural wordLimit (Nat.le_refl _)

def get (settings : Settings) : (field : Field) → field.kind.Value
  | bindHost => settings.bindHost
  | port => settings.port
  | maxClients => settings.maxClients
  | maxRooms => settings.maxRooms
  | defaultRoom => settings.defaultRoom
  | echoChatToSender => settings.echoChatToSender
  | autoCreateRooms => settings.autoCreateRooms
  | readiness => settings.readiness
  | maxLineLength => settings.maxLineLength
  | channelCapacity => settings.channelCapacity
  | clientQueue => settings.clientQueue
  | shutdownTimeoutMs => settings.shutdownTimeoutMs

def set (settings : Settings) : (field : Field) → field.kind.Value → Settings
  | bindHost, host => { settings with bindHost := host }
  | port, n => { settings with port := n }
  | maxClients, n => { settings with maxClients := n }
  | maxRooms, n => { settings with maxRooms := n }
  | defaultRoom, room => { settings with defaultRoom := room }
  | echoChatToSender, flag => { settings with echoChatToSender := flag }
  | autoCreateRooms, flag => { settings with autoCreateRooms := flag }
  | readiness, mode => { settings with readiness := mode }
  | maxLineLength, n => { settings with maxLineLength := n }
  | channelCapacity, n => { settings with channelCapacity := n }
  | clientQueue, n => { settings with clientQueue := n }
  | shutdownTimeoutMs, n => { settings with shutdownTimeoutMs := n }

variable {settings settings' : Settings} {field other : Field}

theorem get_set_self (value : field.kind.Value) : field.get (field.set settings value) = value := by
  cases field <;> rfl

theorem get_set_of_ne (h : other ≠ field) (value : field.kind.Value) :
    other.get (field.set settings value) = other.get settings := by
  cases field <;> cases other <;> first | rfl | exact absurd rfl h

theorem ext_get (h : ∀ field : Field, field.get settings = field.get settings') :
    settings = settings' := by
  cases settings
  cases settings'
  congr
  exacts [h bindHost, h port, h maxClients, h maxRooms, h defaultRoom, h echoChatToSender,
    h autoCreateRooms, h readiness, h maxLineLength, h channelCapacity, h clientQueue,
    h shutdownTimeoutMs]

theorem read_eq (text : List Char) : field.read settings text =
    (field.kind.read text).map fun (value, rest) => (field.set settings value, rest) := by
  cases field with
  | bindHost | defaultRoom =>
    simp only [read, kind, Kind.read]
    cases readText text <;> rfl
  | echoChatToSender | autoCreateRooms =>
    simp only [read, kind, Kind.read]
    cases readFlag text <;> rfl
  | readiness =>
    simp only [read, kind, Kind.read]
    cases readMode text <;> rfl
  | port =>
    simp only [read, kind, Kind.read]
    cases readNatural (Nat.pow 2 16) text <;> rfl
  | maxClients | maxRooms | maxLineLength | channelCapacity | clientQueue | shutdownTimeoutMs =>
    simp only [read, kind, Kind.read]
    cases readNatural wordLimit text <;> rfl

theorem ofKey?_key (field : Field) : ofKey? field.key.toList = some field := by
  cases field <;> rfl

end Field

def modeName : IntakeMode → String
  | .addressed => "addressed"
  | .sweep => "sweep"

/-- The ways to write a value of a kind. A mode may be wrapped in an object. -/
inductive Kind.Writes : (kind : Kind) → List Char → kind.Value → Prop where
  | text {body : List Char} {value : String} (hbody : WritesString body value.toList) :
      Writes .text ('"' :: (body ++ ['"'])) value
  | yes : Writes .flag "true".toList true
  | no : Writes .flag "false".toList false
  | mode {body : List Char} {value : IntakeMode} (hbody : WritesString body (modeName value).toList) :
      Writes .mode ('"' :: (body ++ ['"'])) value
  | wrapped {before body after before' after' : List Char} {value : IntakeMode}
      (hbefore : IsGap before) (hbody : WritesString body (modeName value).toList)
      (hafter : IsGap after) (hbefore' : IsGap before') (hafter' : IsGap after') :
      Writes .mode ('\x7b' :: (before ++ '"' :: (body ++ '"' :: (after ++
        ':' :: (before' ++ ("null".toList ++ (after' ++ ['\x7d']))))))) value
  | natural {limit : Nat} {hlimit : limit ≤ wordLimit} {digits : List Char} (hdigits : IsWhole digits)
      (hvalue : natOfDigits digits < limit) :
      Writes (.natural limit hlimit) digits (natOfDigits digits)

variable {text rest before written body cs : List Char} {c : Char} {kind : Kind}

theorem Kind.Writes.isValue {value : kind.Value} (h : kind.Writes written value) :
    IsValue written := by
  cases h with
  | text hbody => exact .string hbody.isString
  | yes => exact .true
  | no => exact .false
  | mode hbody => exact .string hbody.isString
  | wrapped hbefore hbody hafter hbefore' hafter' =>
    have hobject := (Derives.one (.object hbefore hbody.isString hafter) hbefore' .null hafter').bracket
    simp only [List.append_assoc, List.cons_append, List.nil_append] at hobject
    exact hobject
  | natural hdigits =>
    simpa only [List.append_nil] using Derives.number (.parts hdigits .none .none)

theorem readText_append (hbefore : IsGap before) (hbody : WritesString body cs) (rest : List Char) :
    readText (before ++ '"' :: (body ++ '"' :: rest)) = .ok (cs, rest) := by
  rw [readText, skipBlanks_append hbefore, ← readString_append hbody]
  rfl

theorem readNatural_append {limit : Nat} (hbefore : IsGap before) (hwhole : IsWhole written)
    (hvalue : natOfDigits written < limit) (hlimit : limit ≤ wordLimit) (hrest : EndsNumber rest) :
    readNatural limit (before ++ (written ++ rest)) = .ok (natOfDigits written, rest) := by
  have hread := readNumber_append hwhole (Nat.lt_of_lt_of_le hvalue hlimit) hrest
  obtain ⟨c, more, rfl⟩ := List.exists_cons_of_ne_nil hwhole.1.1
  have hdigit := hwhole.1.2 c (List.mem_cons_self ..)
  rw [readNatural, skipBlanks_append hbefore, List.cons_append,
    skipBlanks_cons (not_blank_of_isDigit hdigit)]
  dsimp only
  rw [if_pos hdigit, ← List.cons_append, hread]
  exact if_pos hvalue

theorem readName_append (hbefore : IsGap before) (hbody : WritesString body cs) (rest : List Char) :
    readName (before ++ '"' :: (body ++ '"' :: rest)) = .ok (cs, rest) := by
  rw [readName, skipBlanks_append hbefore, ← readString_append hbody]
  rfl

theorem readColon_append (hbefore : IsGap before) (rest : List Char) :
    readColon (before ++ ':' :: rest) = .ok rest := by
  rw [readColon, skipBlanks_append hbefore]
  rfl

theorem readNull_append (hbefore : IsGap before) (rest : List Char) :
    readNull (before ++ ("null".toList ++ rest)) = .ok rest := by
  rw [readNull, skipBlanks_append hbefore]
  rfl

theorem modeOfName_modeName (mode : IntakeMode) : modeOfName (modeName mode).toList = .ok mode := by
  cases mode <;> rfl

theorem Kind.Writes.read_append {value : kind.Value} (h : kind.Writes written value)
    (hbefore : IsGap before) (hrest : EndsNumber rest) :
    kind.read (before ++ (written ++ rest)) = .ok (value, rest) := by
  cases h with
  | text hbody =>
    simp only [List.cons_append, List.append_assoc, List.nil_append]
    rw [Kind.read, readText_append hbefore hbody]
    exact congrArg (fun value => Except.ok (value, rest)) String.ofList_toList
  | yes =>
    rw [Kind.read, readFlag, skipBlanks_append hbefore]
    rfl
  | no =>
    rw [Kind.read, readFlag, skipBlanks_append hbefore]
    rfl
  | @mode body mode hbody =>
    simp only [List.cons_append, List.append_assoc, List.nil_append]
    rw [Kind.read, readMode, skipBlanks_append hbefore, skipBlanks_cons rfl]
    simp only [readString_append hbody, modeOfName_modeName, bind, Except.bind]
    rfl
  | @wrapped gap body gap' gap'' after' mode hgap hbody hgap' hgap'' hafter' =>
    have hend : skipBlanks (after' ++ '\x7d' :: rest) = '\x7d' :: rest := by
      rw [skipBlanks_append hafter']
      rfl
    simp only [List.cons_append, List.append_assoc, List.nil_append]
    rw [Kind.read, readMode, skipBlanks_append hbefore, skipBlanks_cons rfl]
    simp only [readName_append hgap hbody, modeOfName_modeName, readColon_append hgap',
      readNull_append hgap'', hend, bind, Except.bind]
    rfl
  | natural hdigits hvalue => exact readNatural_append hbefore hdigits hvalue ‹_› hrest

theorem skipValue_of_head (hhead : skipBlanks text = c :: cs)
    (hopen : openValue (c :: cs) = .ok (none, rest)) : skipValue text = .ok rest := by
  have hblanks : skipBlanks text = skipBlanks (c :: cs) := by
    rw [← hhead, skipBlanks_skipBlanks]
  exact (skipWithin_congr hblanks).trans (skipWithin_of_whole hopen)

theorem skipValue_of_readText (h : readText text = .ok (cs, rest)) : skipValue text = .ok rest := by
  unfold readText at h
  split at h
  next hhead => exact skipValue_of_head hhead (openValue_quote (skipString_of_readString h))
  next => cases h

theorem skipValue_of_readFlag {flag : Bool} (h : readFlag text = .ok (flag, rest)) :
    skipValue text = .ok rest := by
  unfold readFlag at h
  split at h
  next hhead =>
    obtain ⟨_, hkeyword, heq⟩ := exists_of_bind_ok h
    cases heq
    refine skipValue_of_head hhead ?_
    show (do .ok (none, ← keyword "rue".toList _)) = _
    rw [hkeyword]
    rfl
  next hhead =>
    obtain ⟨_, hkeyword, heq⟩ := exists_of_bind_ok h
    cases heq
    refine skipValue_of_head hhead ?_
    show (do .ok (none, ← keyword "alse".toList _)) = _
    rw [hkeyword]
    rfl
  next => cases h

theorem skipValue_of_readNatural {limit n : Nat} (h : readNatural limit text = .ok (n, rest)) :
    skipValue text = .ok rest := by
  unfold readNatural at h
  split at h
  next => cases h
  next hhead =>
    split at h
    next hdigit =>
      obtain ⟨⟨number, _⟩, hnumber, hnext⟩ := exists_of_bind_ok h
      dsimp only at hnext
      split at hnext
      next =>
        split at hnext
        next =>
          cases hnext
          refine skipValue_of_head hhead ?_
          rw [openValue_digit hdigit, skipNumber_of_readNumber hnumber]
          rfl
        next => cases hnext
      next => cases hnext
    next => cases h

/-- A name and its colon, where anything could stand in the place of the value. -/
theorem skipKey_of_readName {after : List Char} (hname : readName text = .ok (cs, after))
    (hcolon : readColon after = .ok rest) :
    skipKey text = .ok rest ∧ ∃ more, skipBlanks text = '"' :: more := by
  unfold readName at hname
  split at hname
  next => cases hname
  next more hhead =>
    unfold readColon at hcolon
    split at hcolon
    next => cases hcolon
    next hafter =>
      cases hcolon
      refine ⟨?_, more, hhead⟩
      rw [skipKey, hhead]
      simp only [skipString_of_readString hname, hafter, bind, Except.bind]
    next => cases hcolon
  next => cases hname

theorem openValue_of_readNull (h : readNull text = .ok rest) : openValue text = .ok (none, rest) := by
  unfold readNull at h
  split at h
  next hhead =>
    rw [openValue, hhead]
    show (do .ok (none, ← keyword "ull".toList _)) = _
    rw [h]
    rfl
  next => cases h

theorem skipValue_of_readMode {mode : IntakeMode} (h : readMode text = .ok (mode, rest)) :
    skipValue text = .ok rest := by
  unfold readMode at h
  split at h
  next => cases h
  next hhead =>
    obtain ⟨⟨name, after⟩, hname, hnext⟩ := exists_of_bind_ok h
    obtain ⟨_, -, heq⟩ := exists_of_bind_ok hnext
    cases heq
    exact skipValue_of_head hhead (openValue_quote (skipString_of_readString hname))
  next tail hhead =>
    obtain ⟨⟨name, after⟩, hname, hnext⟩ := exists_of_bind_ok h
    obtain ⟨_, -, hnext⟩ := exists_of_bind_ok hnext
    obtain ⟨inner, hcolon, hnext⟩ := exists_of_bind_ok hnext
    obtain ⟨last, hnull, hnext⟩ := exists_of_bind_ok hnext
    obtain ⟨hkey, more, hquote⟩ := skipKey_of_readName hname hcolon
    split at hnext
    next => cases hnext
    next hend =>
      cases hnext
      calc skipValue text = skipWithin [] ('\x7b' :: tail) :=
            skipWithin_congr (by rw [← hhead, skipBlanks_skipBlanks])
        _ = skipItems .object [] tail :=
            @skipWithin_opening _ _ _ .object _ hquote (by decide)
        _ = skipWithin [.object] inner := by
            rw [skipItems, beforeValue, hkey]
            rfl
        _ = resume [.object] last := skipWithin_of_whole (openValue_of_readNull hnull)
        _ = resume [] rest := resume_closing hend
    next => cases hnext
  next => cases h

theorem Kind.skipValue_of_read {value : kind.Value} (h : kind.read text = .ok (value, rest)) :
    skipValue text = .ok rest := by
  cases kind with
  | text =>
    obtain ⟨_, htext, heq⟩ := exists_of_bind_ok h
    cases heq
    exact skipValue_of_readText htext
  | flag => exact skipValue_of_readFlag h
  | mode => exact skipValue_of_readMode h
  | natural => exact skipValue_of_readNatural h

end ChatRooms.Settings
