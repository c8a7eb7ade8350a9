import ChatRooms.Refusal
import ChatRooms.Text

namespace ChatRooms

def isForbiddenInName (c : Char) : Bool :=
  c = ':' || Text.isBlank c || Text.isControl c

/-- The first flaw of a name, looking at emptiness, then length, then characters. -/
def nameFlaw (name : String) : Option NameFlaw :=
  if name.isEmpty then some .empty
  else if maxNameBytes < name.utf8ByteSize then some .tooLong
  else if name.toList.any isForbiddenInName then some .forbiddenCharacter
  else none

/-- Succeeds on a valid name; `what` says in the refusal which field was meant. -/
def checkName (what name : String) : Except Refusal Unit :=
  match nameFlaw name with
  | some flaw => .error (.malformed (.badName what flaw name))
  | none => .ok ()

/-- A valid room name. Case matters. -/
structure RoomName where
  text : String
  valid : nameFlaw text = none
  deriving DecidableEq

namespace RoomName

@[ext] theorem ext_text {a b : RoomName} (h : a.text = b.text) : a = b := by
  cases a; cases b; cases h; rfl

def parse (text : String) : Except Refusal RoomName :=
  match h : nameFlaw text with
  | some flaw => .error (.malformed (.badName "room name" flaw text))
  | none => .ok ⟨text, h⟩

instance : Repr RoomName := ⟨fun room => reprPrec room.text⟩

/-- Room names are ordered by their bytes, which is the order of their code points. -/
instance : Ord RoomName := ⟨compareOn text⟩

instance : Std.TransOrd RoomName := inferInstanceAs (Std.TransCmp (compareOn text))

instance : Std.LawfulEqOrd RoomName where
  eq_of_compare {a b} h :=
    ext_text (Std.LawfulEqOrd.eq_of_compare (show compare a.text b.text = .eq from h))

theorem parse_eq_ok_iff {text : String} {room : RoomName} :
    parse text = .ok room ↔ room.text = text := by
  unfold parse
  split
  next flaw h =>
    simp only [reduceCtorEq, false_iff]
    rintro rfl
    rw [room.valid] at h
    cases h
  next h =>
    simp only [Except.ok.injEq]
    exact ⟨fun e => e ▸ rfl, fun e => ext_text e.symm⟩

theorem parse_text (room : RoomName) : parse room.text = .ok room := parse_eq_ok_iff.2 rfl

end RoomName

end ChatRooms
