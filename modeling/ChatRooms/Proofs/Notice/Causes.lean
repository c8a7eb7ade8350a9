import ChatRooms.Refusal
import Mathlib.Algebra.Group.Nat.Defs
import Mathlib.Data.List.DropRight
import Std.Data.String.ToNat

namespace ChatRooms

namespace ClientId

/-- Identifiers have 128 bits. -/
def limit : Nat := Nat.pow 16 32

def digitValue (c : Char) : Nat :=
  if c.toNat < 58 then c.toNat - 48 else c.toNat - 87

def valueOf (digits : List Char) : Nat :=
  digits.foldl (fun n c => n * 16 + digitValue c) 0

def read (text : String) : ClientId :=
  valueOf (text.toList.filter (· ≠ '-'))

theorem digitValue_hexDigit : ∀ n < 16, digitValue (hexDigit n) = n := by decide

theorem hexDigit_ne_hyphen : ∀ n < 16, hexDigit n ≠ '-' := by decide

theorem hexDigits_add (front back n : Nat) :
    hexDigits (front + back) n = hexDigits front (n / 16 ^ back) ++ hexDigits back n := by
  induction back generalizing n with
  | zero => rw [Nat.add_zero, Nat.pow_zero, Nat.div_one, hexDigits, List.append_nil]
  | succ back ih =>
    rw [← Nat.add_assoc, hexDigits, ih, hexDigits, Nat.div_div_eq_div_mul, Nat.pow_succ,
      Nat.mul_comm (16 ^ back), List.append_assoc]

theorem valueOf_hexDigits (width n : Nat) : valueOf (hexDigits width n) = n % 16 ^ width := by
  induction width generalizing n with
  | zero => rw [Nat.pow_zero, Nat.mod_one]; rfl
  | succ width ih =>
    have hlast : n % 16 < 16 := Nat.mod_lt n (by decide)
    have hstep : valueOf (hexDigits (width + 1) n) =
        valueOf (hexDigits width (n / 16)) * 16 + digitValue (hexDigit (n % 16)) := by
      rw [hexDigits, valueOf, List.foldl_append]
      rfl
    rw [hstep, ih, digitValue_hexDigit _ hlast, Nat.pow_succ, Nat.mul_comm (16 ^ width), Nat.mod_mul]
    omega

theorem filter_hexDigits_append (width n : Nat) (rest : List Char) :
    (hexDigits width n ++ rest).filter (· ≠ '-') = hexDigits width n ++ rest.filter (· ≠ '-') := by
  induction width generalizing n rest with
  | zero => rfl
  | succ width ih =>
    have hdigit := hexDigit_ne_hyphen (n % 16) (Nat.mod_lt n (by decide))
    rw [hexDigits, List.append_assoc, ih, List.append_assoc, List.singleton_append,
      List.filter_cons_of_pos (by simpa using hdigit), List.singleton_append]

theorem filter_render (id : ClientId) : id.render.toList.filter (· ≠ '-') = hexDigits 32 id := by
  have hpow (n : Nat) : Nat.pow 16 n = 16 ^ n := rfl
  have hgroups : hexDigits 32 id = hexDigits 8 (id / 16 ^ 24) ++ (hexDigits 4 (id / 16 ^ 20) ++
      (hexDigits 4 (id / 16 ^ 16) ++ (hexDigits 4 (id / 16 ^ 12) ++ hexDigits 12 id))) := by
    rw [hexDigits_add 8 24, hexDigits_add 4 20, hexDigits_add 4 16, hexDigits_add 4 12]
  have hhyphen (rest : List Char) : ('-' :: rest).filter (· ≠ '-') = rest.filter (· ≠ '-') := rfl
  have hlast := filter_hexDigits_append 12 id []
  rw [List.append_nil, List.filter_nil, List.append_nil] at hlast
  rw [render, String.toList_ofList, hgroups]
  simp only [hpow, List.append_assoc, List.cons_append, filter_hexDigits_append, hhyphen, hlast]

theorem read_render {id : ClientId} (h : id < limit) : read id.render = id := by
  rw [read, filter_render, valueOf_hexDigits]
  exact Nat.mod_eq_of_lt h

end ClientId

/-- What stands between two texts. -/
def between (front back text : String) : String :=
  String.ofList ((text.toList.drop front.toList.length).rdrop back.toList.length)

theorem between_append (front text back : String) : between front back (front ++ text ++ back) = text := by
  rw [between, String.toList_append, String.toList_append, List.append_assoc, List.drop_left,
    List.rdrop_append_length, String.ofList_toList]

theorem between_append_nothing (front text : String) : between front "" (front ++ text) = text := by
  have hnothing := between_append front text ""
  rwa [String.append_empty] at hnothing

namespace Refusal

def read (kind message : String) : Option Refusal :=
  match kind with
  | "InvalidFormat" => some (.invalidFormat (between "invalid message format: " "" message))
  | "UnknownCommand" => some (.unknownCommand (between "unknown command '" "'" message))
  | "AlreadyExists" => some (.alreadyExists (between "room '" "' already exists" message))
  | "NotEmpty" => some (.notEmpty (between "room '" "' is not empty" message))
  | "ProtectedRoom" =>
    some (.protectedRoom (between "room '" "' is the default room and cannot be removed" message))
  | "RoomNotFound" => some (.roomNotFound (between "room '" "' not found" message))
  | "ClientNotFound" =>
    some (.clientNotFound (ClientId.read (between "client " " not found" message)))
  | "DuplicateNickname" =>
    some (.duplicateNickname (between "nickname '" "' is already taken" message))
  | "UserNotFound" => some (.userNotFound (between "user '" "' not found" message))
  | "ServerFull" =>
    (between "server is full (" " clients connected), try again later" message).toNat?.map .serverFull
  | "AlreadyDefault" =>
    some (.alreadyDefault (between "you are already in the default room '" "'" message))
  | "TooManyRooms" => (between "room limit of " " reached" message).toNat?.map .tooManyRooms
  | _ => none

def IsValid : Refusal → Prop
  | clientNotFound id => id < ClientId.limit
  | _ => True

theorem read_message {refusal : Refusal} (h : refusal.IsValid) :
    read refusal.kind refusal.message = some refusal := by
  cases refusal with
  | invalidFormat detail =>
    change some (invalidFormat (between _ "" ("invalid message format: " ++ detail))) = _
    rw [between_append_nothing]
  | clientNotFound id =>
    change some (clientNotFound (ClientId.read (between _ _ ("client " ++ id.render ++ " not found")))) = _
    rw [between_append, ClientId.read_render h]
  | serverFull clients =>
    change (between _ _ ("server is full (" ++ toString clients ++
      " clients connected), try again later")).toNat?.map serverFull = _
    rw [between_append]
    exact congrArg (Option.map serverFull) (Nat.toNat?_repr clients)
  | tooManyRooms limit =>
    change (between _ _ ("room limit of " ++ toString limit ++ " reached")).toNat?.map tooManyRooms = _
    rw [between_append]
    exact congrArg (Option.map tooManyRooms) (Nat.toNat?_repr limit)
  | unknownCommand | alreadyExists | notEmpty | protectedRoom | roomNotFound | duplicateNickname
  | userNotFound | alreadyDefault =>
    exact congrArg some (congrArg _ (between_append _ _ _))

end Refusal

end ChatRooms
