import ChatRooms.Service
import ChatRooms.Settings.Reader

namespace ChatRooms.CommandLine

inductive StartFault where
  /-- The arguments are not a port. -/
  | usage
  | setup (fault : Exchange.SetupFault)
  deriving DecidableEq, Repr

def usageLine : String := "usage: chat_relay <port>"

namespace StartFault

def message : StartFault → String
  | usage => usageLine
  | setup (.failure failure) => failure.message
  | setup (.capacity fault) => fault.message

/-- Settings are not checked for capacities beyond what can be counted, so those are a breakdown with
a status of its own. -/
def status : StartFault → Nat
  | usage => 2
  | setup (.failure _) => 1
  | setup (.capacity _) => 101

end StartFault

/-- A nonempty run of ASCII digits. -/
def digits? (text : List Char) : Option Nat :=
  if text.isEmpty || !text.all Json.isDigit then none else some (Json.natOfDigits text)

/-- Decimal digits, after at most one plus sign, with a value below 2^16. -/
def port? (argument : String) : Option Nat :=
  let digits :=
    match argument.toList with
    | '+' :: rest => rest
    | text => text
  (digits? digits).filter (· < Nat.pow 2 16)

/-- The settings to start with and the address to listen on, given what the environment names. -/
def configure (port : Nat) (named : Option (Option ByteArray)) :
    Except Failure (Settings × SocketAddress) := do
  let settings := { ← Settings.load named with port }
  settings.check
  return (settings, ← settings.bindAddress)

/-- The service to run and the address to listen on. -/
def start (arguments : List String) (named : Option (Option ByteArray)) :
    Except StartFault (Service × SocketAddress) :=
  match arguments with
  | [argument] =>
    match port? argument with
    | none => .error .usage
    | some port => do
      let (settings, address) ← (configure port named).mapError (.setup ∘ .failure)
      return (← (Service.new settings).mapError .setup, address)
  | _ => .error .usage

end ChatRooms.CommandLine
