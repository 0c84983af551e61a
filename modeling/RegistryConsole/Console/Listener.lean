import RegistryConsole.Settings.Server
import RegistryConsole.Url.Host

/-! # Listening

The console listens at one address and port. Which addresses a machine has is not the console's
to say; neither is the port it is given when it leaves the choice to the machine. -/

namespace RegistryConsole

/-- The address of a machine in a network. -/
inductive HostAddress where
  | ipv4 (number : Nat)
  | ipv6 (numbers : List Nat)
  deriving DecidableEq

namespace HostAddress

/-- The text of an address. An address of eight numbers that stands for one of four shows it. -/
def text : HostAddress → List Char
  | .ipv4 n => Host.ipv4Text n
  | .ipv6 [0, 0, 0, 0, 0, 0xFFFF, a, b] =>
    [':', ':', 'f', 'f', 'f', 'f', ':'] ++ Host.ipv4Text (a * 65536 + b)
  | .ipv6 numbers => (Host.ipv6Text numbers).drop 1 |>.dropLast

/-- The address of the local host. -/
def loopback : HostAddress := .ipv4 0x7F000001

/-- The address that a name stands for without asking anybody. -/
def ofName? (name : String) : Option HostAddress :=
  match name.toList with
  | '[' :: rest =>
    if rest.getLast? = some ']' then (Host.ipv6? rest.dropLast).map .ipv6 else none
  | cs =>
    if name = "localhost" then some loopback
    else if cs.getLast? = some '.' then none
    else match Host.ipv4? cs with
      | some n => some (.ipv4 n)
      | none => (Host.ipv6? cs).map .ipv6

end HostAddress

/-- An address and a port. -/
structure Endpoint where
  address : HostAddress
  port : Nat
  deriving DecidableEq

/-- The text of an address and a port. -/
def Endpoint.text (e : Endpoint) : String :=
  let address := match e.address with
    | .ipv4 _ => e.address.text
    | .ipv6 _ => '[' :: e.address.text ++ [']']
  String.ofList (address ++ ':' :: Nat.toDigits 10 e.port)

/-- What a machine lets listen. -/
structure Machine where
  /-- Whether an address is one of the machine's. -/
  owns : HostAddress → Bool
  /-- The port that is given where none is asked for. -/
  freePort : Nat

/-- Why the console cannot listen. -/
inductive ListenFault where
  | unknownName (asked : String)
  | foreign (asked : String)
  deriving DecidableEq

namespace ListenFault

/-- The address and port that were asked for. -/
def asked : ListenFault → String
  | .unknownName asked => asked
  | .foreign asked => asked

/-- What is wrong with the address. -/
def cause : ListenFault → String
  | .unknownName _ =>
    "failed to lookup address information: Temporary failure in name resolution"
  | .foreign _ => "Cannot assign requested address (os error 99)"

/-- The text of a fault. -/
def message (f : ListenFault) : String :=
  "Failed to bind address " ++ f.asked ++ ": " ++ f.cause

end ListenFault

/-- Where the console listens with its settings. Port zero leaves the choice to the machine. -/
def Machine.listen (m : Machine) (settings : ServerSettings) : Except ListenFault Endpoint :=
  let port := settings.port.toNat
  let asked := settings.address ++ ":" ++ toString port
  match HostAddress.ofName? settings.address with
  | none => .error (.unknownName asked)
  | some address =>
    if m.owns address then .ok ⟨address, if port = 0 then m.freePort else port⟩
    else .error (.foreign asked)

end RegistryConsole
