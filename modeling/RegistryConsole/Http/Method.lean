import RegistryConsole.Bytes
import RegistryConsole.Text.Utf8

/-! # Request methods

A method is a token of HTTP; letter case tells methods apart. -/

namespace RegistryConsole

/-- Whether an octet may stand in a token. -/
def isTokenOctet (b : UInt8) : Bool :=
  let n := b.toNat
  (0x30 ≤ n && n ≤ 0x39) || (0x41 ≤ n && n ≤ 0x5A) || (0x61 ≤ n && n ≤ 0x7A) ||
    n == 0x21 || (0x23 ≤ n && n ≤ 0x27) || n == 0x2A || n == 0x2B || n == 0x2D || n == 0x2E ||
    n == 0x5E || n == 0x5F || n == 0x60 || n == 0x7C || n == 0x7E

/-- A request method, by its token. -/
structure Method where
  token : Bytes
  deriving DecidableEq

namespace Method

/-- `GET`. -/
def get : Method := ⟨[0x47, 0x45, 0x54]⟩

/-- `HEAD`. -/
def head : Method := ⟨[0x48, 0x45, 0x41, 0x44]⟩

/-- `PUT`. -/
def put : Method := ⟨[0x50, 0x55, 0x54]⟩

/-- `POST`. -/
def post : Method := ⟨[0x50, 0x4F, 0x53, 0x54]⟩

/-- `DELETE`. -/
def delete : Method := ⟨[0x44, 0x45, 0x4C, 0x45, 0x54, 0x45]⟩

/-- `CONNECT`. -/
def connect : Method := ⟨[0x43, 0x4F, 0x4E, 0x4E, 0x45, 0x43, 0x54]⟩

/-- The method of a token, if the octets are one. -/
def ofBytes? (b : Bytes) : Option Method :=
  if b ≠ [] ∧ b.all isTokenOctet then some ⟨b⟩ else none

end Method

end RegistryConsole
