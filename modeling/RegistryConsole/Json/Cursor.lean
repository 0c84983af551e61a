import RegistryConsole.Json.Fault

/-! # A place in a text

Readers go over the octets of a text with a cursor, which knows what is left and how many octets
were taken. Faults about an octet that was taken name the place after it, and so do faults about
an octet that was only looked at. -/

namespace RegistryConsole.Json

/-- The octets that are left and the number of those taken. -/
structure Cursor where
  rest : Bytes
  taken : Nat
  deriving DecidableEq

namespace Cursor

/-- The start of a text. -/
def ofBytes (text : Bytes) : Cursor := ⟨text, 0⟩

/-- The next octet. -/
def peek? (c : Cursor) : Option UInt8 := c.rest.head?

/-- The place after the next octet. -/
def next (c : Cursor) : Cursor :=
  match c.rest with
  | [] => c
  | _ :: rest => ⟨rest, c.taken + 1⟩

/-- A fault about what was taken. -/
def fault {α : Type} (c : Cursor) (cause : Cause) : Except Fault α :=
  .error ⟨cause, c.taken⟩

/-- A fault about the next octet. -/
def faultNext {α : Type} (c : Cursor) (cause : Cause) : Except Fault α :=
  .error ⟨cause, c.next.taken⟩

/-- Whether an octet is white space between the parts of a JSON text. -/
def isSpace (b : UInt8) : Bool :=
  b == 0x20 || b == 0x0A || b == 0x09 || b == 0x0D

/-- The place after `taken` octets and the white space that starts `rest`. -/
def skipFrom : (taken : Nat) → (rest : Bytes) → Cursor
  | n, [] => ⟨[], n⟩
  | n, b :: rest => if isSpace b then skipFrom (n + 1) rest else ⟨b :: rest, n⟩

/-- The place after white space. -/
def skipSpace (c : Cursor) : Cursor :=
  skipFrom c.taken c.rest

/-- The number that a decimal digit stands for. -/
def digit? (b : UInt8) : Option Nat :=
  if 0x30 ≤ b.toNat ∧ b.toNat ≤ 0x39 then some (b.toNat - 0x30) else none

/-- Whether the next octet is a decimal digit. -/
def atDigit (c : Cursor) : Bool :=
  (c.peek?.bind digit?).isSome

/-- The place after `taken` octets and the decimal digits that start `rest`. -/
def skipDigitsFrom : (taken : Nat) → (rest : Bytes) → Cursor
  | n, [] => ⟨[], n⟩
  | n, b :: rest => if (digit? b).isSome then skipDigitsFrom (n + 1) rest else ⟨b :: rest, n⟩

/-- The place after decimal digits. -/
def skipDigits (c : Cursor) : Cursor :=
  skipDigitsFrom c.taken c.rest

/-- Takes the letters of a word. The end of the text and a wrong letter are different faults. -/
def takeWord : (letters : Bytes) → Cursor → Except Fault Cursor
  | [], c => .ok c
  | x :: letters, c =>
    match c.rest with
    | [] => c.fault .endOfValue
    | y :: _ => if x = y then takeWord letters c.next else c.next.fault .expectedWord

end Cursor

end RegistryConsole.Json
