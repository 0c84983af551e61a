import RegistryConsole.Json.Cursor

/-! # Reading strings

A string is read by a machine that looks at one octet at a time: it copies octets, resolves
escapes and joins the two halves of a character outside the basic plane. -/

namespace RegistryConsole.Json

/-- What the octets before have left open. -/
inductive StringState where
  /-- Between two characters. -/
  | plain
  /-- After a backslash. -/
  | escape
  /-- Inside the four digits of an escape: the first half of a pair, if it follows one, the digits
  still to come, and their value so far, unless one of them was no digit. -/
  | digits (high : Option Nat) (owed : Nat) (value : Option Nat)
  /-- After the first half of a pair. -/
  | half (high : Nat)
  /-- After the first half of a pair and a backslash. -/
  | halfEscape (high : Nat)
  deriving DecidableEq

/-- What an octet does: it adds octets to the string, ends it, or is wrong. -/
inductive StringStep where
  | go (state : StringState) (added : Bytes)
  | done
  | wrong (cause : Cause)

/-- The value of a digit in base 16. -/
def hexValue? (b : UInt8) : Option Nat :=
  let n := b.toNat
  if 0x30 ≤ n ∧ n ≤ 0x39 then some (n - 0x30)
  else if 0x41 ≤ n ∧ n ≤ 0x46 then some (n - 0x37)
  else if 0x61 ≤ n ∧ n ≤ 0x66 then some (n - 0x57)
  else none

/-- The octet that a letter after a backslash stands for. -/
def escapeValue? (b : UInt8) : Option UInt8 :=
  let n := b.toNat
  if n = 0x22 ∨ n = 0x5C ∨ n = 0x2F then some b
  else if n = 0x62 then some 0x08
  else if n = 0x66 then some 0x0C
  else if n = 0x6E then some 0x0A
  else if n = 0x72 then some 0x0D
  else if n = 0x74 then some 0x09
  else none

/-- The end of four digits with the value `n`. -/
def finishDigits : (high : Option Nat) → (n : Nat) → StringStep
  | none, n =>
    if 0xDC00 ≤ n ∧ n ≤ 0xDFFF then .wrong .loneSurrogate
    else if 0xD800 ≤ n ∧ n ≤ 0xDBFF then .go (.half n) []
    else .go .plain (Utf8.encodeChar (Char.ofNat n))
  | some h, n =>
    if n < 0xDC00 ∨ 0xDFFF < n then .wrong .loneSurrogate
    else .go .plain
      (Utf8.encodeChar (Char.ofNat ((h - 0xD800) * 1024 + (n - 0xDC00) + 0x10000)))

/-- What the next octet of a string does. -/
def stringStep : StringState → UInt8 → StringStep
  | .plain, b =>
    if b = 0x22 then .done
    else if b = 0x5C then .go .escape []
    else if b.toNat < 0x20 then .wrong .controlCharacter
    else .go .plain [b]
  | .escape, b =>
    if b = 0x75 then .go (.digits none 4 (some 0)) []
    else match escapeValue? b with
      | some x => .go .plain [x]
      | none => .wrong .invalidEscape
  | .digits high owed value, b =>
    let value := value.bind fun v => (hexValue? b).map fun d => v * 16 + d
    if 1 < owed then .go (.digits high (owed - 1) value) []
    else match value with
      | none => .wrong .invalidEscape
      | some n => finishDigits high n
  | .half h, b => if b = 0x5C then .go (.halfEscape h) [] else .wrong .cutSurrogate
  | .halfEscape h, b =>
    if b = 0x75 then .go (.digits (some h) 4 (some 0)) [] else .wrong .cutSurrogate

/-- The octets of a string up to its closing quote, after those already known, last first. -/
def readContent : StringState → (known : Bytes) → (taken : Nat) → (rest : Bytes) →
    Except Fault (Bytes × Cursor)
  | _, _, n, [] => .error ⟨.endOfString, n⟩
  | state, known, n, b :: rest =>
    match stringStep state b with
    | .go state added => readContent state (added.reverse ++ known) (n + 1) rest
    | .done => .ok (known.reverse, ⟨rest, n + 1⟩)
    | .wrong cause => .error ⟨cause, n + 1⟩

/-- Reads a string from the place after its opening quote. The content must be UTF-8; if it is
not, the fault lies as far before the closing quote as the octets that are wrong reach. -/
def readString (c : Cursor) : Except Fault (String × Cursor) :=
  match readContent .plain [] c.taken c.rest with
  | .error f => .error f
  | .ok (content, after) =>
    match Utf8.toString? content with
    | some s => .ok (s, after)
    | none => .error ⟨.invalidCharacter, after.taken - (content.length - Utf8.validLength content)⟩

/-- Passes over a string from the place after its opening quote: its escapes must be well formed,
but its characters may be any. `owed` counts the digits of an escape that are still to come. -/
def skipContent : (escaped : Bool) → (owed : Nat) → (digitsGood : Bool) → (taken : Nat) →
    (rest : Bytes) → Except Fault Cursor
  | _, _, _, n, [] => .error ⟨.endOfString, n⟩
  | escaped, owed, good, n, b :: rest =>
    if 0 < owed then
      let good := good && (hexValue? b).isSome
      if owed = 1 ∧ good = false then .error ⟨.invalidEscape, n + 1⟩
      else skipContent false (owed - 1) good (n + 1) rest
    else if escaped then
      if b = 0x75 then skipContent false 4 true (n + 1) rest
      else if (escapeValue? b).isSome then skipContent false 0 true (n + 1) rest
      else .error ⟨.invalidEscape, n + 1⟩
    else if b = 0x22 then .ok ⟨rest, n + 1⟩
    else if b = 0x5C then skipContent true 0 true (n + 1) rest
    else if b.toNat < 0x20 then .error ⟨.controlCharacter, n⟩
    else skipContent false 0 true (n + 1) rest

/-- Passes over a string from the place after its opening quote. -/
def skipString (c : Cursor) : Except Fault Cursor :=
  skipContent false 0 true c.taken c.rest

end RegistryConsole.Json
