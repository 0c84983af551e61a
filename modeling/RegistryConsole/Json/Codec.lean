import RegistryConsole.Json.Skip

/-! # Reading and writing typed values

A codec reads the values of a type straight from a text, so that a fault names the place of the
value that has the wrong kind, and writes them as JSON values. -/

namespace RegistryConsole.Json

/-- How values of a type are read from a text and written. The number bounds how deep lists and
objects may nest in what is read. -/
structure Codec (α : Type) where
  read : (levels : Nat) → Cursor → Except Fault (α × Cursor)
  write : α → Json

/-- The fault of a value of the wrong kind: a scalar is taken, a bracket only looked at. -/
def wrongKind {α : Type} (expected : String) (token : Token) (c : Cursor) : Except Fault α :=
  match token with
  | .null => c.fault (.wrongKind .null expected)
  | .bool b => c.fault (.wrongKind (.bool b) expected)
  | .number n => c.fault (.wrongKind (.number n) expected)
  | .string s => c.fault (.wrongKind (.string s) expected)
  | .openList => c.fault (.wrongKind .sequence expected)
  | .openObject => c.fault (.wrongKind .map expected)

namespace Codec

/-- Reads a whole text. -/
def ofBytes? {α : Type} (codec : Codec α) (text : Bytes) : Except Fault α :=
  readWhole (codec.read maxLevels) text

/-- The text of a value in UTF-8. -/
def bytes {α : Type} (codec : Codec α) (x : α) : Bytes :=
  (codec.write x).bytes

/-- Any value. -/
def any : Codec Json where
  read := readValue
  write := id

/-- Reads a string; another kind of value is refused as not being `expected`. -/
def readText (expected : String) (c : Cursor) : Except Fault (String × Cursor) :=
  match readToken c with
  | .error f => .error f
  | .ok (.string s, c) => .ok (s, c)
  | .ok (token, c) => wrongKind expected token c

/-- A string. -/
def string : Codec String where
  read _ := readText "a string"
  write := .string

/-- A path of files, which is a string. -/
def path : Codec String where
  read _ := readText "path string"
  write := .string

/-- A truth value. -/
def bool : Codec Bool where
  read _ c :=
    match readToken c with
    | .error f => .error f
    | .ok (.bool b, c) => .ok (b, c)
    | .ok (token, c) => wrongKind "a boolean" token c
  write := .bool

/-- Reads an integer in the range that `accept?` accepts. -/
def readInteger {α : Type} (expected : String) (accept? : Int → Option α) (c : Cursor) :
    Except Fault (α × Cursor) :=
  match readToken c with
  | .error f => .error f
  | .ok (.number (.integer n _), c) =>
    match accept? n with
    | some x => .ok (x, c)
    | none => c.fault (.wrongRange n expected)
  | .ok (token, c) => wrongKind expected token c

/-- An integer of 64 bits with a sign. -/
def int64 : Codec Int64 where
  read _ := readInteger "i64" fun n =>
    if -0x8000000000000000 ≤ n ∧ n < 0x8000000000000000 then some (Int64.ofInt n) else none
  write n := .number (.integer n.toInt
    ⟨Int64.le_toInt n, by have := Int64.toInt_lt n; omega⟩)

/-- An integer of 64 bits without a sign, called `name` in faults. -/
def nat64 (name : String) : Codec UInt64 where
  read _ := readInteger name fun n =>
    if 0 ≤ n ∧ n < 0x10000000000000000 then some (UInt64.ofNat n.toNat) else none
  write n := .number (.integer n.toNat ⟨by omega, by have := n.toNat_lt; omega⟩)

/-- An integer of 16 bits without a sign. -/
def nat16 : Codec UInt16 where
  read _ := readInteger "u16" fun n =>
    if 0 ≤ n ∧ n < 0x10000 then some (UInt16.ofNat n.toNat) else none
  write n := .number (.integer n.toNat ⟨by omega, by have := n.toNat_lt; omega⟩)

/-- A value that may be null. -/
def optional {α : Type} (codec : Codec α) : Codec (Option α) where
  read levels c :=
    let start := c.skipSpace
    if start.peek? = some 0x6E then
      (start.next.takeWord [0x75, 0x6C, 0x6C]).map fun c => (none, c)
    else (codec.read levels c).map fun (x, c) => (some x, c)
  write
    | none => .null
    | some x => codec.write x

/-- A list of values. -/
def list {α : Type} (codec : Codec α) : Codec (List α) where
  read levels c :=
    match readToken c, levels with
    | .error f, _ => .error f
    | .ok (.openList, c), 0 => c.faultNext .tooDeep
    | .ok (.openList, c), levels + 1 =>
      readItems (codec.read levels) (c.rest.length + 1) true c.next
    | .ok (token, c), _ => wrongKind "a sequence" token c
  write xs := .array (xs.map codec.write)

end Codec

end RegistryConsole.Json
