import RegistryConsole.Json.Number
import RegistryConsole.Json.StringReader

/-! # Reading values

A text is read from left to right. Of two faults the first one counts. Lists and objects nest at
most 127 deep. -/

namespace RegistryConsole.Json

/-! ## Tokens -/

/-- What a value starts with: a scalar as a whole, or the bracket that opens a list or object. -/
inductive Token where
  | null
  | bool (b : Bool)
  | number (n : Number)
  | string (s : String)
  | openList
  | openObject

/-- Reads the scalar that starts at `c`. A bracket is only looked at. -/
def readToken (c : Cursor) : Except Fault (Token × Cursor) :=
  let c := c.skipSpace
  match c.rest with
  | [] => c.faultNext .endOfValue
  | b :: _ =>
    if b = 0x5B then .ok (.openList, c)
    else if b = 0x7B then .ok (.openObject, c)
    else if b = 0x22 then (readString c.next).map fun (s, c) => (.string s, c)
    else if b = 0x2D then (readNumber false c.next).map fun (n, c) => (.number n, c)
    else if (Cursor.digit? b).isSome then (readNumber true c).map fun (n, c) => (.number n, c)
    else if b = 0x6E then (c.next.takeWord [0x75, 0x6C, 0x6C]).map fun c => (.null, c)
    else if b = 0x74 then (c.next.takeWord [0x72, 0x75, 0x65]).map fun c => (.bool true, c)
    else if b = 0x66 then (c.next.takeWord [0x61, 0x6C, 0x73, 0x65]).map fun c => (.bool false, c)
    else c.faultNext .expectedValue

/-! ## Lists and objects -/

/-- The place of the next item of a list, or nothing at its closing bracket; `first` before the
first one. -/
def nextItem? (first : Bool) (c : Cursor) : Except Fault (Option Cursor × Cursor) :=
  let c := c.skipSpace
  match c.peek? with
  | none => c.faultNext .endOfList
  | some b =>
    if b = 0x5D then .ok (none, c)
    else if first then .ok (some c, c)
    else if b = 0x2C then
      let c := c.next.skipSpace
      match c.peek? with
      | none => c.faultNext .endOfValue
      | some b => if b = 0x5D then c.faultNext .trailingComma else .ok (some c, c)
    else c.faultNext .expectedListEnd

/-- The place after the opening quote of the next name of an object, or nothing at its closing
bracket; `first` before the first one. -/
def nextName? (first : Bool) (c : Cursor) : Except Fault (Option Cursor × Cursor) :=
  let c := c.skipSpace
  match c.peek? with
  | none => c.faultNext .endOfObject
  | some b =>
    if b = 0x7D then .ok (none, c)
    else if first then
      if b = 0x22 then .ok (some c.next, c) else c.faultNext .keyNotString
    else if b = 0x2C then
      let c := c.next.skipSpace
      match c.peek? with
      | none => c.faultNext .endOfValue
      | some b =>
        if b = 0x22 then .ok (some c.next, c)
        else if b = 0x7D then c.faultNext .trailingComma
        else c.faultNext .keyNotString
    else c.faultNext .expectedObjectEnd

/-- Takes the colon between a name and its value. -/
def takeColon (c : Cursor) : Except Fault Cursor :=
  let c := c.skipSpace
  match c.peek? with
  | none => c.faultNext .endOfObject
  | some b => if b = 0x3A then .ok c.next else c.faultNext .expectedColon

/-- The items of a list and the place after its closing bracket. Every item takes an octet at
least, so `fuel` may be one more than the octets that are left. -/
def readItems {α : Type} (readItem : Cursor → Except Fault (α × Cursor)) :
    (fuel : Nat) → (first : Bool) → Cursor → Except Fault (List α × Cursor)
  | 0, _, c => c.faultNext .endOfList
  | fuel + 1, first, c =>
    match nextItem? first c with
    | .error f => .error f
    | .ok (none, c) => .ok ([], c.next)
    | .ok (some c, _) =>
      match readItem c with
      | .error f => .error f
      | .ok (x, c) =>
        match readItems readItem fuel false c with
        | .error f => .error f
        | .ok (xs, c) => .ok (x :: xs, c)

/-- The members of an object in the order of the text and the place after its closing bracket. -/
def readMembers {α : Type} (readMember : Cursor → Except Fault (α × Cursor)) :
    (fuel : Nat) → (first : Bool) → Cursor → Except Fault (List (String × α) × Cursor)
  | 0, _, c => c.faultNext .endOfObject
  | fuel + 1, first, c =>
    match nextName? first c with
    | .error f => .error f
    | .ok (none, c) => .ok ([], c.next)
    | .ok (some c, _) =>
      match readString c with
      | .error f => .error f
      | .ok (name, c) =>
        match takeColon c with
        | .error f => .error f
        | .ok c =>
          match readMember c with
          | .error f => .error f
          | .ok (x, c) =>
            match readMembers readMember fuel false c with
            | .error f => .error f
            | .ok (ms, c) => .ok ((name, x) :: ms, c)

/-! ## Values -/

/-- Reads a value; `inner` reads the values inside it, if they may be there. -/
def readWith (inner : Option (Cursor → Except Fault (Json × Cursor))) (c : Cursor) :
    Except Fault (Json × Cursor) :=
  match readToken c with
  | .error f => .error f
  | .ok (.null, c) => .ok (.null, c)
  | .ok (.bool b, c) => .ok (.bool b, c)
  | .ok (.number n, c) => .ok (.number n, c)
  | .ok (.string s, c) => .ok (.string s, c)
  | .ok (.openList, c) =>
    match inner with
    | none => c.faultNext .tooDeep
    | some read =>
      (readItems read (c.rest.length + 1) true c.next).map fun (items, c) => (.array items, c)
  | .ok (.openObject, c) =>
    match inner with
    | none => c.faultNext .tooDeep
    | some read =>
      (readMembers read (c.rest.length + 1) true c.next).map fun (members, c) =>
        (.object (sortMembers members), c)

/-- Reads a value in which lists and objects nest at most `levels` deep. -/
def readValue : (levels : Nat) → Cursor → Except Fault (Json × Cursor)
  | 0, c => readWith none c
  | levels + 1, c => readWith (some (readValue levels)) c

/-- How deep lists and objects may nest. -/
def maxLevels : Nat := 127

/-- Reads a whole text with a reader of values: after the value only white space may follow. -/
def readWhole {α : Type} (read : Cursor → Except Fault (α × Cursor)) (text : Bytes) :
    Except Fault α :=
  match read (.ofBytes text) with
  | .error f => .error f
  | .ok (x, c) =>
    let c := c.skipSpace
    if c.rest.isEmpty then .ok x else c.faultNext .trailingText

/-- The value of a text. -/
def ofBytes? (text : Bytes) : Except Fault Json :=
  readWhole (readValue maxLevels) text

end RegistryConsole.Json
