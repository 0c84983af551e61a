import RegistryConsole.Json.Reader

/-! # Passing over values

Members that a record does not know are passed over. Their syntax is checked, but neither the
characters of their strings nor the size of their numbers, and they may nest to any depth. -/

namespace RegistryConsole.Json

/-- A list or an object that is not closed yet. -/
inductive Bracket where
  | list
  | object
  deriving DecidableEq

/-- The octet that closes a bracket. -/
def Bracket.close : Bracket → UInt8
  | .list => 0x5D
  | .object => 0x7D

/-- The fault of a text that ends inside a bracket. -/
def Bracket.atEnd : Bracket → Cause
  | .list => .endOfList
  | .object => .endOfObject

/-- The fault of an item that is followed by neither a comma nor the end. -/
def Bracket.afterItem : Bracket → Cause
  | .list => .expectedListEnd
  | .object => .expectedObjectEnd

/-- Passes over the exponent of a number from its letter on. -/
def skipExponent (c : Cursor) : Except Fault Cursor :=
  let c := c.next
  let c := if c.peek? = some 0x2B ∨ c.peek? = some 0x2D then c.next else c
  if c.atDigit then .ok c.next.skipDigits else c.next.fault .invalidNumber

/-- Passes over a number from its first digit on. -/
def skipNumber (c : Cursor) : Except Fault Cursor :=
  if c.atDigit = false then c.next.fault .invalidNumber
  else if c.peek? = some 0x30 ∧ c.next.atDigit then c.next.faultNext .invalidNumber
  else
    let c := c.skipDigits
    if c.peek? = some 0x2E then
      let c := c.next
      if c.atDigit = false then c.faultNext .invalidNumber
      else
        let c := c.skipDigits
        if c.atExponent then skipExponent c else .ok c
    else if c.atExponent then skipExponent c
    else .ok c

/-- Passes over a scalar, or over the bracket that opens a list or object and names it. -/
def skipToken (c : Cursor) : Except Fault (Option Bracket × Cursor) :=
  let c := c.skipSpace
  match c.rest with
  | [] => c.faultNext .endOfValue
  | b :: _ =>
    if b = 0x5B then .ok (some .list, c.next)
    else if b = 0x7B then .ok (some .object, c.next)
    else if b = 0x22 then (skipString c.next).map (none, ·)
    else if b = 0x2D then (skipNumber c.next).map (none, ·)
    else if (Cursor.digit? b).isSome then (skipNumber c).map (none, ·)
    else if b = 0x6E then (c.next.takeWord [0x75, 0x6C, 0x6C]).map (none, ·)
    else if b = 0x74 then (c.next.takeWord [0x72, 0x75, 0x65]).map (none, ·)
    else if b = 0x66 then (c.next.takeWord [0x61, 0x6C, 0x73, 0x65]).map (none, ·)
    else c.faultNext .expectedValue

/-- Closes what ends here. The brackets that stay open, innermost first, and the place where the
next item or member of the innermost one starts; `afterValue` when a value ended just before. -/
def closeBrackets : (opened : List Bracket) → (afterValue : Bool) → Cursor →
    Except Fault (List Bracket × Cursor)
  | [], _, c => .ok ([], c)
  | bracket :: outer, afterValue, c =>
    let c := c.skipSpace
    match c.peek? with
    | none => c.faultNext bracket.atEnd
    | some b =>
      if b = 0x2C ∧ afterValue then .ok (bracket :: outer, c.next)
      else if b = bracket.close then closeBrackets outer true c.next
      else if afterValue then c.faultNext bracket.afterItem
      else .ok (bracket :: outer, c)

/-- Passes over the name of a member and its colon. -/
def skipName (c : Cursor) : Except Fault Cursor :=
  let c := c.skipSpace
  match c.peek? with
  | none => c.faultNext .endOfObject
  | some b =>
    if b ≠ 0x22 then c.faultNext .keyNotString
    else match skipString c.next with
      | .error f => .error f
      | .ok c => takeColon c

/-- Passes over a value and all that is open around it. -/
def skipFrom : (fuel : Nat) → (opened : List Bracket) → Cursor → Except Fault Cursor
  | 0, _, c => c.faultNext .endOfValue
  | fuel + 1, opened, c =>
    match skipToken c with
    | .error f => .error f
    | .ok (bracket?, c) =>
      let opened := bracket?.toList ++ opened
      match closeBrackets opened bracket?.isNone c with
      | .error f => .error f
      | .ok ([], c) => .ok c
      | .ok (.list :: outer, c) => skipFrom fuel (.list :: outer) c
      | .ok (.object :: outer, c) =>
        match skipName c with
        | .error f => .error f
        | .ok c => skipFrom fuel (.object :: outer) c

/-- Passes over a value. Every round takes an octet at least. -/
def skipValue (c : Cursor) : Except Fault Cursor :=
  skipFrom (c.rest.length + 1) [] c

end RegistryConsole.Json
