import RegistryConsole.Json.Codec

/-! # Records

A record has a fixed list of members, each with a name and a codec. It is written as an object
with its members in that order, and read from an object with its members in any order, or from a
list of its values. Members that may be absent have a value that stands for them then; an object
may hold other members, which are passed over. -/

namespace RegistryConsole.Json

/-- A member of a record. -/
structure Member where
  name : String
  Carrier : Type
  codec : Codec Carrier
  /-- What stands for the member where it is absent, if it may be. -/
  absent? : Option Carrier
  /-- The values that are not written. -/
  hidden : Carrier → Bool

/-- A member that must be there. -/
def Member.required {α : Type} (name : String) (codec : Codec α) : Member :=
  ⟨name, α, codec, none, fun _ => false⟩

/-- A member that may be absent and is always written. -/
def Member.defaulted {α : Type} (name : String) (codec : Codec α) (absent : α) : Member :=
  ⟨name, α, codec, some absent, fun _ => false⟩

/-- A member that may be absent or null and is written only where it has a value. -/
def Member.omitted {α : Type} (name : String) (codec : Codec α) : Member :=
  ⟨name, Option α, codec.optional, some none, Option.isNone⟩

/-- A value for each member. -/
def Values : List Member → Type
  | [] => PUnit
  | m :: ms => m.Carrier × Values ms

/-- A value for some of the members. -/
def Slots : List Member → Type
  | [] => PUnit
  | m :: ms => Option m.Carrier × Slots ms

/-- No values yet. -/
def Slots.empty : (ms : List Member) → Slots ms
  | [] => PUnit.unit
  | _ :: ms => (none, Slots.empty ms)

/-- The place that a fault without a place of its own gets after a name: after the white space,
and after the closing bracket of the object if it comes next. -/
def placeAfterName (c : Cursor) : Cursor :=
  let c := c.skipSpace
  if c.peek? = some 0x7D then c.next else c

/-- Reads the value of the member `name` from the place after the name. Nothing when no member
has that name. -/
def Slots.read (levels : Nat) (name : String) :
    (ms : List Member) → Slots ms → Cursor → Except Fault (Option (Slots ms × Cursor))
  | [], _, _ => .ok none
  | m :: ms, (slot, slots), c =>
    if name = m.name then
      if slot.isSome then (placeAfterName c).fault (.repeatedMember name)
      else
        match takeColon c with
        | .error f => .error f
        | .ok c => (m.codec.read levels c).map fun (x, c) => some ((some x, slots), c)
    else (Slots.read levels name ms slots c).map fun found =>
      found.map fun (slots, c) => ((slot, slots), c)

/-- The values of all members, or the name of the first one that is missing. -/
def Slots.values? : (ms : List Member) → Slots ms → Except String (Values ms)
  | [], _ => .ok PUnit.unit
  | m :: ms, (slot, slots) =>
    match slot.or m.absent? with
    | none => .error m.name
    | some x => (Slots.values? ms slots).map fun xs => (x, xs)

/-- Reads the members of an object up to its closing bracket, which is the next octet then. -/
def readSlots (levels : Nat) (ms : List Member) :
    (fuel : Nat) → (first : Bool) → Slots ms → Cursor → Except Fault (Slots ms × Cursor)
  | 0, _, _, c => c.faultNext .endOfObject
  | fuel + 1, first, slots, c =>
    match nextName? first c with
    | .error f => .error f
    | .ok (none, c) => .ok (slots, c)
    | .ok (some c, _) =>
      match readString c with
      | .error f => .error f
      | .ok (name, c) =>
        match Slots.read levels name ms slots c with
        | .error f => .error f
        | .ok (some (slots, c)) => readSlots levels ms fuel false slots c
        | .ok none =>
          match takeColon c with
          | .error f => .error f
          | .ok c =>
            match skipValue c with
            | .error f => .error f
            | .ok c => readSlots levels ms fuel false slots c

/-- Reads the values of the members one after the other from a list, up to its closing bracket,
which is the next octet then. `count` members were read before; at the end of the list the rest
must be members that may be absent. -/
def readInOrder (levels : Nat) (expected : String) :
    (ms : List Member) → (count : Nat) → Cursor → Except Fault (Values ms × Cursor)
  | [], _, c => .ok (PUnit.unit, c)
  | m :: ms, count, c =>
    match nextItem? (count == 0) c with
    | .error f => .error f
    | .ok (none, c) =>
      match m.absent? with
      | none => c.next.fault (.wrongLength count expected)
      | some x =>
        (readInOrder levels expected ms (count + 1) c).map fun (xs, c) => ((x, xs), c)
    | .ok (some c, _) =>
      match m.codec.read levels c with
      | .error f => .error f
      | .ok (x, c) =>
        (readInOrder levels expected ms (count + 1) c).map fun (xs, c) => ((x, xs), c)

/-- Takes the closing bracket of a list that has no more items. -/
def takeListEnd (c : Cursor) : Except Fault Cursor :=
  let c := c.skipSpace
  match c.peek? with
  | none => c.faultNext .endOfList
  | some b =>
    if b = 0x5D then .ok c.next
    else if b = 0x2C then
      let c := c.next.skipSpace
      if c.peek? = some 0x5D then c.faultNext .trailingComma else c.faultNext .trailingText
    else c.faultNext .trailingText

/-- The members that are written. -/
def Values.write : (ms : List Member) → Values ms → List (String × Json)
  | [], _ => []
  | m :: ms, (x, xs) =>
    let rest := Values.write ms xs
    if m.hidden x then rest else (m.name, m.codec.write x) :: rest

/-- How a type is a record: the name it has in faults, its members, and how a value is put
together from theirs and taken apart again. -/
structure Layout (α : Type) where
  title : String
  members : List Member
  build : Values members → α
  parts : α → Values members

namespace Layout

/-- What faults say is expected where the record is. -/
def expected {α : Type} (layout : Layout α) : String :=
  "struct " ++ layout.title

/-- What faults say is expected where a list is too short. -/
def expectedLength {α : Type} (layout : Layout α) : String :=
  let n := layout.members.length
  layout.expected ++ " with " ++ toString n ++ (if n = 1 then " element" else " elements")

/-- Reads a record from an object whose opening bracket is taken. -/
def readObject {α : Type} (layout : Layout α) (levels : Nat) (c : Cursor) :
    Except Fault (α × Cursor) :=
  match readSlots levels layout.members (c.rest.length + 1) true (Slots.empty _) c with
  | .error f => .error f
  | .ok (slots, c) =>
    match Slots.values? layout.members slots with
    | .error name => c.next.fault (.missingMember name)
    | .ok values => .ok (layout.build values, c.next)

/-- Reads a record from a list whose opening bracket is taken. -/
def readList {α : Type} (layout : Layout α) (levels : Nat) (c : Cursor) :
    Except Fault (α × Cursor) :=
  match readInOrder levels layout.expectedLength layout.members 0 c with
  | .error f => .error f
  | .ok (values, c) => (takeListEnd c).map fun c => (layout.build values, c)

/-- The codec of a record. -/
def codec {α : Type} (layout : Layout α) : Codec α where
  read levels c :=
    match readToken c, levels with
    | .error f, _ => .error f
    | .ok (.openList, c), 0 => c.faultNext .tooDeep
    | .ok (.openObject, c), 0 => c.faultNext .tooDeep
    | .ok (.openList, c), levels + 1 => layout.readList levels c.next
    | .ok (.openObject, c), levels + 1 => layout.readObject levels c.next
    | .ok (token, c), _ => wrongKind layout.expected token c
  write x := .object (Values.write layout.members (layout.parts x))

end Layout

end RegistryConsole.Json
