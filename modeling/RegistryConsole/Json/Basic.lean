import RegistryConsole.Decimal.Binary64
import RegistryConsole.Json.Members

/-! # JSON values -/

namespace RegistryConsole

/-- A number of a JSON value: an integer of at most 64 bits, with or without a sign, or else a
binary fraction. -/
inductive Number where
  | integer (n : Int) (fits : -0x8000000000000000 ≤ n ∧ n < 0x10000000000000000)
  | float (x : Binary64)
  deriving DecidableEq

/-- A JSON value. Objects keep their members in a list; a value that was read has them in the
order of their names, one for each name. -/
inductive Json where
  | null
  | bool (b : Bool)
  | number (n : Number)
  | string (s : String)
  | array (items : List Json)
  | object (members : List (String × Json))

namespace Json

/-- A natural number below 2⁶⁴ as a value; others do not occur and are cut to 64 bits. -/
def ofNat (n : Nat) : Json :=
  .number (.integer ((n % 0x10000000000000000 : Nat) : Int) (by omega))

/-- The member `name` of an object. -/
def member? (name : String) : Json → Option Json
  | .object members => (members.find? fun m => m.1 == name).map (·.2)
  | _ => none

mutual

/-- The value with the members of all its objects in the order of their names. -/
def sorted : Json → Json
  | .array items => .array (sortedItems items)
  | .object members => .object (sortMembers (sortedMembers members))
  | .null => .null
  | .bool b => .bool b
  | .number n => .number n
  | .string s => .string s

/-- The values of a list, each with its members in order. -/
def sortedItems : List Json → List Json
  | [] => []
  | item :: items => item.sorted :: sortedItems items

/-- The members of an object, each value with its own members in order. -/
def sortedMembers : List (String × Json) → List (String × Json)
  | [] => []
  | (name, value) :: members => (name, value.sorted) :: sortedMembers members

end

/-- Whether two numbers are equal: floats as numbers, an integer never equals a float. -/
def sameNumber : Number → Number → Bool
  | .integer m _, .integer n _ => m == n
  | .float x, .float y => x.sameValue y
  | _, _ => false

mutual

/-- Whether two values are equal, with floats compared as numbers. -/
def same : Json → Json → Bool
  | .null, .null => true
  | .bool a, .bool b => a == b
  | .number m, .number n => sameNumber m n
  | .string s, .string t => s == t
  | .array a, .array b => sameItems a b
  | .object a, .object b => sameMembers a b
  | _, _ => false

/-- Whether two lists of values are equal. -/
def sameItems : List Json → List Json → Bool
  | [], [] => true
  | a :: as, b :: bs => a.same b && sameItems as bs
  | _, _ => false

/-- Whether two lists of members are equal. -/
def sameMembers : List (String × Json) → List (String × Json) → Bool
  | [], [] => true
  | (m, a) :: as, (n, b) :: bs => m == n && a.same b && sameMembers as bs
  | _, _ => false

end

end Json

end RegistryConsole
