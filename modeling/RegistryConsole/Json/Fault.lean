import RegistryConsole.Bytes
import RegistryConsole.Json.Writer

/-! # Why a text is no JSON value

A fault is a cause and the offset at which it was noticed. Its text names the line and column of
that offset. -/

namespace RegistryConsole.Json

/-- What stands in a text where something else was wanted. -/
inductive Found where
  | null
  | bool (b : Bool)
  | number (n : Number)
  | string (s : String)
  | sequence
  | map

/-- What a reader finds wrong. -/
inductive Cause where
  | endOfList
  | endOfObject
  | endOfString
  | endOfValue
  | expectedColon
  | expectedListEnd
  | expectedObjectEnd
  | expectedWord
  | expectedValue
  | keyNotString
  | trailingComma
  | trailingText
  | invalidEscape
  | invalidNumber
  | numberRange
  | invalidCharacter
  | controlCharacter
  | loneSurrogate
  | cutSurrogate
  | tooDeep
  /-- A value of another kind than the one expected. -/
  | wrongKind (found : Found) (expected : String)
  /-- An integer outside the range of the kind expected. -/
  | wrongRange (n : Int) (expected : String)
  /-- A list of `length` items where `expected` has more. -/
  | wrongLength (length : Nat) (expected : String)
  | missingMember (name : String)
  | repeatedMember (name : String)

/-- A cause and the number of octets before the place where it was noticed. -/
structure Fault where
  cause : Cause
  offset : Nat

/-- The text of a value that was found. -/
def Found.text : Found → String
  | .null => "null"
  | .bool true => "boolean `true`"
  | .bool false => "boolean `false`"
  | .number (.integer n h) => "integer `" ++ String.ofList (Number.text (.integer n h)) ++ "`"
  | .number (.float x) => "floating point `" ++ String.ofList (Number.text (.float x)) ++ "`"
  | .string s => "string " ++ quoted s
  | .sequence => "sequence"
  | .map => "map"

/-- The text of a cause. -/
def Cause.message : Cause → String
  | .endOfList => "EOF while parsing a list"
  | .endOfObject => "EOF while parsing an object"
  | .endOfString => "EOF while parsing a string"
  | .endOfValue => "EOF while parsing a value"
  | .expectedColon => "expected `:`"
  | .expectedListEnd => "expected `,` or `]`"
  | .expectedObjectEnd => "expected `,` or `\x7d`"
  | .expectedWord => "expected ident"
  | .expectedValue => "expected value"
  | .keyNotString => "key must be a string"
  | .trailingComma => "trailing comma"
  | .trailingText => "trailing characters"
  | .invalidEscape => "invalid escape"
  | .invalidNumber => "invalid number"
  | .numberRange => "number out of range"
  | .invalidCharacter => "invalid unicode code point"
  | .controlCharacter => "control character (\\u0000-\\u001F) found while parsing a string"
  | .loneSurrogate => "lone leading surrogate in hex escape"
  | .cutSurrogate => "unexpected end of hex escape"
  | .tooDeep => "recursion limit exceeded"
  | .wrongKind found expected => "invalid type: " ++ found.text ++ ", expected " ++ expected
  | .wrongRange n expected =>
    "invalid value: integer `" ++ String.ofList (Number.integerText n) ++ "`, expected " ++ expected
  | .wrongLength length expected =>
    "invalid length " ++ toString length ++ ", expected " ++ expected
  | .missingMember name => "missing field `" ++ name ++ "`"
  | .repeatedMember name => "duplicate field `" ++ name ++ "`"

/-- The line of an offset: one more than the line ends before it. -/
def lineAt (text : Bytes) (offset : Nat) : Nat :=
  1 + (text.take offset).count 10

/-- The column of an offset: the octets between the last line end before it and the offset. -/
def columnAt (text : Bytes) (offset : Nat) : Nat :=
  ((text.take offset).reverse.takeWhile fun b => b != 10).length

/-- The text of a fault found in `text`. -/
def Fault.message (text : Bytes) (f : Fault) : String :=
  f.cause.message ++ " at line " ++ toString (lineAt text f.offset) ++ " column " ++
    toString (columnAt text f.offset)

end RegistryConsole.Json
