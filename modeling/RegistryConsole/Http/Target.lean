import RegistryConsole.Http.Method
import RegistryConsole.Text.Lead

/-! # Request targets

What a request asks for: a path and a query, perhaps after a scheme and a host. The text is
checked as a whole; a fragment at its end does not count. -/

namespace RegistryConsole

/-- What a request asks for. -/
structure RequestTarget where
  /-- The scheme and the host with what stands between them, if they are there. -/
  lead : String
  path : String
  query : Option String
  deriving DecidableEq

/-- Why a text is no target. -/
inductive TargetFault where
  | empty
  | tooLong
  | character
  | format
  | authority
  | schemeTooLong
  deriving DecidableEq

/-- The text of a fault. -/
def TargetFault.message : TargetFault → String
  | .empty => "empty string"
  | .tooLong => "uri too long"
  | .character => "invalid uri character"
  | .format => "invalid format"
  | .authority => "invalid authority"
  | .schemeTooLong => "scheme too long"

namespace RequestTarget

/-- The greatest length of a target. -/
def maxLength : Nat := 65534

/-- The greatest length of a scheme. -/
def maxScheme : Nat := 64

/-! ## Path and query -/

/-- Whether an octet may stand in a query. Octets beyond ASCII must be those of characters. -/
def isQueryOctet (b : UInt8) : Bool :=
  let n := b.toNat
  n == 0x21 || (0x24 ≤ n && n ≤ 0x3B) || n == 0x3D || (0x3F ≤ n && n ≤ 0x7E) || 0x80 ≤ n

/-- Whether an octet may stand in a path. -/
def isPathOctet (b : UInt8) : Bool :=
  let n := b.toNat
  n == 0x22 || (isQueryOctet b && n ≠ 0x3F && n ≠ 0x60)

/-- The path and the query of a text. -/
def readPath (text : Bytes) : Except TargetFault (String × Option String) :=
  let text := text.takeWhile (· != 0x23)
  let path := text.takeWhile (· != 0x3F)
  let query := text.drop path.length
  if path.all isPathOctet && (query.drop 1).all isQueryOctet then
    match Utf8.toString? path, Utf8.toString? (query.drop 1) with
    | some p, some q => .ok (p, if query = [] then none else some q)
    | _, _ => .error .character
  else .error .character

/-! ## Scheme and host -/

/-- Whether an octet may stand in the part with the host. -/
def isAuthorityOctet (b : UInt8) : Bool :=
  let n := b.toNat
  n == 0x21 || n == 0x24 || (0x26 ≤ n && n ≤ 0x2E) || (0x30 ≤ n && n ≤ 0x3B) || n == 0x3D ||
    (0x40 ≤ n && n ≤ 0x5B) || n == 0x5D || n == 0x5F || (0x61 ≤ n && n ≤ 0x7A) || n == 0x7E

/-- What is known of the part with the host while it is read. -/
structure Authority where
  colons : Nat := 0
  opened : Bool := false
  closed : Bool := false
  escapes : Bool := false
  endsInAt : Bool := false

/-- What is known after one more octet. -/
def Authority.step (a : Authority) (b : UInt8) : Except TargetFault Authority :=
  let a := { a with endsInAt := false }
  if b = 0x3A then
    if 8 ≤ a.colons then .error .authority else .ok { a with colons := a.colons + 1 }
  else if b = 0x5B then
    if a.escapes || a.opened then .error .authority else .ok { a with opened := true }
  else if b = 0x5D then
    if !a.opened || a.closed then .error .authority
    else .ok { a with closed := true, colons := 0, escapes := false }
  else if b = 0x40 then .ok { a with colons := 0, escapes := false, endsInAt := true }
  else if b = 0x25 then .ok { a with escapes := true }
  else if isAuthorityOctet b then .ok a
  else .error .character

/-- The octets of the part with the host, up to a path, a query or a fragment. -/
def authorityOf (text : Bytes) : Bytes :=
  text.takeWhile fun b => b != 0x2F && b != 0x3F && b != 0x23

/-- Checks the part with the host at the start of a text, and gives it. -/
def readAuthority (text : Bytes) : Except TargetFault Bytes := do
  let part := authorityOf text
  let a ← part.foldlM Authority.step {}
  if a.opened != a.closed || 1 < a.colons || a.endsInAt || a.escapes then .error .authority
  else .ok part

/-- Whether an octet may stand in a scheme. -/
def isSchemeOctet (b : UInt8) : Bool :=
  let n := b.toNat
  n == 0x2B || n == 0x2D || n == 0x2E || (0x30 ≤ n && n ≤ 0x39) || (0x41 ≤ n && n ≤ 0x5A) ||
    (0x61 ≤ n && n ≤ 0x7A)

/-- The scheme at the start of a text, if a colon and two slashes follow it. -/
def schemeOf? (text : Bytes) : Option Bytes :=
  let name := text.takeWhile isSchemeOctet
  if (dropLead? [0x3A, 0x2F, 0x2F] (text.drop name.length)).isSome then some name else none

/-- The text of a scheme: the two of the web in lower case. -/
def schemeText (name : Bytes) : String :=
  let lower := String.ofList (Bytes.toLatin (name.map fun b =>
    if 0x41 ≤ b.toNat ∧ b.toNat ≤ 0x5A then b + 0x20 else b))
  if lower = "http" ∨ lower = "https" then lower else String.ofList (Bytes.toLatin name)

/-! ## The whole -/

/-- A target that names a host. -/
def readFull (text : Bytes) : Except TargetFault RequestTarget :=
  match schemeOf? text with
  | none => do
    let part ← readAuthority text
    if part = text then .ok ⟨String.ofList (Bytes.toLatin part), "", none⟩ else .error .format
  | some name => do
    if maxScheme < name.length then .error .schemeTooLong
    else
      let rest := text.drop (name.length + 3)
      let part ← readAuthority rest
      if part = [] then .error .format
      else
        let (path, query) ← readPath (rest.drop part.length)
        .ok ⟨schemeText name ++ "://" ++ String.ofList (Bytes.toLatin part),
          if path = "" then "/" else path, query⟩

/-- The target that octets spell. -/
def ofBytes? (text : Bytes) : Except TargetFault RequestTarget :=
  if maxLength < text.length then .error .tooLong
  else match text with
    | [] => .error .empty
    | [0x2A] => .ok ⟨"", "*", none⟩
    | 0x2F :: _ => do
      let (path, query) ← readPath text
      .ok ⟨"", path, query⟩
    | [b] => do
      let part ← readAuthority [b]
      if part = [b] then .ok ⟨String.ofList (Bytes.toLatin part), "", none⟩
      else .error .character
    | _ => readFull text

end RequestTarget

end RegistryConsole
