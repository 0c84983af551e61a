import RegistryConsole.Url.Form
import RegistryConsole.Url.Host

/-! # URLs

A URL in its parts, and its text. The parts are kept in the form in which the text shows them:
escaped, the host in its one spelling, and the port only where it is not the usual one. -/

namespace RegistryConsole

/-- The kinds of schemes, which decide how the rest of a URL is read. -/
inductive SchemeKind where
  /-- The scheme of a web address, with its usual port. -/
  | web (port : Nat)
  | file
  | other
  deriving DecidableEq

namespace SchemeKind

/-- The kind of a scheme. -/
def of (scheme : List Char) : SchemeKind :=
  if scheme = "http".toList ∨ scheme = "ws".toList then .web 80
  else if scheme = "https".toList ∨ scheme = "wss".toList then .web 443
  else if scheme = "ftp".toList then .web 21
  else if scheme = "file".toList then .file
  else .other

/-- Whether backslashes count as slashes, and the path is never empty. -/
def isSpecial : SchemeKind → Bool
  | .other => false
  | _ => true

/-- The usual port. -/
def port? : SchemeKind → Option Nat
  | .web port => some port
  | _ => none

end SchemeKind

/-- The path of a URL: segments, each after a slash, or a text without structure. -/
inductive UrlPath where
  | segments (parts : List (List Char))
  | plain (text : List Char)
  deriving DecidableEq

/-- The text of a path. -/
def UrlPath.text : UrlPath → List Char
  | .segments parts => parts.flatMap ('/' :: ·)
  | .plain text => text

/-- A URL. -/
structure Url where
  scheme : List Char
  user : List Char
  password : Option (List Char)
  host : Option (List Char)
  /-- The port, unless it is the usual one. -/
  port : Option Nat
  path : UrlPath
  query : Option (List Char)
  fragment : Option (List Char)
  deriving DecidableEq

/-- Where a connection goes to: a host and a port. -/
structure Origin where
  host : List Char
  port : Nat
  deriving DecidableEq

namespace Url

/-- The kind of the scheme. -/
def kind (u : Url) : SchemeKind := .of u.scheme

/-- The name and password of a user, up to the at sign. -/
def userText (u : Url) : List Char :=
  match u.password with
  | some password => u.user ++ ':' :: password ++ ['@']
  | none => if u.user = [] then [] else u.user ++ ['@']

/-- The host and, unless it is the usual one, the port. -/
def hostText (u : Url) : List Char :=
  u.host.getD [] ++
    match u.port with
    | some port => ':' :: Nat.toDigits 10 port
    | none => []

/-- What stands between the scheme and the path. Where no host stands there, a path that starts
with two slashes is marked. -/
def authorityText (u : Url) : List Char :=
  match u.host, u.path with
  | some _, _ => '/' :: '/' :: u.userText ++ u.hostText
  | none, .segments ([] :: _ :: _) => ['/', '.']
  | none, _ => []

/-- The query after its mark. -/
def queryText (u : Url) : List Char :=
  match u.query with
  | some query => '?' :: query
  | none => []

/-- The fragment after its mark. -/
def fragmentText (u : Url) : List Char :=
  match u.fragment with
  | some fragment => '#' :: fragment
  | none => []

/-- The text of a URL without its fragment. -/
def textBeforeFragment (u : Url) : List Char :=
  u.scheme ++ ':' :: u.authorityText ++ u.path.text ++ u.queryText

/-- The text of a URL. -/
def text (u : Url) : String :=
  String.ofList (u.textBeforeFragment ++ u.fragmentText)

/-- What a request for a URL asks for: its path and its query. -/
def target (u : Url) : List Char :=
  u.path.text ++ u.queryText

/-- Where a connection for a URL goes to. -/
def origin (u : Url) : Origin :=
  ⟨u.host.getD [], u.port.getD (u.kind.port?.getD 0)⟩

/-- Whether a URL names a host; a file without one has an empty host. -/
def hasHost (u : Url) : Bool :=
  u.host.any (· ≠ [])

/-- Whether a URL is a web page's: the only kinds that are called. -/
def isHttp (u : Url) : Bool :=
  u.scheme = "http".toList || u.scheme = "https".toList

/-- The URL with a field added to its query. -/
def addField (u : Url) (field : String × String) : Url :=
  { u with query := Form.addPair u.query field }

/-- The URL without the name and password of a user. -/
def withoutUser (u : Url) : Url :=
  { u with user := [], password := none }

/-- The URL without its fragment. -/
def withoutFragment (u : Url) : Url :=
  { u with fragment := none }

end Url

end RegistryConsole
