import RegistryConsole.Url.Basic

/-! # Reading URLs

A text is read from left to right: the scheme, the user, the host, the port, the path, the query
and the fragment. White space around the text and line ends and tabs inside it do not count. A
text without a scheme is read relative to another URL. -/

namespace RegistryConsole.Url

/-! ## The text -/

/-- Whether a character around a text does not count. -/
def isTrimmed (c : Char) : Bool :=
  c.toNat ≤ 0x20

/-- Whether a character inside a text does not count. -/
def isSkipped (c : Char) : Bool :=
  c == '\t' || c == '\n' || c == '\r'

/-- The characters of a text that count. -/
def clean (cs : List Char) : List Char :=
  (((cs.dropWhile isTrimmed).reverse.dropWhile isTrimmed).reverse).filter (!isSkipped ·)

/-- Whether a character may stand in a scheme after its first letter. -/
def isSchemeChar (c : Char) : Bool :=
  c.isAlphanum || c == '+' || c == '-' || c == '.'

/-- The scheme in lower case and what follows its colon. -/
def splitScheme? (cs : List Char) : Option (List Char × List Char) :=
  if cs.head?.any Char.isAlpha then
    let name := cs.takeWhile isSchemeChar
    match cs.drop name.length with
    | ':' :: rest => some (name.map Char.toLower, rest)
    | _ => none
  else none

/-- Whether a character ends the part with the host. -/
def endsAuthority (special : Bool) (c : Char) : Bool :=
  c == '/' || c == '?' || c == '#' || (special && c == '\\')

/-- Whether a character separates the segments of a path. -/
def isSlash (special : Bool) (c : Char) : Bool :=
  c == '/' || (special && c == '\\')

/-- Whether a character is a slash or a backslash. -/
def isAnySlash (c : Char) : Bool :=
  isSlash true c

/-! ## Query and fragment -/

/-- What is escaped in a query. -/
def queryEscapes (special : Bool) : Char → Bool :=
  if special then Escape.inWebQuery else Escape.inQuery

/-- The URL with the fragment that a text has after its mark. -/
def withFragment (u : Url) (cs : List Char) : Url :=
  { u with fragment := some (Escape.text Escape.inFragment cs) }

/-- The URL with the query and the fragment that stand after the path. -/
def withEnd (u : Url) (cs : List Char) : Url :=
  match cs with
  | '?' :: rest =>
    let query := rest.takeWhile (· != '#')
    let u := { u with query := some (Escape.text (queryEscapes u.kind.isSpecial) query) }
    match rest.drop query.length with
    | '#' :: fragment => u.withFragment fragment
    | _ => u
  | '#' :: fragment => u.withFragment fragment
  | _ => u

/-! ## The path -/

/-- A segment with its escaped points resolved. -/
def plainDots : List Char → List Char
  | '%' :: '2' :: c :: rest =>
    if c = 'e' ∨ c = 'E' then '.' :: plainDots rest else '%' :: '2' :: plainDots (c :: rest)
  | c :: rest => c :: plainDots rest
  | [] => []

/-- Whether a segment names a drive: a letter and a colon or a bar. -/
def isDrive : List Char → Bool
  | [letter, mark] => letter.isAlpha && (mark = ':' || mark = '|')
  | _ => false

/-- A path without its last segment. Nothing is above a drive. -/
def goUp (path : List (List Char)) : List (List Char) :=
  if path.getLast?.any isDrive then path else path.dropLast

/-- A path with one more segment. A point stays where it is and two points go up; at the end of a
path both leave an empty segment. -/
def pushSegment (path : List (List Char)) (segment : List Char) (isLast : Bool) :
    List (List Char) :=
  if plainDots segment = ['.', '.'] then
    if isLast then goUp path ++ [[]] else goUp path
  else if plainDots segment = ['.'] then
    if isLast then path ++ [[]] else path
  else path ++ [segment]

/-- An ordinary segment is added at the end of a path. -/
theorem pushSegment_eq_append {path : List (List Char)} {segment : List Char}
    (h : plainDots segment ≠ ['.', '.']) (h' : plainDots segment ≠ ['.']) (isLast : Bool) :
    pushSegment path segment isLast = path ++ [segment] := by
  simp [pushSegment, h, h']

/-- A path with more segments. -/
def pushSegments (path : List (List Char)) : List (List Char) → List (List Char)
  | [] => path
  | [segment] => pushSegment path segment true
  | segment :: next :: rest => pushSegments (pushSegment path segment false) (next :: rest)

/-- The path that goes on from another one with the segments of a text, and what follows it. -/
def readPath (special : Bool) (path : List (List Char)) (cs : List Char) :
    List (List Char) × List Char :=
  let text := cs.takeWhile fun c => c != '?' && c != '#'
  let segments := (text.splitOnP (isSlash special)).map (Escape.text Escape.inPath)
  (pushSegments path segments, cs.drop text.length)

/-- The text without one slash before it. -/
def dropSlash (special : Bool) : List Char → List Char
  | c :: rest => if isSlash special c then rest else c :: rest
  | [] => []

/-- The URL with its path, query and fragment, which follow the host. Where a path may be empty,
it is so only if nothing of it is there. -/
def withPath (u : Url) (cs : List Char) : Url :=
  let special := u.kind.isSpecial
  if !special && cs.head?.all (fun c => c == '?' || c == '#') then u.withEnd cs
  else
    let (path, rest) := readPath special [] (dropSlash special cs)
    { u with path := .segments path }.withEnd rest

/-! ## User, host and port -/

/-- The text before the last at sign and the text after it. -/
def splitUser? (cs : List Char) : Option (List Char × List Char) :=
  let host := (cs.reverse.takeWhile (· != '@')).reverse
  if host.length < cs.length then some (cs.take (cs.length - host.length - 1), host) else none

/-- The name and the password of a user. An empty password does not count. -/
def readUser (cs : List Char) : List Char × Option (List Char) :=
  let name := cs.takeWhile (· != ':')
  let escaped := Escape.text Escape.inUser
  match cs.drop (name.length + 1) with
  | [] => (escaped name, none)
  | password => (escaped name, some (escaped password))

/-- The text of a host and what follows it. Colons in brackets belong to the host. -/
def splitHost (special inBrackets : Bool) : List Char → List Char × List Char
  | [] => ([], [])
  | c :: rest =>
    if endsAuthority special c || (c == ':' && !inBrackets) then ([], c :: rest)
    else
      let inside := if c == '[' then true else if c == ']' then false else inBrackets
      let (host, rest) := splitHost special inside rest
      (c :: host, rest)

/-- The port after its colon, and what follows it. -/
def readPort (usual : Option Nat) (cs : List Char) :
    Except UrlFault (Option Nat × List Char) :=
  let digits := cs.takeWhile Char.isDigit
  let rest := cs.drop digits.length
  let port := digits.foldl (fun acc c => acc * 10 + (c.toNat - 48)) 0
  if rest.head?.any (!endsAuthority true ·) then .error .badPort
  else if 65535 < port then .error .badPort
  else if digits = [] ∨ some port = usual then .ok (none, rest)
  else .ok (some port, rest)

/-- Whether a character may not stand in a host of a URL that is no web address. -/
def isForbiddenInHost (c : Char) : Bool :=
  ['\x00', ' ', '#', '/', ':', '<', '>', '?', '@', '[', '\\', ']', '^', '|'].contains c

/-- The host of a URL that is no web address. -/
def otherHost (cs : List Char) : Except UrlFault (List Char) :=
  if cs.head? = some '[' then Host.ofText cs
  else if cs.any isForbiddenInHost then .error .badCharacter
  else .ok (Escape.text Escape.isOutside cs)

/-- The host of a URL with a given kind of scheme. -/
def readHost (kind : SchemeKind) (cs : List Char) : Except UrlFault (List Char) :=
  match kind with
  | .other => otherHost cs
  | _ => Host.ofText cs

/-- The host, the port and what follows them. -/
def readHostAndPort (kind : SchemeKind) (cs : List Char) :
    Except UrlFault (List Char × Option Nat × List Char) := do
  let (text, rest) := splitHost kind.isSpecial false cs
  let host ← readHost kind text
  match rest with
  | ':' :: digits =>
    if host = [] then .error .emptyHost
    else
      let (port, rest) ← readPort kind.port? digits
      .ok (host, port, rest)
  | rest => .ok (host, none, rest)

/-- What follows the two slashes before a host. -/
def readAuthority (scheme cs : List Char) : Except UrlFault Url := do
  let kind := SchemeKind.of scheme
  let authority := cs.takeWhile (!endsAuthority kind.isSpecial ·)
  let afterAuthority := cs.drop authority.length
  let (user, hostAndPort) := (splitUser? authority).getD ([], authority)
  if user = [] ∧ hostAndPort ≠ authority ∧ hostAndPort = [] ∧ afterAuthority ≠ [] then
    .error .emptyHost
  else
    let (name, password) := readUser user
    let (host, port, rest) ← readHostAndPort kind (hostAndPort ++ afterAuthority)
    if host = [] ∧ (name ≠ [] ∨ password.isSome) then .error .emptyHost
    else .ok (withPath ⟨scheme, name, password, some host, port, .segments [], none, none⟩ rest)

/-! ## Files -/

/-- A path without the empty segments at its start. -/
def dropEmptySegments (path : List (List Char)) : List (List Char) :=
  match path.dropWhile (· = []) with
  | [] => [[]]
  | parts => parts

/-- The URL of a file on a host. -/
def fileOn (host cs : List Char) : Url :=
  let (path, rest) := readPath true [] (dropSlash true cs)
  withEnd ⟨"file".toList, [], none, some host, none, .segments (dropEmptySegments path), none,
    none⟩ rest

/-- What follows the scheme of a file. The local host is no host. -/
def readFile (cs : List Char) : Except UrlFault Url :=
  match cs with
  | a :: b :: rest =>
    if isAnySlash a && isAnySlash b then
      let name := rest.takeWhile (!endsAuthority true ·)
      let rest := rest.drop name.length
      if name = [] then .ok (fileOn [] rest)
      else match Host.ofText name with
        | .error f => .error f
        | .ok host => .ok (fileOn (if host = "localhost".toList then [] else host) rest)
    else .ok (fileOn [] cs)
  | cs => .ok (fileOn [] cs)

/-! ## The whole -/

/-- What follows a scheme. -/
def readScheme (scheme cs : List Char) : Except UrlFault Url :=
  match SchemeKind.of scheme with
  | .file => readFile cs
  | .web _ => readAuthority scheme (cs.dropWhile isAnySlash)
  | .other =>
    let bare : Url := ⟨scheme, [], none, none, none, .segments [], none, none⟩
    match cs with
    | '/' :: '/' :: rest => readAuthority scheme rest
    | '/' :: rest =>
      let (path, rest) := readPath false [] rest
      .ok ({ bare with path := .segments path }.withEnd rest)
    | cs =>
      let text := cs.takeWhile fun c => c != '?' && c != '#'
      .ok ({ bare with path := .plain (Escape.text Escape.isOutside text) }.withEnd
        (cs.drop text.length))

/-- The URL of a text that stands for itself. -/
def ofText (text : String) : Except UrlFault Url :=
  match splitScheme? (clean text.toList) with
  | some (scheme, rest) => readScheme scheme rest
  | none => .error .noBase

/-- The URL of a text without a scheme, relative to the web address `base`. -/
def readRelative (base : Url) (parts : List (List Char)) (cs : List Char) :
    Except UrlFault Url :=
  let special := base.kind.isSpecial
  let bare := { base with query := none, fragment := none }
  match cs with
  | [] => .ok base.withoutFragment
  | '?' :: _ => .ok (bare.withEnd cs)
  | '#' :: fragment => .ok (base.withFragment fragment)
  | '/' :: '/' :: rest => readAuthority base.scheme rest
  | c :: rest =>
    let (start, text) := if isAnySlash c then ([], rest) else (parts.dropLast, cs)
    if isAnySlash c && rest.head?.any isAnySlash then
      readAuthority base.scheme (rest.dropWhile isAnySlash)
    else
      let (path, rest) := readPath special start text
      .ok ({ bare with path := .segments path }.withEnd rest)

/-- The URL of a text that may be relative to the web address `base`. -/
def join (base : Url) (text : List Char) : Except UrlFault Url :=
  let cs := clean text
  match base.path with
  | .plain _ => .error .noBase
  | .segments parts =>
    match splitScheme? cs with
    | none => readRelative base parts cs
    | some (scheme, rest) =>
      if scheme = base.scheme ∧ base.kind.isSpecial ∧
          (rest.takeWhile isAnySlash).length < 2 then
        readRelative base parts rest
      else readScheme scheme rest

end RegistryConsole.Url
