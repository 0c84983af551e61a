import RegistryConsole.FileStore
import RegistryConsole.Http.Date
import RegistryConsole.Http.Message
import RegistryConsole.Http.Range
import RegistryConsole.Http.Target
import RegistryConsole.Url.Escape

/-! # The static site

The files that make up the console's pages, served from one directory. A directory stands for the
index page in it, and no path leads out of the site. -/

namespace RegistryConsole

/-- A directory of files to be served. -/
structure Site where
  files : FileStore
  root : List String
  /-- When the file at a place was last changed, if that is known. -/
  changed : List String → Option HttpDate := fun _ => none

namespace Site

/-! ## Names and types -/

/-- The media types by the ends of file names. -/
def types : List (String × String) :=
  [("html", "text/html"), ("htm", "text/html"), ("js", "text/javascript"),
    ("mjs", "text/javascript"), ("css", "text/css"), ("json", "application/json"),
    ("txt", "text/plain"), ("csv", "text/csv"), ("xml", "text/xml"), ("png", "image/png"),
    ("jpg", "image/jpeg"), ("jpeg", "image/jpeg"), ("gif", "image/gif"),
    ("webp", "image/webp"), ("svg", "image/svg+xml"), ("ico", "image/x-icon"),
    ("pdf", "application/pdf"), ("wasm", "application/wasm")]

/-- What stands after the last point of a file name, in lower case. A name has no such end if
nothing stands before the point. -/
def extension (name : String) : String :=
  let cs := name.toList
  let tail := (cs.reverse.takeWhile (· != '.')).reverse
  if tail.length + 1 < cs.length then String.ofList (tail.map Char.toLower) else ""

/-- The media type of a file name. -/
def typeOf (name : String) : String :=
  match types.find? fun t => t.1 == extension name with
  | some t => t.2
  | none => "application/octet-stream"

/-- The names that a path leads along inside the site, with its escapes resolved. There are none
if the path would start anew or go up. -/
def names? (path : String) : Option (List String) :=
  let inside := path.toList.dropWhile (· == '/')
  match Utf8.decode? (Escape.decode (Utf8.encode inside)) with
  | none => none
  | some cs =>
    let names := ((cs.splitOnP (· == '/')).map String.ofList).filter fun n => n ≠ "" && n ≠ "."
    if cs.head? = some '/' ∨ names.contains ".." then none else some names

/-! ## Answers -/

/-- An answer with nothing in it. -/
def bare (status : Status) (headers : Headers := []) : Response :=
  ⟨status, headers, .empty⟩

/-- The answer to methods that do not read. -/
def notAllowed : Response :=
  bare .methodNotAllowed [⟨"allow", Utf8.ofString "GET,HEAD", false⟩]

/-- The answer that sends to the same directory with a slash after its name. -/
def withSlash (target : RequestTarget) : Response :=
  let query := match target.query with
    | some q => "?" ++ q
    | none => ""
  bare .temporaryRedirect
    [⟨"location", Utf8.ofString (target.lead ++ target.path ++ "/" ++ query), false⟩]

/-- A field with a number of octets. -/
def lengthField (n : Nat) : HeaderField :=
  ⟨"content-length", Utf8.ofString (toString n), false⟩

/-- A field that says which octets of how many are sent. -/
def rangeField (range : String) (size : Nat) : HeaderField :=
  ⟨"content-range", Utf8.ofString ("bytes " ++ range ++ "/" ++ toString size), false⟩

/-- The date that a request gives in a field, if it can be read. -/
def dateValue? (headers : Headers) (name : String) : Option HttpDate :=
  (headers.first? name).bind fun v => HttpDate.ofText? (Bytes.toLatin v)

/-- What is answered instead of a file that was last changed at `changed`, if the conditions of
the request are not met: that it has not been changed since a date, or that it has. A file whose
last change is not known counts as changed. -/
def withheld? (changed : Option HttpDate) (headers : Headers) : Option Status :=
  let isChangedSince (date : HttpDate) : Bool := changed.all fun c => date.seconds < c.seconds
  if (dateValue? headers "if-unmodified-since").any isChangedSince then
    some .preconditionFailed
  else if (dateValue? headers "if-modified-since").any (!isChangedSince ·) then
    some .notModified
  else none

/-- The range that a request asks for, if it can be read. -/
def rangeValue? (headers : Headers) : Option Bytes :=
  (headers.first? "range").filter fun v =>
    v.all fun b => b.toNat == 0x09 || (0x20 ≤ b.toNat && b.toNat < 0x7F)

/-- The octets that are sent, if octets are asked for and not only their number. -/
def sent (method : Method) (content : Bytes) : MessageBody :=
  .sized (if method = .head then [] else content)

/-- The fields that every answer with a file has. -/
def fileFields (name : String) (changed : Option HttpDate) : Headers :=
  [⟨"content-type", Utf8.ofString (typeOf name), false⟩,
    ⟨"accept-ranges", Utf8.ofString "bytes", false⟩] ++
    (changed.map fun date => ⟨"last-modified", Utf8.ofString date.text, false⟩).toList

/-- The answer with a file, or with the part of it that is asked for. -/
def file (common : Headers) (content : Bytes) (method : Method) (range : Option Bytes) :
    Response :=
  let size := content.length
  match range with
  | none => ⟨.ok, common ++ [lengthField size], sent method content⟩
  | some value =>
    match ByteRange.requested? size value with
    | none => bare .rangeNotSatisfiable (common ++ [rangeField "*" size])
    | some [(first, last)] =>
      ⟨.partialContent,
        common ++ [rangeField (toString first ++ "-" ++ toString last) size,
          lengthField (last - first + 1)],
        sent method ((content.drop first).take (last - first + 1))⟩
    | some _ =>
      ⟨.rangeNotSatisfiable, common ++ [rangeField "*" size],
        .sized (Utf8.ofString "Cannot serve multipart range requests")⟩

/-- The answer when a file cannot be had. -/
def unavailable : FileFault → Response
  | .missing | .notDirectory => bare .notFound
  | _ => bare .internalError

/-- The place that names lead to inside the site. -/
def locate (site : Site) (names : List String) : Except FileFault (List String) :=
  if names.any fun n => n.toList.contains '\x00' then .error .nulInName
  else
    let length := (site.root ++ names).foldl (fun length n => length + n.utf8ByteSize + 1) 0
    if FileStore.maxPath < length then .error .nameTooLong
    else site.files.walk site.root names

/-- The answer with the content of the file at a place, if the conditions of the request are
met. -/
def fileAt (site : Site) (place : List String) (content : Bytes) (method : Method)
    (headers : Headers) : Response :=
  let changed := site.changed place
  match withheld? changed headers with
  | some status => bare status
  | none => file (fileFields (place.getLastD "") changed) content method (rangeValue? headers)

/-- The answer with what names lead to inside the site. -/
def serve (site : Site) (names : List String) (method : Method) (target : RequestTarget)
    (headers : Headers) : Response :=
  match site.locate names with
  | .error f => unavailable f
  | .ok place =>
    match site.files.node? place with
    | none => unavailable .missing
    | some (.file content) => site.fileAt place content method headers
    | some .directory =>
      if target.path.endsWith "/" then
        let index := place ++ ["index.html"]
        match site.files.node? index with
        | some (.file content) => site.fileAt index content method headers
        | _ => unavailable .missing
      else withSlash target

/-- The answer to a request. -/
def answer (site : Site) (method : Method) (target : RequestTarget) (headers : Headers) :
    Response :=
  if method = .get ∨ method = .head then
    match names? target.path with
    | none => unavailable .missing
    | some names => site.serve names method target headers
  else notAllowed

end Site

end RegistryConsole
