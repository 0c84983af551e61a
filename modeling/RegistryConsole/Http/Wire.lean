import RegistryConsole.Http.Network
import RegistryConsole.Http.Target

/-! # Messages on a connection

The form in which requests and answers go over a connection: a first line, a line for each field,
an empty line, and a body whose end the header tells. -/

namespace RegistryConsole.Wire

/-- What reading at the start of some octets comes to. -/
inductive Reading (α : Type) where
  | done (value : α) (rest : Bytes)
  /-- The octets are the start of something that has not come yet. -/
  | more
  | malformed

/-! ## Lines -/

/-- The line end. -/
def lineEnd : Bytes := [0x0D, 0x0A]

/-- A line without the carriage return at its end. -/
def withoutReturn (line : Bytes) : Bytes :=
  if line.getLast? = some 0x0D then line.dropLast else line

/-- The first line and what follows it. -/
def splitLine? (b : Bytes) : Option (Bytes × Bytes) :=
  let line := b.takeWhile (· != 0x0A)
  match b.drop line.length with
  | _ :: rest => some (withoutReturn line, rest)
  | [] => none

theorem length_of_splitLine? {b line rest : Bytes} (h : splitLine? b = some (line, rest)) :
    rest.length < b.length := by
  simp only [splitLine?] at h
  split at h
  · next x tail hd =>
    have hl := congrArg List.length hd
    simp only [List.length_drop, List.length_cons] at hl
    simp only [Option.some.injEq, Prod.mk.injEq] at h
    have := h.2 ▸ hl
    omega
  · simp at h

/-- The lines up to an empty one, and what follows it. Empty lines at the start do not count. -/
def splitHead? (b : Bytes) (lines : List Bytes) : Option (List Bytes × Bytes) :=
  match h : splitLine? b with
  | none => none
  | some (line, rest) =>
    have := length_of_splitLine? h
    if line ≠ [] then splitHead? rest (lines ++ [line])
    else if lines = [] then splitHead? rest []
    else some (lines, rest)
termination_by b.length

theorem length_of_splitHead? {b rest : Bytes} {lines head : List Bytes}
    (h : splitHead? b lines = some (head, rest)) : rest.length < b.length := by
  fun_induction splitHead? b lines with
  | case1 => exact absurd h nofun
  | case2 lines b line next hsplit hlt hline ih => exact Nat.lt_trans (ih h) hlt
  | case3 b line next hsplit hlt hline ih => exact Nat.lt_trans (ih h) hlt
  | case4 lines b line next hsplit hlt hline hlines =>
    obtain ⟨-, rfl⟩ := Prod.mk.inj (Option.some.inj h)
    exact hlt

/-- Octets without blanks around them. -/
def trim (b : Bytes) : Bytes :=
  let isBlank (x : UInt8) : Bool := x == 0x20 || x == 0x09
  ((b.dropWhile isBlank).reverse.dropWhile isBlank).reverse

/-- The field in a line. -/
def field? (line : Bytes) : Option HeaderField :=
  let name := line.takeWhile (· != 0x3A)
  match line.drop name.length with
  | [] => none
  | _ :: value =>
    let value := trim value
    match HeaderField.nameOf? name with
    | none => none
    | some name => if HeaderField.isValue value then some ⟨name, value, false⟩ else none

/-! ## Bodies -/

/-- How a header tells where the body ends. -/
inductive Framing where
  | length (n : Nat)
  | chunked
  /-- The body goes on to the end of the connection. -/
  | untilEnd
  deriving DecidableEq

/-- The number that a length field spells. -/
def length? (b : Bytes) : Option Nat :=
  if b ≠ [] ∧ b.all (fun x => 0x30 ≤ x.toNat && x.toNat ≤ 0x39) then
    some (b.foldl (fun acc x => acc * 10 + (x.toNat - 0x30)) 0)
  else none

/-- The framing that a header tells, if it tells one and does not contradict itself. -/
def framing? (headers : Headers) : Option (Option Framing) :=
  match headers.values "transfer-encoding", headers.values "content-length" with
  | [], [] => some none
  | [], first :: others =>
    if others.all (· == first) then (length? first).map fun n => some (.length n) else none
  | codings, _ =>
    if (codings.getLastD []).map lowerOctet = Utf8.ofString "chunked" then some (some .chunked)
    else none

/-- The size of a chunk. What follows a semicolon does not count. -/
def chunkSize? (line : Bytes) : Option Nat :=
  let digits := trim (line.takeWhile (· != 0x3B))
  if digits = [] ∨ 16 < digits.length then none
  else digits.foldl (fun acc b =>
    acc.bind fun n => (Escape.hexValue? b).map fun d => n * 16 + d) (some 0)

/-- Skips lines up to an empty one. -/
def skipTrailer (b : Bytes) : Reading Unit :=
  match h : splitLine? b with
  | none => .more
  | some (line, rest) =>
    have := length_of_splitLine? h
    if line = [] then .done () rest else skipTrailer rest
termination_by b.length

/-- The body that chunks make up. -/
def readChunks (b : Bytes) : Reading Bytes :=
  match h : splitLine? b with
  | none => .more
  | some (line, rest) =>
    have := length_of_splitLine? h
    match chunkSize? line with
    | none => .malformed
    | some 0 =>
      match skipTrailer rest with
      | .done _ rest => .done [] rest
      | .more => .more
      | .malformed => .malformed
    | some (n + 1) =>
      match (rest.drop (n + 1)).take 2 with
      | [0x0D, 0x0A] =>
        match readChunks (rest.drop (n + 3)) with
        | .done body after => .done (rest.take (n + 1) ++ body) after
        | .more => .more
        | .malformed => .malformed
      | [_, _] => .malformed
      | _ => .more
termination_by b.length
decreasing_by
  simp only [List.length_drop]
  omega

/-- The body of a framing that does not go on to the end. -/
def readBody (framing : Framing) (b : Bytes) : Reading Bytes :=
  match framing with
  | .length n => if b.length < n then .more else .done (b.take n) (b.drop n)
  | .chunked => readChunks b
  | .untilEnd => .more

/-- A body as one chunk and the end. A body that breaks off has no end. -/
def chunks (body : Bytes) (complete : Bool) : Bytes :=
  let last := if complete then Utf8.ofString "0\r\n\r\n" else []
  if body = [] then last
  else Utf8.encode (Nat.toDigits 16 body.length) ++ lineEnd ++ body ++ lineEnd ++ last

/-! ## Requests -/

/-- A request as it is read off a connection. -/
structure ServerRequest where
  method : Method
  target : RequestTarget
  headers : Headers
  body : Bytes
  /-- Whether it is of the first version, which knows neither chunks nor lasting connections. -/
  isFirst : Bool

namespace ServerRequest

/-- Whether the connection ends with the answer. -/
def ends (r : ServerRequest) : Bool :=
  let wishes := (r.headers.values "connection").map fun v => v.map lowerOctet
  if r.isFirst then !wishes.contains (Utf8.ofString "keep-alive")
  else wishes.contains (Utf8.ofString "close")

end ServerRequest

/-- Whether a version is the first one, if it is one of the two. -/
def isFirst? (version : Bytes) : Option Bool :=
  if version = Utf8.ofString "HTTP/1.1" then some false
  else if version = Utf8.ofString "HTTP/1.0" then some true
  else none

/-- The method, the target and the version in a line. -/
def requestLine? (line : Bytes) : Option (Method × RequestTarget × Bool) :=
  match line.splitOnP (· == 0x20) with
  | [method, target, version] =>
    match Method.ofBytes? method, RequestTarget.ofBytes? target, isFirst? version with
    | some m, .ok t, some v => some (m, t, v)
    | _, _, _ => none
  | _ => none

/-- The request at the start of some octets. -/
def readRequest (b : Bytes) : Reading ServerRequest :=
  match splitHead? b [] with
  | none => .more
  | some ([], _) => .malformed
  | some (first :: lines, rest) =>
    match requestLine? first, lines.mapM field? with
    | some (method, target, isFirst), some headers =>
      match framing? headers with
      | none => .malformed
      | some framing =>
        match readBody (framing.getD (.length 0)) rest with
        | .done body rest => .done ⟨method, target, headers, body, isFirst⟩ rest
        | .more => .more
        | .malformed => .malformed
    | _, _ => .malformed

/-- A field as a line. -/
def fieldLine (f : HeaderField) : Bytes :=
  Utf8.ofString f.name ++ Utf8.ofString ": " ++ f.value ++ lineEnd

/-- The octets of a request. -/
def requestBytes (w : WireRequest) : Bytes :=
  w.method.token ++ 0x20 :: Utf8.encode w.target ++ Utf8.ofString " HTTP/1.1\r\n" ++
    w.headers.flatMap fieldLine ++ lineEnd ++ w.body

/-! ## Answers -/

/-- The status in a line. Its code has three digits, and the first one is not zero. -/
def statusLine? (line : Bytes) : Option Status :=
  match line.splitOnP (· == 0x20) with
  | version :: code :: _ =>
    if (isFirst? version).isSome ∧ code.length = 3 ∧ code.head? ≠ some 0x30 then
      (length? code).map Status.mk
    else none
  | _ => none

/-- The answer to a request with the method `method`, at the start of some octets. Answers that
announce another one are passed over. When the connection has ended, a body that has not come to its
end breaks off. -/
def readResponse (method : Method) (ended : Bool) (b : Bytes) : Reading Response :=
  match h : splitHead? b [] with
  | none => if ended then .malformed else .more
  | some ([], _) => .malformed
  | some (first :: lines, rest) =>
    have := length_of_splitHead? h
    match statusLine? first, lines.mapM field? with
    | some status, some headers =>
      if status.code < 200 ∧ status.code ≠ 101 then readResponse method ended rest else
      let answer (body : Bytes) (complete : Bool) (rest : Bytes) : Reading Response :=
        .done ⟨status, headers, .streamed body complete⟩ rest
      if Response.IsBare method status then answer [] true rest
      else match framing? headers with
        | none => .malformed
        | some framing =>
          match readBody (framing.getD .untilEnd) rest with
          | .done body rest => answer body true rest
          | .malformed => answer rest false []
          | .more =>
            if ended then answer rest (framing.isNone || framing = some .untilEnd) [] else .more
    | _, _ => .malformed
termination_by b.length

/-- The first line of an answer. -/
def statusLine (s : Status) : Bytes :=
  let phrase := match Status.phrases.find? fun p => p.1 == s.code with
    | some p => p.2
    | none => "<none>"
  Utf8.ofString ("HTTP/1.1 " ++ toString s.code ++ " " ++ phrase ++ "\r\n")

/-- The answer to what is no request. -/
def refusal : Bytes :=
  statusLine ⟨400⟩ ++ Utf8.ofString "connection: close\r\ncontent-length: 0\r\n\r\n"

/-- The octets of the answer to a request. A body without a length in the header is sent in
chunks, where those are known. -/
def responseBytes (request : ServerRequest) (r : Response) : Bytes :=
  let isBare := decide (Response.IsBare request.method r.status)
  let inChunks := !isBare && !r.headers.has "content-length" && !request.isFirst
  let framed := if inChunks then
    r.headers.put ⟨"transfer-encoding", Utf8.ofString "chunked", false⟩ else r.headers
  let headers := if request.ends && !request.isFirst then
    framed.putAbsent "connection" (Utf8.ofString "close") else framed
  let body := r.body.received
  statusLine r.status ++ headers.flatMap fieldLine ++ lineEnd ++
    if isBare then [] else if inChunks then chunks body r.body.whole?.isSome else body

end RegistryConsole.Wire
