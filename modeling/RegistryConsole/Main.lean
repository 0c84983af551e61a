import RegistryConsole.Console.Connection
import RegistryConsole.Console.Startup
import Std.Async.DNS
import Std.Async.Signal
import Std.Async.TCP

/-! # The program

Runs the console: takes the surroundings from the machine, listens, answers what comes in, and
stops when it is interrupted. What is answered and logged is decided elsewhere; here it is only
carried between the machine and the console. Connections are plain ones, and bodies in a coding
are not undone. -/

namespace RegistryConsole.Program

open Std.Async Std.Net

/-! ## Files -/

/-- The text of a place. -/
def pathOf (place : List String) : String :=
  "/" ++ String.intercalate "/" place

/-- The place of a path that starts at a working directory. -/
def placeOf (workingDir : List String) (path : String) : List String :=
  (path.splitOn "/").foldl (fun place name =>
    if name = "" ∨ name = "." then place
    else if name = ".." then place.dropLast
    else place ++ [name]) (FileStore.start workingDir path)

/-- The node at a place of the machine. -/
def nodeAt (place : List String) : IO (Option FileNode) := do
  try
    let info ← (← IO.FS.realPath (pathOf place)).metadata
    match info.type with
    | .dir => return some .directory
    | _ => return some (.file (← IO.FS.readBinFile (pathOf place)).toList)
  catch _ => return none

/-- The store with the node at a place. -/
def withNode (files : FileStore) (place : List String) : IO FileStore := do
  match ← nodeAt place with
  | some node => return files.put place node
  | none => return files

/-- The store with what is on the way to a place. -/
def withPlace (files : FileStore) (place : List String) : IO FileStore :=
  (List.range (place.length + 1)).foldlM (fun files n => withNode files (place.take n)) files

/-- The store with all that is below a place. -/
partial def withTree (files : FileStore) (place : List String) : IO FileStore := do
  let files ← withNode files place
  if files.isDirectory place then
    let entries ← (← IO.FS.realPath (pathOf place)).readDir
    entries.toList.foldlM (fun files entry => withTree files (place ++ [entry.fileName])) files
  else return files

/-- When the files of a store were last changed. -/
def changes (files : FileStore) : IO (List (List String × HttpDate)) :=
  files.nodes.filterMapM fun (place, _) => do
    try
      let info ← (← IO.FS.realPath (pathOf place)).metadata
      return some (place, ⟨info.modified.sec.toNat⟩)
    catch _ => return none

/-- The files of a site as they are now. -/
def siteAt (place : List String) : IO Site := do
  let files ← withTree .empty place
  let dates ← changes files
  return ⟨files, place, fun p => (dates.find? fun d => d.1 == p).map (·.2)⟩

/-- Makes what is in a store and not yet there. -/
def makeNew (old new : FileStore) : IO Unit := do
  for (place, node) in new.nodes do
    if (old.node? place).isNone then
      match node with
      | .directory => IO.FS.createDirAll (pathOf place)
      | .file content => IO.FS.writeBinFile (pathOf place) ⟨content.toArray⟩

/-! ## Surroundings -/

/-- The variables that the console asks for. -/
def variableNames : List String :=
  [Settings.keyIdVariable, Settings.keyVariable, Settings.urlVariable, Settings.fileVariable,
    Settings.addressVariable, Settings.portVariable, Settings.lanVariable,
    LogSettings.variableName, Startup.filterVariable]

/-- The values of the variables. -/
def environment : IO Environment := do
  let pairs ← variableNames.filterMapM fun name => do
    return (← IO.getEnv name).map fun value => (name, value)
  return fun name => (pairs.find? fun p => p.1 == name).map (·.2)

/-- The seconds since the start of 1970. -/
def clock : IO Int64 := do
  return Int64.ofInt (← Std.Time.Timestamp.now).toSecondsSinceUnixEpoch.val

/-- What the console finds; whether an address can be listened at is left open. -/
def surroundings (machine : Machine) : IO Surroundings := do
  let env ← environment
  let workingDir := placeOf [] (← IO.currentDir).toString
  let paths := [env Settings.fileVariable, (LogSettings.ofEnvironment env).directory].filterMap id
  let date := (← Std.Time.PlainDate.now).format "uuuu-MM-dd"
  let siteDir := pathOf (workingDir ++ ["web"])
  let files ← (workingDir :: paths.map (placeOf workingDir)).foldlM withPlace .empty
  return { env, files, workingDir, siteDir, date, machine }

/-! ## Connections -/

/-- The address of an endpoint. -/
def socketAddress (address : HostAddress) (port : Nat) : SocketAddress :=
  let octet (n k : Nat) : UInt8 := UInt8.ofNat (n / Nat.pow 256 k)
  match address with
  | .ipv4 n =>
    .v4 ⟨.ofParts (octet n 3) (octet n 2) (octet n 1) (octet n 0), UInt16.ofNat port⟩
  | .ipv6 parts =>
    let part (k : Nat) : UInt16 := UInt16.ofNat (parts.getD k 0)
    .v6 ⟨.ofParts (part 0) (part 1) (part 2) (part 3) (part 4) (part 5) (part 6) (part 7),
      UInt16.ofNat port⟩

/-- The address of a host, asking for names. -/
def lookUp (origin : Origin) : Async SocketAddress := do
  let name := String.ofList origin.host
  match HostAddress.ofName? name with
  | some address => return socketAddress address origin.port
  | none =>
    match (← DNS.getAddrInfo name (toString origin.port)).toList with
    | .v4 addr :: _ => return .v4 ⟨addr, UInt16.ofNat origin.port⟩
    | .v6 addr :: _ => return .v6 ⟨addr, UInt16.ofNat origin.port⟩
    | [] => throw (IO.userError "no address")

/-- How many octets are read at a time. -/
def window : UInt64 := 65536

/-- Reads an answer. -/
partial def receive (socket : TCP.Socket.Client) (method : Method) (got : Bytes) :
    Async (Option Response) := do
  let next ← socket.recv? window
  let got := got ++ (next.getD .empty).toList
  match Wire.readResponse method next.isNone got with
  | .done r _ => return some r
  | .malformed => return none
  | .more => receive socket method got

/-- Sends a request and reads the answer. -/
def exchange (w : WireRequest) : Async (Option Response) := do
  if w.isSecure then return none
  try
    let socket ← TCP.Socket.Client.mk
    socket.connect (← lookUp w.origin)
    socket.send ⟨(Wire.requestBytes w).toArray⟩
    receive socket w.method []
  catch _ => return none

/-- Answers that are known, and the first request whose answer is not. -/
structure Replay where
  known : List (Option Response)
  asked : Option WireRequest

/-- A network of known answers. -/
def replay : Network Replay where
  deliver w s :=
    match s.known with
    | answer :: known => (answer, { s with known })
    | [] => (none, { s with asked := s.asked.or (some w) })
  undo _ _ := none

/-- Runs a computation over the network: over the answers known so far, and again with one more
as long as it asks for one. -/
partial def overNetwork {α : Type} (run : Replay → α × Replay) (known : List (Option Response)) :
    Async α := do
  let (result, s) := run ⟨known, none⟩
  match s.asked with
  | none => return result
  | some w => overNetwork run (known ++ [← exchange w])

/-- Answers the requests of a connection, one after the other. -/
partial def serve (console : Console) (siteDir : List String) (tell : List LogEvent → IO Unit)
    (socket : TCP.Socket.Client) (got : Bytes) : Async Unit := do
  match Wire.readRequest got with
  | .malformed =>
    socket.send ⟨Wire.refusal.toArray⟩
    socket.shutdown
  | .done r rest =>
    let site ← if Route.of r.target.path = .site then siteAt siteDir else pure console.site
    let console := { console with site }
    let now ← clock
    let (response, events) ← overNetwork (console.answer replay now r.inbound) []
    tell events
    socket.send ⟨(Wire.responseBytes r response).toArray⟩
    if r.ends || response.body.whole?.isNone then socket.shutdown
    else serve console siteDir tell socket rest
  | .more =>
    match ← socket.recv? window with
    | some next => serve console siteDir tell socket (got ++ next.toList)
    | none => return ()

/-- Takes connections until the program ends. -/
partial def accept (server : TCP.Socket.Server) (handle : TCP.Socket.Client → Async Unit) :
    Async Unit := do
  let socket ← server.accept
  background (handle socket)
  accept server handle

/-! ## The run -/

/-- A socket that listens where the settings say, and its port, if the machine lets it. -/
def listen (settings : ServerSettings) : IO (Option (TCP.Socket.Server × Nat)) := do
  match HostAddress.ofName? settings.address with
  | none => return none
  | some address =>
    try
      let server ← TCP.Socket.Server.mk
      server.bind (socketAddress address settings.port.toNat)
      server.listen 1024
      return some (server, (← server.getSockName).port.toNat)
    catch _ => return none

/-- Runs the console until it is interrupted, and gives the exit code. -/
def run : IO UInt32 := do
  let w ← surroundings ⟨fun _ => false, 0⟩
  let settings := (Settings.load w.siteDir (w.files.readText w.workingDir) w.env).1
  let server ← listen settings.server
  let machine : Machine := ⟨fun _ => server.isSome, (server.map (·.2)).getD 0⟩
  let w := { w with machine }
  let r := Startup.run w
  makeNew w.files r.files
  let tell (events : List LogEvent) : IO Unit := do
    (Startup.lines w events).forM IO.println
    (← IO.getStdout).flush
  tell r.opening
  r.problems.forM IO.eprintln
  match server with
  | none => return UInt32.ofNat r.exitCode
  | some (socket, _) =>
    let console : Console :=
      { gateway := .ofSettings settings.registry
        maxBody := settings.server.maxBody.toNat
        site := { files := .empty, root := [] } }
    let siteDir := placeOf w.workingDir settings.server.siteDir
    let interrupted ← (← Signal.Waiter.mk .sigint false).wait
    discard (accept socket (serve console siteDir tell · [])).asTask
    discard interrupted.block
    tell r.closing
    return UInt32.ofNat r.exitCode

end RegistryConsole.Program

/-- The entry of the program. -/
def main : IO UInt32 :=
  RegistryConsole.Program.run
