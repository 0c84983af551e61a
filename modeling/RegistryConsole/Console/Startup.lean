import RegistryConsole.Console.Listener
import RegistryConsole.Gateway.Basic
import RegistryConsole.Log.Setup

/-! # Starting and stopping

A run of the console: it sets up its log, loads its settings, starts to listen, and stops when it
is told to. What it says on the way goes to its standard output, as far as the log filter lets
it through. -/

namespace RegistryConsole

/-- What the console finds where it is started. -/
structure Surroundings where
  env : Environment
  files : FileStore
  workingDir : List String
  /-- The directory of the site that comes with the console. -/
  siteDir : String
  /-- The day, as log files are named. -/
  date : String
  machine : Machine

/-- What a run leaves. -/
structure Run where
  exitCode : Nat
  /-- What happens until the console listens, or cannot. -/
  opening : List LogEvent
  /-- What happens when it is told to stop. -/
  closing : List LogEvent
  problems : List String
  files : FileStore

namespace Startup

/-- The variable that asks for a log filter. -/
def filterVariable : String := "RUST_LOG"

/-- Where the events of a run come from. -/
def target : String := "object_registry_ui"

/-- Where the events of the listener come from. -/
def serverTarget : String := "object_registry_ui::proxy::server"

/-- The events that tell how the registry will be called. -/
def gatewayEvents (g : Gateway) : List LogEvent :=
  let signing : List LogEvent := match g.issuer.signer with
    | .error f =>
      [⟨.warn, target,
        "registry calls will fail until signing is configured: " ++ f.message, []⟩]
    | .ok s => [⟨.info, target, "signing registry tokens with key id " ++ s.keyId, []⟩]
  signing ++ [⟨.info, target, "registry API at " ++ g.apiUrl, []⟩]

/-- The events that tell where the console listens. -/
def listenEvents (e : Endpoint) : List LogEvent :=
  [⟨.info, serverTarget, "Object registry UI started at http://" ++ e.text, []⟩,
    ⟨.info, target, "object registry UI listening on http://" ++ e.text, []⟩]

/-- The events that tell that the console stops. -/
def stopEvents : List LogEvent :=
  [⟨.info, target, "shutdown requested, stopping server...", []⟩,
    ⟨.info, serverTarget, "Object registry UI stopped listening", []⟩]

/-- A run of the console that is stopped once it listens. -/
def run (w : Surroundings) : Run :=
  let log := (LogSettings.ofEnvironment w.env).start w.files w.workingDir w.date
  let (settings, settingsEvents) :=
    Settings.load w.siteDir (log.files.readText w.workingDir) w.env
  let before := log.event :: settingsEvents ++ gatewayEvents (.ofSettings settings.registry)
  let logProblems := match log.problem with
    | some text => [text ++ ", logging to console only"]
    | none => []
  match w.machine.listen settings.server with
  | .ok endpoint => ⟨0, before ++ listenEvents endpoint, stopEvents, logProblems, log.files⟩
  | .error f =>
    ⟨1, before, [],
      logProblems ++ ["Error: " ++ quoted ("failed to start UI server: " ++ f.message)], log.files⟩

/-- The lines of events on standard output. -/
def lines (w : Surroundings) (events : List LogEvent) : List String :=
  let filter := LogFilter.ofRequest (w.env filterVariable)
  (events.filter filter.shows).map (·.line)

end Startup

end RegistryConsole
