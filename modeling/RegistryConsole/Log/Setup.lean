import RegistryConsole.FileStore
import RegistryConsole.Log.Filter
import RegistryConsole.Text.Quoted

/-! # Setting up the log

Events go to the console, and also to a file of the day where a directory for it is given and can
be written. -/

namespace RegistryConsole

/-- Where the log goes besides the console. -/
structure LogSettings where
  directory : Option String
  deriving DecidableEq

/-- What setting up the log leaves: the files, the first event, and what went wrong. -/
structure LogStart where
  files : FileStore
  event : LogEvent
  problem : Option String

namespace LogSettings

/-- The environment variable that names the directory. -/
def variableName : String := "OBJECT_REGISTRY_UI_LOG_DIR"

/-- The settings of an environment. White space around the name does not count. -/
def ofEnvironment (env : String → Option String) : LogSettings :=
  match (env variableName).map trimBlank with
  | some name => if name = "" then ⟨none⟩ else ⟨some name⟩
  | none => ⟨none⟩

/-- The name of the log file of a day. -/
def fileName (date : String) : String :=
  "object-registry-ui.log." ++ date

/-- Makes the directory if nothing is there. -/
def prepare (files : FileStore) (workingDir : List String) (dir : String) :
    Except FileFault FileStore :=
  match files.resolve workingDir dir with
  | .ok _ => .ok files
  | .error _ => files.makeDirectories workingDir dir

/-- Checks that the directory can be written, by writing a file and removing it again, and starts
the file of the day. -/
def openFile (files : FileStore) (workingDir : List String) (dir date : String) :
    Except FileFault FileStore := do
  let place ← files.resolve workingDir dir
  let probed ← files.writeInto place ".write_test" (Utf8.ofString "ok")
  let cleared := probed.remove (place ++ [".write_test"])
  match cleared.node? (place ++ [fileName date]) with
  | some (.file _) => .ok cleared
  | _ => cleared.writeInto place (fileName date) []

/-- Where the events of the log itself come from. -/
def target : String := "object_registry_ui::modules::logger"

/-- Sets up the log on a given day. -/
def start (settings : LogSettings) (files : FileStore) (workingDir : List String)
    (date : String) : LogStart :=
  let toConsole (files : FileStore) (problem : Option String) : LogStart :=
    ⟨files, ⟨.info, target, "logging initialized (console)", []⟩, problem⟩
  match settings.directory with
  | none => toConsole files none
  | some dir =>
    match prepare files workingDir dir with
    | .error f =>
      toConsole files (some ("Failed to create log directory " ++ dir ++ ": " ++ f.message))
    | .ok made =>
      match openFile made workingDir dir date with
      | .error _ => toConsole made (some ("Log directory " ++ dir ++ " is not writable"))
      | .ok opened =>
        ⟨opened, ⟨.info, target, "logging initialized (console + file)",
          [("dir", "Some(" ++ quoted dir ++ ")")]⟩, none⟩

end LogSettings

end RegistryConsole
