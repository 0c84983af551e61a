import RegistryConsole.FileStore
import RegistryConsole.Log.Event
import RegistryConsole.Settings.Server
import RegistryConsole.Text.Blank
import RegistryConsole.Token

/-! # Loading the settings

The settings come from defaults, a file and environment variables, the later over the earlier. A
variable that is blank counts as unset. -/

namespace RegistryConsole

/-- The values of environment variables. -/
abbrev Environment := String → Option String

/-- How the registry is reached: its address and the key for its tokens. -/
structure RegistrySettings where
  apiUrl : String
  signing : Option SigningKey
  deriving DecidableEq

namespace RegistrySettings

/-- A text without the slashes at its end. -/
def trimSlashes (s : String) : String :=
  String.ofList ((s.toList.reverse.dropWhile (· == '/')).reverse)

/-- The settings for an address and a key. The address is kept without slashes at its end. -/
def of (apiUrl : String) (signing : Option SigningKey) : RegistrySettings :=
  ⟨trimSlashes apiUrl, signing⟩

/-- The address of the registry where none is given. -/
def defaultUrl : String := "http://localhost:8000"

/-- The settings where nothing is said. -/
def default : RegistrySettings := of defaultUrl none

end RegistrySettings

/-- All settings of the console. -/
structure Settings where
  registry : RegistrySettings
  server : ServerSettings
  deriving DecidableEq

/-- Why a settings file gives no settings. -/
inductive SettingsFault where
  | unreadable (path : String) (fault : FileFault)
  | invalid (path : String) (text : Bytes) (fault : Json.Fault)

/-- The text of a fault in a settings file. -/
def SettingsFault.message : SettingsFault → String
  | .unreadable path f => "Failed to read config file " ++ path ++ ": " ++ f.message
  | .invalid path text f => "Failed to parse config file " ++ path ++ ": " ++ f.message text

namespace ServerSettings

/-- The settings in a file. -/
def ofFile (siteDir path : String) (content : Except FileFault String) :
    Except SettingsFault ServerSettings :=
  match content with
  | .error f => .error (.unreadable path f)
  | .ok text =>
    match (layout siteDir).codec.ofBytes? (Utf8.ofString text) with
    | .error f => .error (.invalid path (Utf8.ofString text) f)
    | .ok s => .ok s

/-- Whether a text says yes. -/
def saysYes (s : String) : Bool :=
  let lower := s.toList.map Char.toLower
  lower == ['1'] || lower == ['t', 'r', 'u', 'e'] || lower == ['y', 'e', 's'] ||
    lower == ['o', 'n']

/-- The port that a text names: decimal digits, perhaps with a plus sign before them. -/
def port? (s : String) : Option UInt16 :=
  let digits := match s.toList with
    | '+' :: rest => rest
    | cs => cs
  if digits ≠ [] ∧ digits.all Char.isDigit then
    let n := digits.foldl (fun acc c => acc * 10 + (c.toNat - 48)) 0
    if n < 65536 then some (UInt16.ofNat n) else none
  else none

/-- The settings with access from the local network, if the variable for it says so. -/
def withLan (s : ServerSettings) (value : Option String) : ServerSettings :=
  match value with
  | some v => if saysYes v then { s with allowLan := true } else s
  | none => s

/-- The settings with the address to listen on, if one is given. An address other than the local
host's means access from the local network. -/
def withAddress (s : ServerSettings) (value : Option String) : ServerSettings :=
  match value with
  | some a =>
    { s with
      bindAddress := some a
      allowLan := s.allowLan || (a ≠ "127.0.0.1" && a ≠ "localhost") }
  | none => s

/-- The settings with the port, if one is given that is a port. -/
def withPort (s : ServerSettings) (value : Option String) : ServerSettings :=
  match value.bind port? with
  | some p => { s with port := p }
  | none => s

end ServerSettings

/-- The text of a key with real line ends. A key in one line writes them as a backslash and an
`n`. -/
def unescapeLines : List Char → List Char
  | '\\' :: 'n' :: rest => '\n' :: unescapeLines rest
  | c :: rest => c :: unescapeLines rest
  | [] => []

/-- The text of a key: as it is when it has line ends, otherwise with its written ones resolved. -/
def normalizePem (s : String) : String :=
  if s.toList.contains '\n' then s else String.ofList (unescapeLines s.toList)

namespace Settings

/-- The variable for the name of the signing key. -/
def keyIdVariable : String := "OBJECT_REGISTRY_KEY_ID"

/-- The variable for the text of the signing key. -/
def keyVariable : String := "OBJECT_REGISTRY_PRIVATE_KEY"

/-- The variable for the address of the registry. -/
def urlVariable : String := "OBJECT_REGISTRY_API_URL"

/-- The variable for the settings file. -/
def fileVariable : String := "OBJECT_REGISTRY_UI_CONFIG"

/-- The variable for the address to listen on. -/
def addressVariable : String := "OBJECT_REGISTRY_UI_BIND"

/-- The variable for the port. -/
def portVariable : String := "OBJECT_REGISTRY_UI_PORT"

/-- The variable for access from the local network. -/
def lanVariable : String := "OBJECT_REGISTRY_UI_ALLOW_LAN"

/-- The value of a variable, unless it is blank. -/
def value? (env : Environment) (name : String) : Option String :=
  (env name).filter fun v => !allBlank v

/-- Where the events of loading the settings come from. -/
def target : String := "object_registry_ui::modules::config"

/-- The settings file, or the defaults with a warning. -/
def ofFile (siteDir : String) (readFile : String → Except FileFault String)
    (path : Option String) : ServerSettings × List LogEvent :=
  match path with
  | none => (.default siteDir, [])
  | some path =>
    match ServerSettings.ofFile siteDir path (readFile path) with
    | .ok s => (s, [])
    | .error f =>
      (.default siteDir,
        [⟨.warn, target, "failed to load server config: " ++ f.message ++ ". using defaults", []⟩])

/-- The warning about a port that is none. -/
def portWarnings (value : Option String) : List LogEvent :=
  match value with
  | none => []
  | some v =>
    if (ServerSettings.port? v).isSome then []
    else [⟨.warn, target, "ignoring invalid " ++ portVariable, [("value", v)]⟩]

/-- The signing key, if both its name and its text are given. -/
def signingKey (keyId pem : Option String) : Option SigningKey :=
  match keyId, pem with
  | some keyId, some pem => some ⟨keyId, normalizePem pem⟩
  | _, _ => none

/-- The settings of an environment, and what is to be logged about them. -/
def load (siteDir : String) (readFile : String → Except FileFault String) (env : Environment) :
    Settings × List LogEvent :=
  let value (name : String) := value? env name
  let (base, fileEvents) := ofFile siteDir readFile (value fileVariable)
  let server :=
    ((base.withLan (value lanVariable)).withAddress (value addressVariable)).withPort
      (value portVariable)
  let signing := signingKey (value keyIdVariable) (value keyVariable)
  let apiUrl := (value urlVariable).getD RegistrySettings.defaultUrl
  (⟨.of apiUrl signing, server⟩, fileEvents ++ portWarnings (value portVariable))

end Settings

end RegistryConsole
