import RegistryConsole.Json.Record

/-! # Server settings

Where the console listens, how much it takes in, and which files it serves. -/

namespace RegistryConsole

open Json

/-- The settings of the listener. -/
structure ServerSettings where
  port : UInt16
  allowLan : Bool
  bindAddress : Option String
  maxBody : UInt64
  siteDir : String
  deriving DecidableEq

namespace ServerSettings

/-- The settings where nothing is said; `siteDir` is the directory that comes with the console. -/
def default (siteDir : String) : ServerSettings where
  port := 3000
  allowLan := false
  bindAddress := none
  maxBody := 104857600
  siteDir := siteDir

/-- The address to listen on: the one given, or else the local host or every address. -/
def address (s : ServerSettings) : String :=
  match s.bindAddress with
  | some a => a
  | none => if s.allowLan then "0.0.0.0" else "127.0.0.1"

/-- The wire form of the settings. -/
def layout (siteDir : String) : Layout ServerSettings where
  title := "ServerConfig"
  members :=
    [.defaulted "port" .nat16 3000, .defaulted "allow_lan_access" .bool false,
      .defaulted "bind_address" (.optional .string) none,
      .defaulted "max_body_bytes" (.nat64 "usize") 104857600,
      .defaulted "static_dir" .path siteDir]
  build v := ⟨v.1, v.2.1, v.2.2.1, v.2.2.2.1, v.2.2.2.2.1⟩
  parts s := (s.port, s.allowLan, s.bindAddress, s.maxBody, s.siteDir, PUnit.unit)

end ServerSettings

end RegistryConsole
