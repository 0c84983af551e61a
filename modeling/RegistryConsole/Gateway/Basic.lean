import RegistryConsole.Settings.Load

/-! # The gateway

What stands between the console's users and the registry: the address of the registry and what
issues the tokens for it. -/

namespace RegistryConsole

/-- The way to the registry. -/
structure Gateway where
  apiUrl : String
  issuer : Issuer

namespace Gateway

/-- The gateway of the settings. -/
def ofSettings (s : RegistrySettings) : Gateway :=
  ⟨RegistrySettings.trimSlashes s.apiUrl, .ofKey s.signing⟩

/-- The address of a path in the registry, with a query unless it is empty. Path and query are
joined as they are. -/
def targetUrl (g : Gateway) (path : String) (query : Option String) : String :=
  let base := g.apiUrl ++ "/" ++ path
  match query with
  | some q => if q = "" then base else base ++ "?" ++ q
  | none => base

end Gateway

end RegistryConsole
