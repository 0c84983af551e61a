import RegistryConsole.Json.Codec

/-! # Tables of strings

A table gives each of its names one string. It is written and compared in the order of the
names, so that equal tables have equal texts. -/

namespace RegistryConsole.Json

/-- Strings by name. -/
structure Table where
  entries : List (String × String)
  inOrder : InOrder entries

namespace Table

instance : DecidableEq Table := fun a b =>
  decidable_of_iff (a.entries = b.entries)
    ⟨fun h => by cases a; cases b; simpa using h, fun h => h ▸ rfl⟩

/-- The table of a list of entries; of two with one name the last counts. -/
def ofList (entries : List (String × String)) : Table :=
  ⟨sortMembers entries, inOrder_sortMembers entries⟩

/-- The table without entries. -/
def empty : Table := ofList []

end Table

namespace Codec

/-- A table of strings. -/
def table : Codec Table where
  read levels c :=
    match readToken c, levels with
    | .error f, _ => .error f
    | .ok (.openObject, c), 0 => c.faultNext .tooDeep
    | .ok (.openObject, c), levels + 1 =>
      (readMembers (string.read levels) (c.rest.length + 1) true c.next).map fun (entries, c) =>
        (Table.ofList entries, c)
    | .ok (token, c), _ => wrongKind "a map" token c
  write t := .object (t.entries.map fun e => (e.1, .string e.2))

end Codec

end RegistryConsole.Json
