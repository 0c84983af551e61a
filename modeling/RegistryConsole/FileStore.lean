import RegistryConsole.Text.Utf8

/-! # Files

The files that the console reads and writes, as a store of nodes by path, with the rules by which
a path text leads to a node. -/

namespace RegistryConsole

/-- What is at a path. -/
inductive FileNode where
  | file (content : Bytes)
  | directory
  deriving DecidableEq

/-- The nodes of a file system by the names that lead to them. The root is always there. -/
structure FileStore where
  nodes : List (List String × FileNode)

/-- Why a file cannot be had. -/
inductive FileFault where
  | missing
  | exists
  | notDirectory
  | isDirectory
  | nameTooLong
  | nulInName
  | notText
  deriving DecidableEq

/-- The text of a fault. -/
def FileFault.message : FileFault → String
  | .missing => "No such file or directory (os error 2)"
  | .exists => "File exists (os error 17)"
  | .notDirectory => "Not a directory (os error 20)"
  | .isDirectory => "Is a directory (os error 21)"
  | .nameTooLong => "File name too long (os error 36)"
  | .nulInName => "file name contained an unexpected NUL byte"
  | .notText => "stream did not contain valid UTF-8"

namespace FileStore

/-- The store with nothing but the root. -/
def empty : FileStore := ⟨[]⟩

/-- The node at a place. -/
def node? (s : FileStore) (place : List String) : Option FileNode :=
  if place = [] then some .directory
  else (s.nodes.find? fun n => n.1 == place).map (·.2)

/-- Whether there is a directory at a place. -/
def isDirectory (s : FileStore) (place : List String) : Bool :=
  s.node? place == some .directory

/-- The store with a node put at a place. -/
def put (s : FileStore) (place : List String) (node : FileNode) : FileStore :=
  ⟨(s.nodes.filter fun n => n.1 != place) ++ [(place, node)]⟩

/-- The store without the node at a place. -/
def remove (s : FileStore) (place : List String) : FileStore :=
  ⟨s.nodes.filter fun n => n.1 != place⟩

/-- The greatest length of a name in octets. -/
def maxName : Nat := 255

/-- The greatest length of a path in octets. -/
def maxPath : Nat := 4095

/-- Goes from a place along names. Every name but the last must lead to a directory; a name that
is empty or a point stays, two points go up. -/
def walk (s : FileStore) : (place : List String) → (names : List String) →
    Except FileFault (List String)
  | place, [] => .ok place
  | place, name :: names =>
    match s.node? place with
    | none => .error .missing
    | some (.file _) => .error .notDirectory
    | some .directory =>
      if name = "" ∨ name = "." then walk s place names
      else if name = ".." then walk s place.dropLast names
      else if maxName < name.utf8ByteSize then .error .nameTooLong
      else if (s.node? (place ++ [name])).isNone then .error .missing
      else walk s (place ++ [name]) names

/-- Where a path starts: at the root, or at the working directory. -/
def start (workingDir : List String) (path : String) : List String :=
  if path.startsWith "/" then [] else workingDir

/-- Checks what no path may be. -/
def checkPath (path : String) : Except FileFault Unit :=
  if path.toList.contains '\x00' then .error .nulInName
  else if path = "" then .error .missing
  else if maxPath < path.utf8ByteSize then .error .nameTooLong
  else .ok ()

/-- The place that a path leads to. -/
def resolve (s : FileStore) (workingDir : List String) (path : String) :
    Except FileFault (List String) :=
  match checkPath path with
  | .error f => .error f
  | .ok () => s.walk (start workingDir path) (path.splitOn "/")

/-- The content of a file. -/
def read (s : FileStore) (workingDir : List String) (path : String) : Except FileFault Bytes :=
  match s.resolve workingDir path with
  | .error f => .error f
  | .ok place =>
    match s.node? place with
    | none => .error .missing
    | some .directory => .error .isDirectory
    | some (.file content) => .ok content

/-- The text of a file. -/
def readText (s : FileStore) (workingDir : List String) (path : String) :
    Except FileFault String :=
  match s.read workingDir path with
  | .error f => .error f
  | .ok content =>
    match Utf8.toString? content with
    | some text => .ok text
    | none => .error .notText

/-- Goes from a place along names and makes the directories that are missing. -/
def makeAlong : (s : FileStore) → (place : List String) → (names : List String) →
    Except FileFault FileStore
  | s, place, [] => if s.isDirectory place then .ok s else .error .exists
  | s, place, name :: names =>
    if s.isDirectory place then
      if name = "" ∨ name = "." then makeAlong s place names
      else if name = ".." then makeAlong s place.dropLast names
      else if maxName < name.utf8ByteSize then .error .nameTooLong
      else if (s.node? (place ++ [name])).isSome then makeAlong s (place ++ [name]) names
      else makeAlong (s.put (place ++ [name]) .directory) (place ++ [name]) names
    else .error .notDirectory

/-- Makes a directory with all directories that lead to it. -/
def makeDirectories (s : FileStore) (workingDir : List String) (path : String) :
    Except FileFault FileStore :=
  match checkPath path with
  | .error f => .error f
  | .ok () => s.makeAlong (start workingDir path) (path.splitOn "/")

/-- Writes a file into a directory, unless a directory has its name. -/
def writeInto (s : FileStore) (directory : List String) (name : String) (content : Bytes) :
    Except FileFault FileStore :=
  let place := directory ++ [name]
  match s.node? directory with
  | none => .error .missing
  | some (.file _) => .error .notDirectory
  | some .directory =>
    if s.isDirectory place then .error .isDirectory else .ok (s.put place (.file content))

end FileStore

end RegistryConsole
