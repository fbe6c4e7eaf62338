/-
# BorderSync.Settings.Files -- files by path

A small store of files below one directory, read by absolute path. A path that goes on below a file,
a path that names a directory and a path that leads nowhere each fail in their own way.
-/
import BorderSync.Error
import BorderSync.Text.Blank

namespace BorderSync

/-- What a name in a directory stands for. -/
inductive FileNode where
  | file (content : List UInt8)
  | directory
  deriving DecidableEq, Repr

/-- **File store**: a directory, what it holds, and the directory where other paths begin. -/
structure FileStore where
  root : List String
  entries : List (String × FileNode)
  current : List String := ["work"]
  deriving Repr

namespace FileStore

/-- The steps of a path, as they stand between slashes. -/
def steps (path : String) : List String :=
  (Text.splitOnChar '/' path.toList).map String.ofList

/-- What stands at a place. -/
def nodeAt? (s : FileStore) (place : List String) : Option FileNode :=
  if place.isPrefixOf s.root then some .directory
  else s.entries.findSome? fun e => if s.root ++ [e.1] = place then some e.2 else none

/-- The longest name of a file, in octets. -/
def longestName : Nat := 255

/-- The longest path, in octets. -/
def longestPath : Nat := 4095

/-- Walk from a place. Empty steps and dots stay, two dots lead up. -/
def walk (s : FileStore) : (place : List String) → (rest : List String) →
    Except OsFault (List UInt8)
  | _, [] => .error .isADirectory
  | place, step :: rest =>
    if step = "" ∨ step = "." then walk s place rest
    else if step = ".." then walk s place.dropLast rest
    else if longestName < step.utf8ByteSize then .error .nameTooLong
    else
      match s.nodeAt? (place ++ [step]) with
      | none => .error .noSuchFile
      | some .directory => walk s (place ++ [step]) rest
      | some (.file content) => if rest.isEmpty then .ok content else .error .notADirectory

/-- **Read a file.** -/
def read (s : FileStore) (path : String) : Except OsFault (List UInt8) :=
  if path.toList.contains '\x00' then .error .nulInName
  else if path = "" then .error .noSuchFile
  else if longestPath < path.utf8ByteSize then .error .nameTooLong
  else s.walk (if path.startsWith "/" then [] else s.current) (steps path)

end FileStore

end BorderSync
