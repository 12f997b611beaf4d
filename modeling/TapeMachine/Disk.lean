import TapeMachine.Fault
import TapeMachine.Text.Parts

/-! Files and directories.

A disk knows the working directory and what stands at each place. A path is walked from left to
right; every place but the last has to be a directory. -/
namespace TapeMachine

/-- A place: the names from the root down. -/
abbrev Place := List String

inductive Entry
  | file (content : List UInt8)
  | directory
  deriving DecidableEq, Repr

structure Disk where
  workingDirectory : Place := []
  entries : List (Place × Entry) := []
  deriving DecidableEq, Repr

namespace Disk

def entry? (d : Disk) (place : Place) : Option Entry := d.entries.lookup place

/-- What stands at a place. A directory stands wherever something stands below. -/
def find? (d : Disk) (place : Place) : Option Entry :=
  match d.entry? place with
  | some entry => some entry
  | none =>
    if place.isPrefixOf d.workingDirectory || d.entries.any (fun (p, _) => place.isPrefixOf p) then
      some .directory
    else none

/-- The names that a path is made of. -/
def names (path : String) : List String :=
  ((Text.parts '/' path.toList).map String.ofList).filter (· != "")

/-- The most bytes that a name can have. -/
def nameLimit : Nat := 255

/-- The most bytes that a path can have. -/
def pathLimit : Nat := 4095

/-- Where a path leads to, starting at a place. The last place need not exist. -/
def walk (d : Disk) : Place → List String → Except FileProblem Place
  | place, [] => .ok place
  | place, name :: rest =>
    match d.find? place with
    | none => .error .missing
    | some (.file _) => .error .notDirectory
    | some .directory =>
      if name = "." then d.walk place rest
      else if name = ".." then d.walk place.dropLast rest
      else if nameLimit < name.utf8ByteSize then .error .nameTooLong
      else d.walk (place ++ [name]) rest

def locate (d : Disk) (path : String) : Except FileProblem Place :=
  if path.toList.contains '\x00' then .error .invalidPath
  else if path = "" then .error .missing
  else if pathLimit < path.utf8ByteSize then .error .nameTooLong
  else if path.startsWith "/" then d.walk [] (names path)
  else d.walk d.workingDirectory (names path)

/-- Whether a path can only name a directory. -/
def namesDirectory (path : String) : Bool := path.endsWith "/"

/-- The content of the file at a path. -/
def read (d : Disk) (path : String) : Except Fault (List UInt8) :=
  match d.locate path with
  | .error problem => .error (.file "open" path problem)
  | .ok place =>
    match d.find? place with
    | none => .error (.file "open" path .missing)
    | some .directory => .error (.file "read" path .isDirectory)
    | some (.file content) =>
      if namesDirectory path then .error (.file "open" path .notDirectory) else .ok content

/-- Sets what stands at a place. -/
def put (d : Disk) (place : Place) (entry : Entry) : Disk :=
  { d with entries := (place, entry) :: d.entries.filter fun (p, _) => p != place }

/-- The place of the file that a path names for writing; the file need not exist. -/
def target (d : Disk) (path : String) : Except Fault Place :=
  match d.locate path with
  | .error problem => .error (.file "open" path problem)
  | .ok place =>
    match d.find? place with
    | some .directory => .error (.file "open" path .isDirectory)
    | some (.file _) =>
      if namesDirectory path then .error (.file "open" path .notDirectory) else .ok place
    | none => if namesDirectory path then .error (.file "open" path .isDirectory) else .ok place

/-- Gives the file at a path a new content. -/
def write (d : Disk) (path : String) (content : List UInt8) : Except Fault Disk :=
  (d.target path).map fun place => d.put place (.file content)

/-- Adds to the end of the file at a path, which is made if it does not exist. -/
def append (d : Disk) (path : String) (content : List UInt8) : Except Fault Disk :=
  (d.target path).map fun place =>
    match d.entry? place with
    | some (.file old) => d.put place (.file (old ++ content))
    | _ => d.put place (.file content)

end Disk
end TapeMachine
