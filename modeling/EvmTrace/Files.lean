import EvmTrace.Bytes

/-!
# Files

The files that a recorder may meet: its working directory, the directories above it, and the
directory for temporary files. A path is followed name by name through directories, and the first
name that leads nowhere decides the error; only its last name may lead to a file, or to none yet.
-/
namespace EvmTrace

inductive FileError
  | missing | notDirectory | isDirectory | nameTooLong | nulInName
  deriving DecidableEq, Repr

def FileError.message : FileError → String
  | missing => "No such file or directory (os error 2)"
  | notDirectory => "Not a directory (os error 20)"
  | isDirectory => "Is a directory (os error 21)"
  | nameTooLong => "File name too long (os error 36)"
  | nulInName => "file name contained an unexpected NUL byte"

/-- Where the names of a location are counted from. -/
inductive Origin
  /-- So many levels above the working directory, which is itself at level 0. -/
  | above (levels : Nat)
  | root
  deriving DecidableEq, Repr

structure Location where
  origin : Origin
  names : List String
  deriving DecidableEq, Repr

namespace Location

def working : Location := ⟨.above 0, []⟩

def root : Location := ⟨.root, []⟩

def child (l : Location) (name : String) : Location := { l with names := l.names ++ [name] }

/-- The root is its own parent. -/
def parent (l : Location) : Location :=
  match l.names, l.origin with
  | [], .above n => ⟨.above (n + 1), []⟩
  | [], .root => root
  | names, origin => ⟨origin, names.dropLast⟩

/-- Besides the origins of locations only the directory for temporary files exists. -/
def isDirectory (l : Location) : Bool := l.names.isEmpty || l = root.child "tmp"

theorem parent_child (l : Location) (name : String) : (l.child name).parent = l := by
  obtain ⟨origin, names⟩ := l
  cases names with
  | nil => simp [child, parent]
  | cons first rest =>
    have h : (first :: rest ++ [name]).dropLast = first :: rest := List.dropLast_concat
    simpa [child, parent] using h

end Location

/-- A path taken apart at its slashes. -/
structure Path where
  start : Location
  /-- The names on the way, all of which must be directories. -/
  way : List String
  /-- Absent in the path of the root alone. -/
  last : Option String
  /-- A slash at the end makes the last name one of a directory. -/
  endsInSlash : Bool
  deriving DecidableEq, Repr

namespace Path

def lengthLimit : Nat := 4095

def ofText (s : String) : Except FileError Path :=
  if s.contains '\x00' then .error .nulInName
  else if s.isEmpty then .error .missing
  else if lengthLimit < s.utf8ByteSize then .error .nameTooLong
  else
    let names := (s.splitOn "/").filter (· ≠ "")
    .ok ⟨if s.startsWith "/" then .root else .working, names.dropLast, names.getLast?,
      s.endsWith "/"⟩

end Path

/-- The content of every file. -/
structure Files where
  contents : List (Location × Bytes)
  deriving DecidableEq, Repr

/-- What the last name of a path leads to. -/
inductive Place
  | directory
  | file (at_ : Location) (content : Bytes)
  /-- Nothing yet, but a file can be put there. -/
  | vacant (at_ : Location)
  deriving DecidableEq, Repr

namespace Files

def nameLimit : Nat := 255

def content? (files : Files) (at_ : Location) : Option Bytes := files.contents.lookup at_

/-- What a name leads to in a directory. -/
def look (files : Files) (here : Location) (name : String) : Except FileError Place :=
  if name = "." ∨ name = ".." then .ok .directory
  else if nameLimit < name.utf8ByteSize then .error .nameTooLong
  else
    let there := here.child name
    if there.isDirectory then .ok .directory
    else match files.content? there with
      | some content => .ok (.file there content)
      | none => .ok (.vacant there)

/-- Goes from a directory to the one of a name in it. -/
def enter (files : Files) (here : Location) (name : String) : Except FileError Location := do
  match ← files.look here name with
  | .directory =>
    return if name = "." then here else if name = ".." then here.parent else here.child name
  | .file .. => throw .notDirectory
  | .vacant _ => throw .missing

/-- The directory that the way of a path leads to. -/
def follow (files : Files) (p : Path) : Except FileError Location :=
  p.way.foldlM files.enter p.start

/-- Opens a path for reading and gives the content, none of a directory. -/
def open? (files : Files) (path : String) : Except FileError (Option Bytes) := do
  let p ← Path.ofText path
  let here ← files.follow p
  match p.last with
  | none => return none
  | some name =>
    match ← files.look here name with
    | .directory => return none
    | .file _ content => if p.endsInSlash then throw .notDirectory else return some content
    | .vacant _ => throw .missing

/-- A directory can be opened, but not read. -/
def read (files : Files) (path : String) : Except FileError Bytes := do
  match ← files.open? path with
  | some content => return content
  | none => throw .isDirectory

/-- Puts a content at a location, in place of what was there. -/
def put (files : Files) (at_ : Location) (content : Bytes) : Files :=
  ⟨(at_, content) :: files.contents.filter (·.1 ≠ at_)⟩

/-- The location that a path is about to write to, and its content so far. A path that ends in a
slash is one of a directory, whether there is such a directory or not. -/
def openToWrite (files : Files) (path : String) : Except FileError (Location × Bytes) := do
  let p ← Path.ofText path
  let here ← files.follow p
  match p.last with
  | none => throw .isDirectory
  | some name =>
    if p.endsInSlash then throw .isDirectory
    match ← files.look here name with
    | .directory => throw .isDirectory
    | .file there content => return (there, content)
    | .vacant there => return (there, [])

/-- Makes an empty file, or empties the one that is there. -/
def create (files : Files) (path : String) : Except FileError Files := do
  let (there, _) ← files.openToWrite path
  return files.put there []

/-- Adds to the end of a file, which is made if need be. -/
def append (files : Files) (path : String) (b : Bytes) : Except FileError Files := do
  let (there, before) ← files.openToWrite path
  return files.put there (before ++ b)

theorem content?_put (files : Files) (at_ : Location) (b : Bytes) :
    (files.put at_ b).content? at_ = some b := by
  simp [put, content?]

end Files
end EvmTrace
