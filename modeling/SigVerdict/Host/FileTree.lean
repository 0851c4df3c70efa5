import SigVerdict.Host.FilePath
import SigVerdict.Host.SystemFault

set_option autoImplicit false

/-! # File trees

What a path leads to, and a tree of files in which paths are looked up. A path is followed name
by name from the root or from a working directory; every name but the last has to lead to a
directory. -/

namespace SigVerdict

/-- What a path leads to. -/
inductive Found where
  /-- Nothing is there. -/
  | absent (cause : SystemFault)
  /-- Something is there that cannot be read as a file. -/
  | unreadable (cause : SystemFault)
  | content (octets : List UInt8)
  deriving DecidableEq, Repr

/-- Whether a path leads anywhere. -/
def Found.isThere : Found → Bool
  | .absent _ => false
  | _ => true

/-- The octets of a file. -/
def Found.read : Found → Except SystemFault (List UInt8)
  | .absent cause | .unreadable cause => .error cause
  | .content octets => .ok octets

/-- The names from the root to a place. -/
abbrev Place := List (List UInt8)

/-- A tree of files: its files with what they hold, and its directories. A place above one that
    is listed is a directory too. -/
structure FileTree where
  files : List (Place × List UInt8)
  directories : List Place
  deriving Repr

namespace FileTree

/-- Whether a place is a directory. -/
def hasDirectory (t : FileTree) (place : Place) : Bool :=
  place.isEmpty || t.directories.any place.isPrefixOf ||
    t.files.any fun (file, _) => place.isPrefixOf file && place != file

/-- What is at a place. -/
def get (t : FileTree) (place : Place) : Found :=
  match t.files.find? fun (file, _) => file == place with
  | some (_, octets) => .content octets
  | none => if t.hasDirectory place then .unreadable .isADirectory else .absent .noSuchFile

/-- The most octets of one name. -/
def longestName : Nat := 255

/-- The most octets of a path. -/
def longestPath : Nat := 4095

/-- Follow names from a place. -/
def follow (t : FileTree) : Place → List (List UInt8) → Found
  | place, [] => t.get place
  | place, name :: rest =>
    match t.get place with
    | .absent cause => .absent cause
    | .content _ => .absent .notADirectory
    | .unreadable _ =>
      if name.isEmpty || name == FilePath.here then t.follow place rest
      else if name == FilePath.above then t.follow place.dropLast rest
      else if longestName < name.length then .absent .nameTooLong
      else t.follow (place ++ [name]) rest

/-- Look up a path from a working directory. -/
def look (t : FileTree) (working : Place) (path : FilePath) : Found :=
  if path.octets.contains 0 then .absent .nulInName
  else if path.octets.isEmpty then .absent .noSuchFile
  else if longestPath < path.octets.length then .absent .nameTooLong
  else t.follow (if path.isAbsolute then [] else working) path.names

end FileTree

end SigVerdict
