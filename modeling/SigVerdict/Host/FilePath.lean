import SigVerdict.Text.Utf8

set_option autoImplicit false

/-! # File paths

A path is a row of octets, in which slashes part the names. Two paths are the same by components
when they name the same steps: repeated slashes, a slash at the end and inner steps that stay
where they are make no difference. -/

namespace SigVerdict

open Text

/-- Where a file is. -/
structure FilePath where
  octets : List UInt8
  deriving DecidableEq, Repr

namespace FilePath

/-- The octet that parts the names of a path. -/
def slash : UInt8 := 0x2F

/-- The octet that parts the name of a file from its extension. -/
def dot : UInt8 := 0x2E

/-- The name for the directory itself. -/
def here : List UInt8 := [dot]

/-- The name for the directory above. -/
def above : List UInt8 := [dot, dot]

/-- The path of a text. -/
def ofText (s : String) : FilePath := ⟨Utf8.encode s.toList⟩

/-- A path as it is shown. -/
def display (p : FilePath) : String := String.ofList (Utf8.decodeLossy p.octets)

/-- Whether a path starts at the root. -/
def isAbsolute (p : FilePath) : Bool := p.octets.head? == some slash

/-- What stands between the slashes of a path, with the empty names. -/
def names (p : FilePath) : List (List UInt8) := p.octets.splitOn slash

/-- The steps of a path. The directory itself is a step at the start of a relative path only. -/
def components (p : FilePath) : List (List UInt8) :=
  let names := p.names.filter fun name => !name.isEmpty
  match names with
  | [] => []
  | first :: rest =>
    let rest := rest.filter (· != here)
    if first == here && p.isAbsolute then rest else first :: rest

/-- Whether two paths have the same steps from the same start. -/
def sameAs (p q : FilePath) : Bool := p.isAbsolute == q.isAbsolute && p.components == q.components

/-- The name of the file that a path ends with. -/
def fileName? (p : FilePath) : Option (List UInt8) :=
  match p.components.getLast? with
  | some name => if name == above || name == here then none else some name
  | none => none

/-- What stands behind the last dot of a file's name, unless the dot is the first octet. -/
def extensionOf? (name : List UInt8) : Option (List UInt8) :=
  let behind := (name.reverse.takeWhile (· != dot)).reverse
  let stem := name.length - behind.length - 1
  if behind.length < name.length && 0 < stem then some behind else none

/-- The extension of a path; one that is no text counts as none. -/
def extension (p : FilePath) : String :=
  match p.fileName?.bind extensionOf? |>.bind Utf8.decode? with
  | some cs => String.ofList cs
  | none => ""

/-- The path that leads on from a directory. -/
def join (p q : FilePath) : FilePath :=
  if q.isAbsolute || p.octets.isEmpty then q
  else if p.octets.getLast? == some slash then ⟨p.octets ++ q.octets⟩
  else ⟨p.octets ++ slash :: q.octets⟩

end FilePath

end SigVerdict
