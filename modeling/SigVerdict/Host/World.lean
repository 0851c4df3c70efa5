import SigVerdict.Gpg.Run
import SigVerdict.Host.FileTree

set_option autoImplicit false

/-! # The world around the program

What the program can see: the variables of its environment, the directory of the user's account,
what paths lead to, what stands on its standard input, and what happens when it starts a command. -/

namespace SigVerdict

/-- The world around the program. -/
structure World where
  environment : String → Option (List UInt8)
  /-- The directory that the system has on record for the user. -/
  account : Option (List UInt8) := none
  look : FilePath → Found
  input : List UInt8
  launcher : Gpg.Launcher

namespace World

/-- The value of a variable that is a text. -/
def text? (w : World) (name : String) : Option String :=
  (w.environment name).bind fun octets => (Text.Utf8.decode? octets).map String.ofList

/-- The text of a file. -/
def readText (w : World) (path : FilePath) : Except SystemFault String :=
  match (w.look path).read with
  | .error cause => .error cause
  | .ok octets =>
    match Text.Utf8.decode? octets with
    | none => .error .notText
    | some cs => .ok (String.ofList cs)

end World

end SigVerdict
