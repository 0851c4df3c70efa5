import SigVerdict.CommandLine.Program

set_option autoImplicit false

/-! # The program as a whole

The outer layer: it looks at the arguments, the environment and the files that a run can need,
runs the program on what it saw, and writes what the program says. Commands are not started, and
the user's account is not looked up. -/

namespace SigVerdict

open CommandLine

/-- The variables that the program takes notice of. -/
def knownVariables : List String :=
  [configVariable, "HOME", "XDG_CONFIG_HOME", "NO_COLOR", "CLICOLOR_FORCE",
    "GALAXY_GPG_EXECUTABLE", "ANSIBLE_GALAXY_GPG_KEYRING", "GALAXY_GPG_TIMEOUT",
    "ANSIBLE_GALAXY_REQUIRED_VALID_SIGNATURE_COUNT",
    "ANSIBLE_GALAXY_IGNORE_SIGNATURE_STATUS_CODES", "ANSIBLE_GALAXY_DISABLE_GPG_VERIFY",
    "GALAXY_GPG_LOG_LEVEL"]

/-- The value of a name in a list of names with values. -/
def valueIn {α β : Type} [BEq α] (known : List (α × β)) (name : α) : Option β :=
  (known.find? fun (other, _) => other == name).map Prod.snd

/-- The known variables that are set. -/
def readVariables : IO (List (String × List UInt8)) :=
  knownVariables.filterMapM fun name => do
    return (← IO.getEnv name).map fun value => (name, value.toUTF8.toList)

/-- The number of a fault, which some calls give with a minus sign, in two's complement. -/
def faultNumber (number : UInt32) : Nat := min number.toNat (-number).toNat

/-- The fault of a failed call. -/
def faultOf : IO.Error → SystemFault
  | .noFileOrDirectory _ number _ => .numbered (faultNumber number)
  | .permissionDenied _ number _ => .numbered (faultNumber number)
  | .inappropriateType _ number _ => .numbered (faultNumber number)
  | .noSuchThing _ number _ => .numbered (faultNumber number)
  | other => .worded (toString other)

/-- What a path leads to. -/
def find (path : FilePath) : IO Found := do
  try
    return .content (← IO.FS.readBinFile path.display).toList
  catch e =>
    match faultOf e with
    | .numbered 21 => return .unreadable .isADirectory
    | .numbered 13 => return .unreadable (.numbered 13)
    | cause => return .absent cause

/-- The files that a command reads. -/
def filesOf : Command → List FilePath
  | .verify arguments => arguments.signatures.map FilePath.ofText
  | .decode file => (statusFile? file).toList
  | .statusCodes => []

/-- Whether a command reads the standard input. -/
def needsInput : Command → Bool
  | .decode file => (statusFile? file).isNone
  | .verify _ | .statusCodes => false

/-- All that is left of a stream, behind what has been read of it. -/
partial def readRest (stream : IO.FS.Stream) (held : ByteArray) : IO ByteArray := do
  let chunk ← stream.read 65536
  if chunk.isEmpty then return held else readRest stream (held ++ chunk)

/-- The world without files and without input, in which no command starts. -/
def bareWorld (environment : List (String × List UInt8)) : World where
  environment := valueIn environment
  look _ := .absent .noSuchFile
  input := []
  launcher := ⟨3, fun _ => .notStarted (.numbered 38)⟩

/-- The world as far as a command line needs it. -/
def observe (world : World) (arguments : Arguments) : IO World := do
  let named := (Settings.named? world arguments.shared.config).toList
  let paths := named ++ Settings.standardPaths world ++ filesOf arguments.command
  let seen ← paths.mapM fun path => return (path, ← find path)
  let input ←
    if needsInput arguments.command then
      pure (← readRest (← IO.getStdin) .empty).toList
    else pure []
  return { world with input, look := fun path => (valueIn seen path).getD (world.look path) }

end SigVerdict

open SigVerdict CommandLine in
/-- Run the program. -/
def main (arguments : List String) : IO UInt32 := do
  let bare := bareWorld (← readVariables)
  let world ← match readArguments bare.environment arguments with
    | .ok parsed => observe bare parsed
    | .error _ => pure bare
  let transcript := run world arguments
  (← IO.getStdout).putStr transcript.results
  (← IO.getStderr).putStr transcript.messages
  return UInt32.ofNat transcript.exit
