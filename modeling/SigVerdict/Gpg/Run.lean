import SigVerdict.Fault
import SigVerdict.Text.Utf8

set_option autoImplicit false

/-! # Runs of GnuPG

A verifier knows which executable to start, with which keyring, and how long to wait. It asks a
launcher to start the command, hands it the signature, and gets back what the command wrote to
its status descriptor and how it ended. To start a command is the only act of a run, so a run is
written for any way to act (`Verifier.verifyM`); with a launcher it is a plain function. -/

namespace SigVerdict.Gpg

open Text

/-- A command with what it is given to read. -/
structure Command where
  executable : String
  arguments : List String
  input : String
  deriving DecidableEq, Repr

namespace Command

/-- The executable and its arguments on one line. -/
def line (c : Command) : String := " ".intercalate (c.executable :: c.arguments)

end Command

/-- What talking to a command consists of. -/
inductive Stage where
  | createPipe
  | writeSignature
  | await
  | readStatus
  deriving DecidableEq, Repr

/-- What is said of a stage that failed. -/
def Stage.failure : Stage → String
  | .createPipe => "Failed to create GnuPG status pipe"
  | .writeSignature => "Failed to write signature to GnuPG"
  | .await => "Failed to wait for GnuPG"
  | .readStatus => "Failed to read GnuPG status output"

/-- How an attempt to run a command ends. A command that ends took some nanoseconds, wrote octets
    to its status descriptor, and has an exit code unless a signal killed it. -/
inductive Attempt where
  | notStarted (cause : SystemFault)
  | broken (stage : Stage) (cause : SystemFault)
  | ended (took : Nat) (status : List UInt8) (exit : Option Nat)
  deriving DecidableEq, Repr

/-- What starts commands, and the number of the status descriptor that it gives them. -/
structure Launcher where
  descriptor : Nat
  start : Command → Attempt

/-- A finished run: the text of its status, and its exit code, or -1 if a signal killed it. -/
structure Run where
  status : String
  exitCode : Int
  deriving DecidableEq, Repr

namespace Run

/-- The run that ended with these octets and this exit code. -/
def ofEnd (status : List UInt8) (exit : Option Nat) : Run :=
  ⟨String.ofList (Utf8.decodeLossy status), exit.elim (-1) Int.ofNat⟩

/-- The items of a run's status. -/
def items (r : Run) : List Status.Item := Status.items r.status.toList

/-- Whether a run ended with exit code zero. -/
def success (r : Run) : Bool := r.exitCode == 0

end Run

/-- How GnuPG is run. -/
structure Verifier where
  executable : String := "gpg"
  keyring : String
  timeout : Option Span := none
  deriving DecidableEq

namespace Verifier

/-- The arguments of a run: the signature is read from the standard input. -/
def arguments (v : Verifier) (descriptor : Nat) (manifest : String) : List String :=
  [ "--status-fd=" ++ decimal descriptor,
    "--verify",
    "--batch",
    "--no-tty",
    "--no-default-keyring",
    "--keyring=" ++ v.keyring,
    "-",
    manifest ]

/-- The command that verifies a signature of a manifest. -/
def command (v : Verifier) (descriptor : Nat) (manifest signature : String) : Command :=
  ⟨v.executable, v.arguments descriptor manifest, signature⟩

/-- What an attempt to run a command comes to. -/
def conclude (v : Verifier) (command : Command) : Attempt → Except Fault Run
  | .notStarted cause => .error (.spawn command.line cause)
  | .broken stage cause => .error (.exchange stage.failure cause)
  | .ended took status exit =>
    match v.timeout with
    | some limit =>
      if took ≤ limit.toNanos then .ok (.ofEnd status exit)
      else .error (.timeout command.line limit)
    | none => .ok (.ofEnd status exit)

/-- Run GnuPG over a signature of a manifest, where `start` is how commands are started. -/
def verifyM {m : Type → Type} [Monad m] (v : Verifier) (descriptor : Nat)
    (start : Command → m Attempt) (manifest signature : String) : m (Except Fault Run) := do
  let command := v.command descriptor manifest signature
  return v.conclude command (← start command)

/-- Run GnuPG over a signature of a manifest. -/
def verify (v : Verifier) (launcher : Launcher) (manifest signature : String) :
    Except Fault Run :=
  Id.run (v.verifyM launcher.descriptor (fun command => pure (launcher.start command)) manifest
    signature)

theorem verify_eq (v : Verifier) (launcher : Launcher) (manifest signature : String) :
    v.verify launcher manifest signature =
      v.conclude (v.command launcher.descriptor manifest signature)
        (launcher.start (v.command launcher.descriptor manifest signature)) := rfl

end Verifier

end SigVerdict.Gpg
