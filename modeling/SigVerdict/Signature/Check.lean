import SigVerdict.Gpg.Run

set_option autoImplicit false

/-! # The check of one signature

A run speaks for a signature when it ended with exit code zero and reported nothing. A malformed
status line says that no verdict can be reached; any outcome rejects the signature, and so does
another exit code. -/

namespace SigVerdict.Signature

open Gpg

/-- The rejection by outcomes; it is ignored when all their kinds are to be ignored. -/
def rejectionOf (run : Run) (ignored : List Status.Kind) (outcomes : List Status.Outcome) :
    Rejection :=
  { reasons := reasonSet (outcomes.map Status.Outcome.description)
    statusOutput := run.status
    exitCode := run.exitCode
    ignored := outcomes.all fun outcome => ignored.contains outcome.kind }

/-- What a finished run says about its signature. -/
def verdict (ignored : List Status.Kind) (run : Run) : Except Fault Unit :=
  match Status.collect run.items with
  | .error fault => .error (.statusDecode fault)
  | .ok [] =>
    if run.success then .ok ()
    else .error (.rejected ⟨[], run.status, run.exitCode, false⟩)
  | .ok outcomes => .error (.rejected (rejectionOf run ignored outcomes))

/-- Check one signature of a manifest, where `start` is how commands are started. -/
def checkM {m : Type → Type} [Monad m] (descriptor : Nat) (start : Command → m Attempt)
    (verifier : Verifier) (manifest : String) (ignored : List Status.Kind) (signature : String) :
    m (Except Fault Unit) := do
  match ← verifier.verifyM descriptor start manifest signature with
  | .error fault => return .error fault
  | .ok run => return verdict ignored run

/-- Check one signature of a manifest. -/
def check (launcher : Launcher) (verifier : Verifier) (manifest : String)
    (ignored : List Status.Kind) (signature : String) : Except Fault Unit :=
  Id.run (checkM launcher.descriptor (fun command => pure (launcher.start command)) verifier
    manifest ignored signature)

theorem check_eq (launcher : Launcher) (verifier : Verifier) (manifest : String)
    (ignored : List Status.Kind) (signature : String) :
    check launcher verifier manifest ignored signature =
      match verifier.verify launcher manifest signature with
      | .error fault => .error fault
      | .ok run => verdict ignored run := rfl

end SigVerdict.Signature
