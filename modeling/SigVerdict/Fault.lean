import SigVerdict.Host.SystemFault
import SigVerdict.Signature.Rejection
import SigVerdict.Signature.Requirement
import SigVerdict.Status.Stream
import SigVerdict.Time.Span.Printer

set_option autoImplicit false

/-! # Faults of a verification

Whatever keeps a signature from being verified is a fault. Only a rejection speaks about the
signature; all others say that no verdict was reached. Every fault has a message, a hint for the
user, and the messages of what caused it. -/

namespace SigVerdict

/-- What keeps a signature from being verified. -/
inductive Fault where
  /-- The command could not be started. -/
  | spawn (command : String) (cause : SystemFault)
  /-- The command was still running at its time limit. -/
  | timeout (command : String) (limit : Span)
  /-- Talking to the command failed. -/
  | exchange (text : String) (cause : SystemFault)
  | missingKeyring
  | statusDecode (fault : Status.LineFault)
  | unknownStatusCode (keyword : String)
  | rejected (rejection : Signature.Rejection)
  | invalidCount (value reason : String)
  | system (cause : SystemFault)
  deriving DecidableEq

namespace Fault

/-- The wording for a keyword that is not registered. -/
def unknownKeywordMessage (keyword : String) : String :=
  s!"'{keyword}' is not a known GnuPG status code"

/-- The message of a fault. -/
def message : Fault → String
  | .spawn command cause =>
    s!"Failed during GnuPG verification with command '{command}': {cause.message}"
  | .timeout command limit =>
    s!"GnuPG verification with command '{command}' timed out after {limit.toText}"
  | .exchange text cause => s!"{text}: {cause.message}"
  | .missingKeyring => "No GnuPG keyring configured for signature verification"
  | .statusDecode fault => fault.message
  | .unknownStatusCode keyword => unknownKeywordMessage keyword
  | .rejected rejection => rejection.message
  | .invalidCount value reason => s!"Invalid required signature count '{value}': {reason}"
  | .system cause => s!"IO error: {cause.message}"

/-- What the user may do about a fault. -/
def hint : Fault → String
  | .spawn .. =>
    "Make sure GnuPG is installed, or point 'gpg_executable' (GALAXY_GPG_EXECUTABLE) at the gpg " ++
    "binary."
  | .timeout _ limit =>
    s!"GnuPG did not finish within {limit.toText}. Check for a hung gpg-agent or raise " ++
    "'gpg_timeout'."
  | .missingKeyring =>
    "Pass --keyring or set ANSIBLE_GALAXY_GPG_KEYRING to a keyring containing the trusted " ++
    "public keys."
  | .statusDecode _ =>
    "GnuPG produced status output in an unexpected format. Check the installed GnuPG version."
  | .unknownStatusCode keyword =>
    s!"Use 'galaxy-gpg status-codes' to list the status codes that can be ignored ({keyword})."
  | .invalidCount .. =>
    "Use a positive number or 'all', optionally prefixed with '+' (e.g. '1', '+2', '+all')."
  | .rejected rejection =>
    if rejection.reasons.isEmpty then
      "GnuPG failed without a recognised status. Re-run with -vvv to see its output."
    else "Check the error message for details."
  | .exchange .. | .system _ => "Check the error message for details."

/-- The messages of what caused a fault, outermost first. -/
def causes : Fault → List String
  | .spawn _ cause | .exchange _ cause | .system cause => [cause.message]
  | .statusDecode fault => fault.causes
  | _ => []

/-- Whether a fault is a verdict about the signature. -/
def isRejection : Fault → Bool
  | .rejected _ => true
  | _ => false

end Fault

end SigVerdict
