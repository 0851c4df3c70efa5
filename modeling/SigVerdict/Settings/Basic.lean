import SigVerdict.Fault
import SigVerdict.Format.Document
import SigVerdict.Host.FilePath
import SigVerdict.Status.Kind
import SigVerdict.Time.Span.Printer

set_option autoImplicit false

/-! # Settings

The settings of a verification, each with the value that it has unless something else is given. How
many signatures are required and which status codes are ignored is kept as written, and is read
only where it is needed. -/

namespace SigVerdict

/-- The settings. Their paths are texts: files and variables hold these, and a path of the command
    line that is no Unicode is left out. -/
structure Settings where
  executable : String := "gpg"
  keyring : Option String := none
  timeout : Option Span := none
  requiredCount : String := "1"
  ignoredCodes : List String := []
  disabled : Bool := false
  logLevel : String := "warn"
  deriving DecidableEq

namespace Settings

/-- The settings that are in force unless something else is given. -/
def standard : Settings := {}

/-- Read how many signatures must verify. -/
def readRequirement (text : String) : Except Fault Signature.Requirement :=
  (Signature.Requirement.read text.toList).mapError fun cause => .invalidCount text cause.message

/-- Read the kinds of status codes; the first unknown one is a fault. -/
def readKinds : List String → Except Fault (List Status.Kind)
  | [] => .ok []
  | code :: codes =>
    match Status.Kind.ofKeyword? code with
    | none => .error (.unknownStatusCode code)
    | some kind => (readKinds codes).map (kind :: ·)

/-- How many signatures must verify. -/
def requirement (s : Settings) : Except Fault Signature.Requirement :=
  readRequirement s.requiredCount

/-- The kinds of status that are ignored. -/
def ignoredKinds (s : Settings) : Except Fault (List Status.Kind) := readKinds s.ignoredCodes

/-- The names of the settings of a verification, in the order in which they are written. -/
def verificationFields : List String :=
  ["gpg_executable", "gpg_keyring", "gpg_timeout", "required_valid_signature_count",
    "ignore_signature_status_codes", "disable_gpg_verify"]

/-- The names of the settings of the log. -/
def loggingFields : List String := ["log_level"]

/-- The names of the sections. -/
def sections : List String := ["galaxy", "logging"]

/-- The settings as a document. -/
def document (s : Settings) : Document :=
  .record (sections.zip [
    .record (verificationFields.zip [
      .text s.executable,
      .optionalText s.keyring,
      .optionalText (s.timeout.map Span.toText),
      .text s.requiredCount,
      .texts s.ignoredCodes,
      .bool s.disabled]),
    .record (loggingFields.zip [.text s.logLevel])])

/-! ## Layers

Settings are laid over others: what the upper ones set differently from the standard covers what
lies below. A list that is not empty covers the whole list below, and a verification that one
layer disables stays disabled. -/

/-- Whether two texts are the same path. -/
def samePath (a b : String) : Bool := (FilePath.ofText a).sameAs (FilePath.ofText b)

/-- The upper value, unless it is standard. -/
def cover {α : Type} (isStandard : α → Bool) (lower upper : α) : α :=
  if isStandard upper then lower else upper

/-- Lay settings over others. -/
def merge (lower upper : Settings) : Settings where
  executable := cover (samePath standard.executable) lower.executable upper.executable
  keyring := upper.keyring.or lower.keyring
  timeout := upper.timeout.or lower.timeout
  requiredCount := cover (· == standard.requiredCount) lower.requiredCount upper.requiredCount
  ignoredCodes := cover List.isEmpty lower.ignoredCodes upper.ignoredCodes
  disabled := upper.disabled || lower.disabled
  logLevel := cover (· == standard.logLevel) lower.logLevel upper.logLevel

end Settings

end SigVerdict
