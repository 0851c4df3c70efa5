import SigVerdict.Checker
import SigVerdict.CommandLine.Console
import SigVerdict.Settings.Load

set_option autoImplicit false

/-! # The program

The program reads its command line, loads its settings and runs one command. -/

namespace SigVerdict.CommandLine

open Transcript

/-! ## Commands -/

/-- List the registry. -/
def runStatusCodes (c : Console) : Transcript :=
  if c.isMachine then c.document Status.registryDocument
  else (c.section_ "GnuPG status codes").followedBy (all (Status.Kind.all.map c.kind))

/-- The file that a status stream is read from, unless it is the standard input. -/
def statusFile? (file : Option String) : Option FilePath :=
  (file.filter (· != "-")).map FilePath.ofText

/-- The octets of a status stream. -/
def statusOctets (w : World) (file : Option String) :
    Except (FilePath × SystemFault) (List UInt8) :=
  match statusFile? file with
  | none => .ok w.input
  | some path => (w.look path).read.mapError fun cause => (path, cause)

/-- Show outcomes. -/
def showOutcomes (c : Console) (outcomes : List Status.Outcome) : Transcript :=
  if c.isMachine then c.document (Status.documentOf outcomes)
  else if outcomes.isEmpty then c.info "No recognised status lines"
  else
    (c.section_ (Text.decimal outcomes.length ++ " outcome(s)")).followedBy
      (all (outcomes.map c.outcome))

/-- Decode a status stream. Nothing is shown of a stream with a fault. -/
def decodeOctets (c : Console) (octets : List UInt8) : Transcript :=
  match Status.collect (Status.items (Text.Utf8.decodeLossy octets)) with
  | .error fault => (c.error fault.message).followedBy (ending 1)
  | .ok outcomes => showOutcomes c outcomes

/-- Decode a status stream of a file or of the standard input. -/
def runDecode (w : World) (c : Console) (file : Option String) : Transcript :=
  match statusOctets w file with
  | .error (path, cause) => fatal s!"Failed to read status file {path.display}" [cause.message]
  | .ok octets => decodeOctets c octets

/-- The settings with what the command line says. -/
def VerifyArguments.applyTo (a : VerifyArguments) (s : Settings) : Settings :=
  { s with
    executable := a.executable.getD s.executable
    keyring := a.keyring.or s.keyring
    timeout := a.timeout.or s.timeout
    requiredCount := a.requiredCount.getD s.requiredCount
    ignoredCodes := s.ignoredCodes ++ a.ignoredCodes }

/-- The texts of files, or the first file that cannot be read. -/
def readTexts (w : World) : List String → Except (FilePath × SystemFault) (List String)
  | [] => .ok []
  | file :: files =>
    match w.readText (.ofText file) with
    | .error cause => .error (.ofText file, cause)
    | .ok text => (readTexts w files).map (text :: ·)

/-- The name under which a collection is reported. -/
def VerifyArguments.collectionName (a : VerifyArguments) : String := a.collection.getD a.manifest

/-- Check signatures and show the verdict. -/
def verifyTexts (w : World) (c : Console) (checker : Checker) (a : VerifyArguments)
    (signatures : List String) : Transcript :=
  let announcement := c.info (
    s!"Verifying {Text.decimal signatures.length} signature(s) for {a.collectionName} " ++
    s!"with keyring {checker.verifier.keyring}")
  announcement.followedBy <|
    match checker.verify w.launcher ⟨a.collectionName, a.manifest, signatures⟩ with
    | .error fault => (c.fault fault).followedBy (ending 1)
    | .ok report =>
      (if c.isMachine then c.document report.document else c.report report).followedBy
        (ending (if report.verified then 0 else 1))

/-- What is said when signatures are not to be verified. -/
def disabledWarning : String :=
  "Signature verification is disabled (disable_gpg_verify); skipping GnuPG checks"

/-- Verify signatures. -/
def runVerify (w : World) (c : Console) (s : Settings) (a : VerifyArguments) : Transcript :=
  if s.disabled then c.warning disabledWarning
  else
    match Checker.ofSettings (a.applyTo s) with
    | .error fault => (c.fault fault).followedBy (ending 1)
    | .ok checker =>
      match readTexts w a.signatures with
      | .error (path, cause) =>
        fatal s!"Failed to read signature file {path.display}" [cause.message]
      | .ok signatures => verifyTexts w c checker a signatures

/-- Run a command. -/
def runCommand (w : World) (c : Console) (s : Settings) : Command → Transcript
  | .verify arguments => runVerify w c s arguments
  | .decode file => runDecode w c file
  | .statusCodes => runStatusCodes c

/-! ## The whole program -/

/-- What is written when the reading of the command line stops. -/
def Stop.transcript (coloured : Bool) : Stop → Transcript
  | .fault f => (note (usageLine coloured f)).followedBy (ending 2)
  | .help about => result about
  | .version title => result (title ++ " " ++ programVersion)
  | .nothing about => (note about).followedBy (ending 2)

/-- The causes of a fault of the settings as they are shown. -/
def shownCauses : SettingsFault → List String
  | .malformed path => [(SettingsFault.malformed path).message, "its text is not well formed"]
  | other => other.message :: other.causes

/-- Run the program with arguments that have been read. -/
def runArguments (w : World) (a : Arguments) : Transcript :=
  match Settings.load w a.shared.config with
  | .error fault => fatal "Failed to load configuration" (shownCauses fault)
  | .ok settings =>
    let greeting := if 2 ≤ a.shared.verbosity then note s!"{programName} v{programVersion}" else {}
    greeting.followedBy (runCommand w (.ofShared w a.shared) settings a.command)

/-- Run the program. -/
def run (w : World) (arguments : List String) : Transcript :=
  match readArguments w.environment arguments with
  | .error stop => stop.transcript (Console.forcesColour w)
  | .ok arguments => runArguments w arguments

end SigVerdict.CommandLine
