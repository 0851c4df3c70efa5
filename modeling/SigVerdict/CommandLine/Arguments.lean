import SigVerdict.CommandLine.Reader
import SigVerdict.Host.World

set_option autoImplicit false

/-! # The command line

The program has three commands. The options that all commands share may stand in front of a
command or behind it; where both say something, the one behind counts. -/

namespace SigVerdict.CommandLine

/-! ## The grammars -/

/-- The name of the program. -/
def programName : String := "galaxy-gpg"

/-- The version of the program. -/
def programVersion : String := "0.1.0"

/-- The variable that names the file with the settings. -/
def configVariable : String := "GALAXY_GPG_CONFIG"

/-- The options that all commands share. -/
def sharedFlags : List Flag :=
  [ { long := "verbose", short := some 'v', use := .tally },
    { long := "output", use := .once (.oneOf ["human", "json", "yaml"]) },
    { long := "config", short := some 'c', use := .once .path, environment := some configVariable },
    { long := "no-color", use := .switch } ]

/-- The options of the command that verifies signatures. -/
def verifyFlags : List Flag :=
  [ { long := "manifest", short := some 'm', use := .once .path, required := true },
    { long := "signature", short := some 's', use := .many .path, required := true },
    { long := "keyring", short := some 'k', use := .once .path },
    { long := "collection", use := .once .text },
    { long := "required-valid-signature-count", use := .once .text },
    { long := "ignore-signature-status-code", use := .many .text },
    { long := "gpg", use := .once .path },
    { long := "timeout", use := .once .seconds } ]

/-- The grammar of the program. -/
def mainGrammar : Grammar where
  title := programName
  about := "Verify Ansible Galaxy collection signatures with GnuPG"
  flags := sharedFlags
  commands := ["verify", "decode", "status-codes"]

/-- The grammar of the command that verifies signatures. -/
def verifyGrammar : Grammar where
  title := programName ++ "-verify"
  about := "Verify detached signatures over a collection manifest"
  flags := verifyFlags ++ sharedFlags

/-- The grammar of the command that decodes a status stream. -/
def decodeGrammar : Grammar where
  title := programName ++ "-decode"
  about := "Decode a captured GnuPG status stream"
  flags := sharedFlags
  operand := some ⟨"[FILE]", .path⟩

/-- The grammar of the command that lists the registry. -/
def statusCodesGrammar : Grammar where
  title := programName ++ "-status-codes"
  about := "List the GnuPG status codes this tool understands"
  flags := sharedFlags

/-! ## Arguments -/

/-- How results are written. -/
inductive OutputFormat where
  | human
  | json
  | yaml
  deriving DecidableEq, Repr

/-- What all commands are told. -/
structure Shared where
  verbosity : Nat := 0
  output : OutputFormat := .human
  config : Option FilePath := none
  noColor : Bool := false
  deriving DecidableEq, Repr

/-- What the command that verifies signatures is told. Its paths are texts, since the words of a
    command line are; words that are no Unicode are left out. -/
structure VerifyArguments where
  manifest : String
  signatures : List String
  keyring : Option String := none
  collection : Option String := none
  requiredCount : Option String := none
  ignoredCodes : List String := []
  executable : Option String := none
  timeout : Option Span := none
  deriving DecidableEq

/-- A command with what it is told. -/
inductive Command where
  | verify (arguments : VerifyArguments)
  | decode (file : Option String)
  | statusCodes
  deriving DecidableEq

/-- A command line. -/
structure Arguments where
  shared : Shared
  command : Command
  deriving DecidableEq

/-- The last value of an option. -/
def Given.value? (g : Given) (long : String) : Option String := (g.values long).getLast?

/-- The most that verbosity counts. -/
def mostVerbosity : Nat := 3

/-- The format of a word. -/
def OutputFormat.ofWord (word : String) : OutputFormat :=
  if word = "json" then .json else if word = "yaml" then .yaml else .human

/-- What all commands are told, in front of the command and behind it. -/
def sharedOf (environment : String → Option (List UInt8)) (front behind : Given) : Shared :=
  let value? := fun long => (behind.value? long).or (front.value? long)
  let tally := fun (g : Given) => (g.values "verbose").length
  { verbosity := min mostVerbosity (if tally behind = 0 then tally front else tally behind)
    output := ((value? "output").map OutputFormat.ofWord).getD .human
    config := ((value? "config").map FilePath.ofText).or
      ((environment configVariable).map FilePath.mk)
    noColor := front.has "no-color" || behind.has "no-color" }

/-- What the command that verifies signatures is told. -/
def verifyArgumentsOf (g : Given) : VerifyArguments where
  manifest := (g.value? "manifest").getD ""
  signatures := g.values "signature"
  keyring := g.value? "keyring"
  collection := g.value? "collection"
  requiredCount := g.value? "required-valid-signature-count"
  ignoredCodes := g.values "ignore-signature-status-code"
  executable := g.value? "gpg"
  timeout := (g.value? "timeout").bind fun text =>
    (Text.readNatural Span.mostSeconds text.toList).toOption.bind Span.ofSeconds?

/-- The grammar of a command. -/
def grammarOf? (word : String) : Option Grammar :=
  if word = "verify" then some verifyGrammar
  else if word = "decode" then some decodeGrammar
  else if word = "status-codes" then some statusCodesGrammar
  else none

/-- The command of a word, with what it is told. -/
def commandOf (word : String) (g : Given) : Command :=
  if word = "verify" then .verify (verifyArgumentsOf g)
  else if word = "decode" then .decode g.operand
  else .statusCodes

/-- What a command does. -/
def aboutOf? (word : String) : Option String :=
  if word = helpCommand then
    some "Print this message or the help of the given subcommand(s)"
  else (grammarOf? word).map Grammar.about

/-- What the user asks to be explained. -/
def helpOn : List String → Stop
  | [] => .help mainGrammar.about
  | word :: words =>
    match aboutOf? word, words with
    | none, _ => .fault (.unknownCommand word)
    | some about, [] => .help about
    | some _, next :: _ => .fault (.unknownCommand next)

/-- The end of a command line without a command. -/
def withoutCommand (environment : String → Option (List UInt8)) (r : Reader) : Stop :=
  match r.finish mainGrammar environment with
  | .error stop => stop
  | .ok given =>
    if given.isEmpty && !Reader.hasVariable mainGrammar environment then
      .nothing mainGrammar.about
    else .fault (.missingCommand programName)

/-- Read a command line. What stands behind a command is read to its end before what stands in
    front of it is checked. -/
def readArguments (environment : String → Option (List UInt8)) (arguments : List String) :
    Except Stop Arguments := do
  let (front, found) ← Reader.run mainGrammar {} arguments
  match found with
  | none => .error (withoutCommand environment front)
  | some (word, rest) =>
    match grammarOf? word with
    | none => .error (helpOn rest)
    | some g =>
      let (behind, _) ← Reader.run g {} rest
      let behind ← behind.finish g environment
      let front ← front.finish mainGrammar environment
      .ok ⟨sharedOf environment front behind, commandOf word behind⟩

end SigVerdict.CommandLine
