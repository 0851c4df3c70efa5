import SigVerdict.CommandLine.Arguments
import SigVerdict.Format.Json.Printer
import SigVerdict.Format.Yaml.Printer
import SigVerdict.Signature.Report
import SigVerdict.Status.Outcome

set_option autoImplicit false

/-! # What the program writes

The program writes results to one stream and messages to another. Results are written for people,
with colours where these are wanted, or as a document for other programs. -/

namespace SigVerdict.CommandLine

/-- What a run of the program leaves: its results, its messages and its exit code. -/
structure Transcript where
  results : String := ""
  messages : String := ""
  exit : Nat := 0
  deriving DecidableEq, Repr

namespace Transcript

/-- What is written by one part of a run and then by another, which says how the run ends. -/
def followedBy (a b : Transcript) : Transcript :=
  ⟨a.results ++ b.results, a.messages ++ b.messages, b.exit⟩

/-- A line of results. -/
def result (line : String) : Transcript := { results := line ++ "\n" }

/-- A line of messages. -/
def note (line : String) : Transcript := { messages := line ++ "\n" }

/-- The end of a run. -/
def ending (exit : Nat) : Transcript := { exit }

/-- Several parts of a run. -/
def all (parts : List Transcript) : Transcript := parts.foldr followedBy {}

end Transcript

open Transcript

/-- A way to make a word stand out. -/
inductive Colour where
  | red
  | green
  | yellow
  | cyan
  | white
  | plainBlue
  | plainCyan
  | plainGrey
  deriving DecidableEq, Repr

/-- The codes of a colour. All but the plain ones are bold. -/
def Colour.codes : Colour → String
  | .red => "1;31"
  | .green => "1;32"
  | .yellow => "1;33"
  | .cyan => "1;36"
  | .white => "1;97"
  | .plainBlue => "34"
  | .plainCyan => "36"
  | .plainGrey => "90"

/-- A text between the codes that start and end a way to make it stand out. -/
def inCode (codes text : String) : String := "\x1b[" ++ codes ++ "m" ++ text ++ "\x1b[0m"

/-- How the program writes. -/
structure Console where
  coloured : Bool
  format : OutputFormat
  verbosity : Nat
  deriving DecidableEq, Repr

namespace Console

/-- Whether the variables ask for colours although nobody is watching. -/
def forcesColour (w : World) : Bool :=
  (w.text? "NO_COLOR").isNone && (w.text? "CLICOLOR_FORCE").any (· != "0")

/-- The way in which the command line and the variables ask for output. -/
def ofShared (w : World) (s : Shared) : Console :=
  ⟨!s.noColor && forcesColour w, s.output, s.verbosity⟩

/-- Whether results are written for other programs. -/
def isMachine (c : Console) : Bool := c.format != .human

/-- A text in a colour. -/
def paint (c : Console) (colour : Colour) (text : String) : String :=
  if c.coloured then inCode colour.codes text else text

/-- The title of a section with a line below. -/
def section_ (c : Console) (title : String) : Transcript :=
  if c.isMachine then {}
  else
    let line := String.ofList (List.replicate (Text.Utf8.size title.toList) '-')
    all [result ("\n" ++ c.paint .cyan title), result (c.paint .plainCyan line)]

/-- A document. -/
def document (c : Console) (d : Document) : Transcript :=
  match c.format with
  | .yaml => { results := String.ofList (Yaml.render d) }
  | .human | .json => result (String.ofList (Json.ofDocument d).render)

/-- An outcome. -/
def outcome (c : Console) (o : Status.Outcome) : Transcript :=
  all [
    result (c.paint (if o.kind.isExpiry then .yellow else .red) o.kind.keyword),
    all (o.arguments.map fun (name, value) =>
      result ("    " ++ c.paint .plainGrey name ++ ": " ++ value)),
    all (o.timestamp?.toList.map fun time => result ("    at: " ++ time)),
    result ("    " ++ o.description)]

/-- An entry of the registry. -/
def kind (c : Console) (k : Status.Kind) : Transcript :=
  let fields := k.fields.map fun f => "<" ++ f.name ++ ":" ++ f.type.name ++ ">"
  all [
    result (c.paint .white k.keyword ++ " " ++ " ".intercalate fields),
    result ("    " ++ k.description)]

/-- An error. -/
def error (c : Console) (text : String) : Transcript := note (c.paint .red "ERROR:" ++ " " ++ text)

/-- A warning. -/
def warning (c : Console) (text : String) : Transcript :=
  note (c.paint .yellow "WARNING:" ++ " " ++ text)

/-- A hint. -/
def hint (c : Console) (text : String) : Transcript :=
  note (c.paint .plainCyan "HINT:" ++ " " ++ text)

/-- A remark, for people who want to know more. -/
def info (c : Console) (text : String) : Transcript :=
  if c.verbosity < 1 || c.isMachine then {}
  else result (c.paint .plainBlue "INFO:" ++ " " ++ text)

/-- What a report says in one line. -/
def reportLine (r : Signature.Report) : String :=
  s!"{r.collection}: {Text.decimal r.successful}/{Text.decimal r.total} signature(s) verified, " ++
    s!"{Text.decimal r.ignored} ignored (requirement {r.requirement.toText})"

/-- A report. -/
def report (c : Console) (r : Signature.Report) : Transcript :=
  all [
    all (if 1 ≤ c.verbosity || !r.verified then r.failures.map note else []),
    if r.verified then result (c.paint .green "VERIFIED" ++ " " ++ reportLine r)
    else result (c.paint .red "FAILED" ++ " " ++ reportLine r),
    all (r.summary.toList.map c.error)]

/-- A fault with its hint. -/
def fault (c : Console) (f : Fault) : Transcript := all [c.error f.message, c.hint f.hint]

end Console

/-! ## Usage faults -/

/-- Words at fault are yellow and known options bold. -/
def Emphasis.coloured : Emphasis := ⟨inCode "33", inCode "1"⟩

/-- The line that says what is wrong with a command line. No option turns its colours off, since
    the options could not be read. -/
def usageLine (coloured : Bool) (f : UsageFault) : String :=
  if coloured then "\x1b[1m" ++ inCode "31" "error:" ++ " " ++ f.message .coloured
  else "error: " ++ f.message .plain

/-! ## Fatal errors -/

/-- A text with further lines moved to the right. -/
def indentLines (columns : Nat) (text : String) : String :=
  String.ofList (text.toList.flatMap fun c =>
    if c == '\n' then '\n' :: List.replicate columns ' ' else [c])

/-- The causes with their numbers, the first one being `n`. -/
def numberedCauses (n : Nat) : List String → String
  | [] => ""
  | cause :: causes =>
    let number := Text.digits n
    "\n" ++ String.ofList (List.replicate (5 - number.length) ' ' ++ number) ++ ": " ++
      indentLines 7 cause ++ numberedCauses (n + 1) causes

/-- The causes of an error, numbered if there are several. -/
def renderCauses : List String → String
  | [] => ""
  | [cause] => "\n\nCaused by:\n    " ++ indentLines 4 cause
  | causes => "\n\nCaused by:" ++ numberedCauses 0 causes

/-- An error that ends the program. -/
def fatal (text : String) (causes : List String) : Transcript :=
  (note ("Error: " ++ text ++ renderCauses causes)).followedBy (ending 1)

end SigVerdict.CommandLine
