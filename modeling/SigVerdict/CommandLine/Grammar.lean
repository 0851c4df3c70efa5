import SigVerdict.Text.Integer
import SigVerdict.Time.Span

set_option autoImplicit false

/-! # Grammars of command lines

A grammar declares the options of a command, what they take, and what else may stand behind the
command's name. What a user does wrong is a usage fault. -/

namespace SigVerdict.CommandLine

open Text

/-- The type of a value. -/
inductive ValueType where
  | text
  | path
  /-- A whole number of seconds. -/
  | seconds
  | oneOf (choices : List String)
  deriving DecidableEq, Repr

/-- How an option is used. -/
inductive Use where
  /-- It has no value and may come once. -/
  | switch
  /-- It has no value, and its uses are counted. -/
  | tally
  | once (type : ValueType)
  | many (type : ValueType)
  deriving DecidableEq, Repr

/-- The type of the values that an option takes, if it takes any. -/
def Use.type? : Use → Option ValueType
  | .once type | .many type => some type
  | .switch | .tally => none

/-- Whether an option may come several times. -/
def Use.repeats : Use → Bool
  | .tally | .many _ => true
  | .switch | .once _ => false

/-- An option. -/
structure Flag where
  long : String
  short : Option Char := none
  use : Use
  required : Bool := false
  /-- The variable that stands in for the option. -/
  environment : Option String := none
  deriving DecidableEq, Repr

/-- A letter of ASCII as a capital letter, and an underscore for a dash. -/
def placeholderChar (c : Char) : Char :=
  if c = '-' then '_' else if 'a' ≤ c ∧ c ≤ 'z' then Char.ofNat (c.toNat - 32) else c

/-- An option as it is shown. -/
def Flag.display (f : Flag) : String :=
  match f.use with
  | .switch => "--" ++ f.long
  | .tally => "--" ++ f.long ++ "..."
  | .once _ | .many _ =>
    "--" ++ f.long ++ " <" ++ String.ofList (f.long.toList.map placeholderChar) ++ ">"

/-- What stands behind the options. -/
structure Operand where
  display : String
  type : ValueType
  deriving DecidableEq, Repr

/-- The grammar of a command. -/
structure Grammar where
  title : String
  about : String
  flags : List Flag
  operand : Option Operand := none
  /-- The commands of which one has to follow. -/
  commands : List String := []
  deriving DecidableEq, Repr

/-- The command that shows what other commands do. -/
def helpCommand : String := "help"

/-- Whether a word is a command of a grammar. -/
def Grammar.hasCommand (g : Grammar) (word : String) : Bool :=
  g.commands.contains word || (!g.commands.isEmpty && word == helpCommand)

/-- The option of a long name. -/
def Grammar.long? (g : Grammar) (name : String) : Option Flag :=
  g.flags.find? fun f => f.long == name

/-- The option of a letter. -/
def Grammar.short? (g : Grammar) (letter : Char) : Option Flag :=
  g.flags.find? fun f => f.short == some letter

/-! ## Usage faults -/

/-- What is wrong with a command line. -/
inductive UsageFault where
  | unexpectedArgument (argument : String)
  | unexpectedValue (value option : String)
  | missingValue (option : String)
  | invalidValue (value option : String) (cause : Option IntegerFault)
  | repeated (option : String)
  | missingArguments
  | unknownCommand (word : String)
  | missingCommand (title : String)
  deriving DecidableEq, Repr

/-- How a message shows the words that it quotes. -/
structure Emphasis where
  /-- A word that is at fault. -/
  wrong : String → String
  /-- The name of an option that something else is wrong with. -/
  known : String → String

/-- Words are shown as they are. -/
def Emphasis.plain : Emphasis := ⟨id, id⟩

/-- The wording of a usage fault. -/
def UsageFault.message (e : Emphasis) : UsageFault → String
  | .unexpectedArgument argument => s!"unexpected argument '{e.wrong argument}' found"
  | .unexpectedValue value option =>
    s!"unexpected value '{e.wrong value}' for '{e.known option}' found; no more were expected"
  | .missingValue option => s!"a value is required for '{e.wrong option}' but none was supplied"
  | .invalidValue value option none =>
    s!"invalid value '{e.wrong value}' for '{e.known option}'"
  | .invalidValue value option (some cause) =>
    s!"invalid value '{e.wrong value}' for '{e.known option}': {cause.message}"
  | .repeated option => s!"the argument '{e.wrong option}' cannot be used multiple times"
  | .missingArguments => "the following required arguments were not provided:"
  | .unknownCommand word => s!"unrecognized subcommand '{e.wrong word}'"
  | .missingCommand title =>
    s!"'{e.wrong title}' requires a subcommand but one was not provided"

/-- Why the reading of a command line stops. -/
inductive Stop where
  | fault (fault : UsageFault)
  /-- The user asks what a command does. -/
  | help (about : String)
  /-- The user asks for the version of a command. -/
  | version (title : String)
  /-- Nothing at all is asked for. -/
  | nothing (about : String)
  deriving DecidableEq, Repr

/-- Whether a value has a type; `option` is shown if it does not. -/
def ValueType.check (type : ValueType) (option value : String) : Except Stop Unit :=
  match type with
  | .text => .ok ()
  | .path => if value.isEmpty then .error (.fault (.missingValue option)) else .ok ()
  | .seconds =>
    match readNatural Span.mostSeconds value.toList with
    | .error cause => .error (.fault (.invalidValue value option (some cause)))
    | .ok _ => .ok ()
  | .oneOf choices =>
    if choices.contains value then .ok ()
    else if value.isEmpty then .error (.fault (.missingValue option))
    else .error (.fault (.invalidValue value option none))

end SigVerdict.CommandLine
