import SigVerdict.CommandLine.Grammar
import SigVerdict.Text.Numeral

set_option autoImplicit false

/-! # Reading command lines

A reader takes the arguments of a command one by one. A value that stands in an argument of its
own is checked only when the next option or operand starts, or at the end; a value that is written
behind an equals sign or behind a letter is checked at once. -/

namespace SigVerdict.CommandLine

/-- What a value belongs to. -/
inductive Target where
  | flag (flag : Flag)
  | operand (operand : Operand)
  deriving DecidableEq, Repr

/-- What has been given. An option has one value for each use; a use without a value counts as an
    empty one. -/
structure Given where
  flags : List (String × String) := []
  operand : Option String := none
  deriving DecidableEq, Repr

namespace Given

/-- The values of an option, in order. -/
def values (g : Given) (long : String) : List String :=
  g.flags.filterMap fun (name, value) => if name == long then some value else none

/-- Whether an option is given. -/
def has (g : Given) (long : String) : Bool := g.flags.any fun (name, _) => name == long

/-- Whether anything is given. -/
def isEmpty (g : Given) : Bool := g.flags.isEmpty && g.operand.isNone

/-- One more use of an option. -/
def use (g : Given) (f : Flag) (value : String) : Except Stop Given :=
  if !f.use.repeats && g.has f.long then .error (.fault (.repeated f.display))
  else
    match f.use.type? with
    | none => .ok { g with flags := g.flags ++ [(f.long, value)] }
    | some type =>
      match type.check f.display value with
      | .error stop => .error stop
      | .ok () => .ok { g with flags := g.flags ++ [(f.long, value)] }

end Given

/-- A reader of the arguments of a command. -/
structure Reader where
  given : Given := {}
  /-- What has started and is not checked yet, with its value if that has come. -/
  pending : Option (Target × Option String) := none
  /-- Whether the operand has come. -/
  operandSeen : Bool := false
  /-- Whether all further arguments are operands. -/
  onlyOperands : Bool := false

namespace Reader

/-- Whether an option waits for its value. -/
def awaiting? (r : Reader) : Option Flag :=
  match r.pending with
  | some (.flag f, none) => some f
  | _ => none

/-- Check what is pending. -/
def resolve (r : Reader) : Except Stop Reader :=
  match r.pending with
  | none => .ok r
  | some (.flag f, none) => .error (.fault (.missingValue f.display))
  | some (.flag f, some value) =>
    (r.given.use f value).map fun given => { r with given, pending := none }
  | some (.operand o, value) =>
    (o.type.check o.display (value.getD "")).map fun () =>
      { r with given := { r.given with operand := value }, pending := none }

/-- Use an option at once. -/
def react (r : Reader) (f : Flag) (value : String) : Except Stop Reader := do
  let r ← r.resolve
  let given ← r.given.use f value
  .ok { r with given }

/-- Start an option whose value comes in the next argument. -/
def await (r : Reader) (f : Flag) : Except Stop Reader := do
  let r ← r.resolve
  .ok { r with pending := some (.flag f, none) }

/-- Stop with what an option asks for, unless something pending is at fault. -/
def stop (r : Reader) (s : Stop) : Except Stop Reader := do
  let _ ← r.resolve
  .error s

/-- An option with its long name, and with a value if an equals sign follows. -/
def readLong (g : Grammar) (r : Reader) (name : String) (value : Option String) :
    Except Stop Reader :=
  if name == "help" || name == "version" then
    match value with
    | some value => .error (.fault (.unexpectedValue value ("--" ++ name)))
    | none => r.stop (if name == "help" then .help g.about else .version g.title)
  else
    match g.long? name with
    | none => .error (.fault (.unexpectedArgument ("--" ++ name)))
    | some f =>
      match f.use.type?, value with
      | none, some value => .error (.fault (.unexpectedValue value f.display))
      | none, none => r.react f ""
      | some _, some value => r.react f value
      | some _, none => r.await f

/-- Options with letters, of which one that takes a value ends the row. -/
def readLetters (g : Grammar) (r : Reader) : List Char → Except Stop Reader
  | [] => .ok r
  | c :: cs =>
    if c == 'h' then r.stop (.help g.about)
    else if c == 'V' then r.stop (.version g.title)
    else
      match g.short? c with
      | none => .error (.fault (.unexpectedArgument (String.ofList ['-', c])))
      | some f =>
        match f.use.type? with
        | none => (r.react f "").bind fun r => readLetters g r cs
        | some _ =>
          match cs with
          | [] => r.await f
          | '=' :: cs => r.react f (String.ofList cs)
          | cs => r.react f (String.ofList cs)

/-- An operand, or an argument that has no place. -/
def readOperand (g : Grammar) (r : Reader) (argument : String) : Except Stop Reader :=
  match g.operand, r.operandSeen with
  | some o, false => do
    let r ← r.resolve
    .ok { r with pending := some (.operand o, some argument), operandSeen := true }
  | _, _ =>
    if g.commands.isEmpty || (r.onlyOperands && g.hasCommand argument) then
      .error (.fault (.unexpectedArgument argument))
    else .error (.fault (.unknownCommand argument))

/-- Take one argument that is no command. -/
def step (g : Grammar) (r : Reader) (argument : String) : Except Stop Reader :=
  if r.onlyOperands then readOperand g r argument
  else
    match argument.toList with
    | ['-', '-'] => .ok { r with onlyOperands := true }
    | '-' :: '-' :: cs =>
      let name := String.ofList (cs.takeWhile (· != '='))
      match cs.dropWhile (· != '=') with
      | [] => readLong g r name none
      | _ :: value => readLong g r name (some (String.ofList value))
    | '-' :: c :: cs => readLetters g r (c :: cs)
    | _ =>
      match r.awaiting? with
      | some f => .ok { r with pending := some (.flag f, some argument) }
      | none => readOperand g r argument

/-- Take arguments up to the name of a command, which no option may wait for. -/
def run (g : Grammar) (r : Reader) :
    List String → Except Stop (Reader × Option (String × List String))
  | [] => .ok (r, none)
  | argument :: arguments =>
    if !r.onlyOperands && r.awaiting?.isNone && g.hasCommand argument then
      .ok (r, some (argument, arguments))
    else
      match r.step g argument with
      | .error stop => .error stop
      | .ok r => run g r arguments

/-- The variable that stands in for an option has to fit as well. -/
def checkVariable (environment : String → Option (List UInt8)) (f : Flag) : Except Stop Unit :=
  match f.environment.bind environment with
  | some [] => .error (.fault (.missingValue f.display))
  | _ => .ok ()

/-- Whether a variable stands in for an option. -/
def hasVariable (g : Grammar) (environment : String → Option (List UInt8)) : Bool :=
  g.flags.any fun f => (f.environment.bind environment).isSome

/-- Check what is left at the end of the arguments. -/
def finish (g : Grammar) (environment : String → Option (List UInt8)) (r : Reader) :
    Except Stop Given := do
  let r ← r.resolve
  (g.flags.filter fun f => !r.given.has f.long).forM (checkVariable environment)
  if g.flags.any fun f => f.required && !r.given.has f.long then
    .error (.fault .missingArguments)
  else .ok r.given

end Reader

end SigVerdict.CommandLine
