import SigVerdict.Format.Json.Parser
import SigVerdict.Format.Reading
import SigVerdict.Format.Toml.Parser
import SigVerdict.Format.Yaml.Parser
import SigVerdict.Settings.Basic
import SigVerdict.Time.Span.Parser

set_option autoImplicit false

/-! # Reading settings

Settings are written in one of several formats. A setting or a section that is missing has its
standard value. -/

namespace SigVerdict

namespace Settings

variable {ν : Type}

/-- Read a field that may be missing. -/
def readField {α : Type} (read? : ν → Option α) (standard : α) : Option ν → Option α
  | none => some standard
  | some value => read? value

/-- Read a span that may be missing. -/
def readSpan? (r : Reading ν) (value : ν) : Option (Option Span) := do
  match ← r.optionalText? value with
  | none => some none
  | some text => (Span.parse? text.toList).map some

/-- Read the section of a verification. -/
def readVerification? (r : Reading ν) (value : ν) : Option Settings := do
  match ← r.fields? verificationFields value with
  | [executable, keyring, timeout, count, codes, disabled] =>
    some
      { executable := ← readField r.text? standard.executable executable
        keyring := ← readField r.optionalText? standard.keyring keyring
        timeout := ← readField (readSpan? r) standard.timeout timeout
        requiredCount := ← readField r.text? standard.requiredCount count
        ignoredCodes := ← readField r.texts? standard.ignoredCodes codes
        disabled := ← readField r.flag? standard.disabled disabled }
  | _ => none

/-- Read the section of the log. -/
def readLogging? (r : Reading ν) (value : ν) : Option String := do
  match ← r.fields? loggingFields value with
  | [level] => readField r.text? standard.logLevel level
  | _ => none

/-- Read all settings. -/
def read? (r : Reading ν) (value : ν) : Option Settings := do
  match ← r.fields? sections value with
  | [verification, logging] =>
    let s ← readField (readVerification? r) standard verification
    let logLevel ← readField (readLogging? r) standard.logLevel logging
    some { s with logLevel }
  | _ => none

/-! ## Formats -/

/-- A format in which settings are written. -/
inductive Format where
  | json
  | toml
  | yaml
  /-- TOML if it can be read as that, and else YAML. -/
  | unknown
  deriving DecidableEq, Repr

/-- The format that the extension of a file says; capital letters matter. -/
def Format.ofExtension (extension : String) : Format :=
  if extension = "yml" ∨ extension = "yaml" then .yaml
  else if extension = "json" then .json
  else if extension = "toml" then .toml
  else .unknown

/-- Read settings that are written in JSON. -/
def ofJson? (cs : List Char) : Option Settings := (Json.parse? cs).bind (read? Json.reading)

/-- Read settings that are written in TOML. -/
def ofToml? (cs : List Char) : Option Settings := (Toml.parse? cs).bind (read? Toml.reading)

/-- Read settings that are written in YAML; a text without a document sets nothing. -/
def ofYaml? (cs : List Char) : Option Settings :=
  match Yaml.parse? cs with
  | none => none
  | some none => some standard
  | some (some graph) => read? graph.reading graph.root

/-- Read settings that are written in a format. -/
def Format.read? : Format → List Char → Option Settings
  | .json, cs => ofJson? cs
  | .toml, cs => ofToml? cs
  | .yaml, cs => ofYaml? cs
  | .unknown, cs => (ofToml? cs).or (ofYaml? cs)

end Settings

end SigVerdict
