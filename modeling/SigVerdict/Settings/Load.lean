import SigVerdict.Host.World
import SigVerdict.Settings.Basic
import SigVerdict.Settings.Read

set_option autoImplicit false

/-! # Loading settings

Settings come from files and from variables. A file that is named is the only one; otherwise the
files at the standard places are laid over each other, as far as they exist. The variables come
last, and each sets its setting outright. -/

namespace SigVerdict

/-- Why settings cannot be loaded. -/
inductive SettingsFault where
  | notFound (path : FilePath)
  | unreadable (path : FilePath) (cause : SystemFault)
  /-- A file does not hold settings. -/
  | malformed (path : FilePath)
  | badTimeout (value : String) (cause : Text.IntegerFault)
  deriving DecidableEq, Repr

namespace SettingsFault

/-- The message of a fault. -/
def message : SettingsFault → String
  | .notFound path => s!"Config file not found: {path.display}"
  | .unreadable path _ => s!"Failed to read config file: {path.display}"
  | .malformed path => s!"Failed to parse config file: {path.display}"
  | .badTimeout value _ =>
    s!"GALAXY_GPG_TIMEOUT must be a whole number of seconds, got '{value}'"

/-- The messages of what caused a fault, outermost first; those of a malformed file are left
    out. -/
def causes : SettingsFault → List String
  | .unreadable _ cause => [cause.message]
  | .badTimeout _ cause => [cause.message]
  | .notFound _ | .malformed _ => []

end SettingsFault

namespace Settings

/-! ## Files -/

/-- The settings that a file sets. -/
def readFile (w : World) (path : FilePath) : Except SettingsFault Settings :=
  match w.readText path with
  | .error cause => .error (.unreadable path cause)
  | .ok text =>
    match (Format.ofExtension path.extension).read? text.toList with
    | none => .error (.malformed path)
    | some s => .ok s

/-- Lay the settings of a file over others. -/
def layFile (w : World) (s : Settings) (path : FilePath) : Except SettingsFault Settings :=
  (readFile w path).map s.merge

/-- The settings of one file. -/
def ofFile (w : World) (path : FilePath) : Except SettingsFault Settings :=
  layFile w standard path

/-- Lay the settings of files over others, one after another. -/
def layFiles (w : World) : Settings → List FilePath → Except SettingsFault Settings
  | s, [] => .ok s
  | s, path :: paths =>
    match layFile w s path with
    | .error fault => .error fault
    | .ok s => layFiles w s paths

/-! ## Places -/

/-- A directory, of which an empty path is none. -/
def directory? : Option (List UInt8) → Option FilePath
  | none | some [] => none
  | some octets => some ⟨octets⟩

/-- The user's directory, which a variable says, or else the user's account. -/
def home? (w : World) : Option FilePath :=
  (directory? (w.environment "HOME")).or (directory? w.account)

/-- The directory for the settings of the user's programs. -/
def configDirectory? (w : World) : Option FilePath :=
  let elsewhere := (w.environment "XDG_CONFIG_HOME").bind fun octets =>
    if (FilePath.mk octets).isAbsolute then some (FilePath.mk octets) else none
  elsewhere.or ((home? w).map (·.join (.ofText ".config")))

/-- The places of settings, the ones that cover others last. -/
def standardPaths (w : World) : List FilePath :=
  [FilePath.ofText "/etc/galaxy-gpg/config.toml"] ++
    ((home? w).map (·.join (.ofText ".galaxy-gpg.toml"))).toList ++
    ((configDirectory? w).map (·.join (.ofText "galaxy-gpg/config.toml"))).toList ++
    [FilePath.ofText "galaxy-gpg.toml"]

/-- The file that is named, on the command line or else by a variable. -/
def named? (w : World) (explicit : Option FilePath) : Option FilePath :=
  explicit.or ((w.environment "GALAXY_GPG_CONFIG").map FilePath.mk)

/-- The settings that files set. -/
def ofFiles (w : World) (explicit : Option FilePath) : Except SettingsFault Settings :=
  match named? w explicit with
  | some path => if (w.look path).isThere then ofFile w path else .error (.notFound path)
  | none => layFiles w standard ((standardPaths w).filter fun path => (w.look path).isThere)

/-! ## Variables -/

/-- A number of seconds that is written in a variable, with blanks around it. -/
def readSeconds (text : String) : Except SettingsFault (Option Span) :=
  match Text.readNatural Span.mostSeconds (Text.trim text.toList) with
  | .error cause => .error (.badTimeout text cause)
  | .ok n => .ok (Span.ofSeconds? n)

/-- A letter of ASCII as a small letter. -/
def smallLetter (c : Char) : Char := if 'A' ≤ c ∧ c ≤ 'Z' then Char.ofNat (c.toNat + 32) else c

/-- Whether a text says yes. -/
def isTruthy (text : String) : Bool :=
  let word := String.ofList ((Text.trim text.toList).map smallLetter)
  ["1", "true", "yes", "on"].contains word

/-- The items of a list that is written as one text. -/
def splitList (text : String) : List String := (Text.items text.toList).map String.ofList

/-- Settings with the timeout that a variable sets. -/
def withTimeout (w : World) (s : Settings) : Except SettingsFault Settings :=
  match w.text? "GALAXY_GPG_TIMEOUT" with
  | none => .ok s
  | some text => (readSeconds text).map fun timeout => { s with timeout }

/-- Settings with what all other variables set. -/
def withVariables (w : World) (s : Settings) : Settings where
  executable := (w.text? "GALAXY_GPG_EXECUTABLE").getD s.executable
  keyring := (w.text? "ANSIBLE_GALAXY_GPG_KEYRING").or s.keyring
  timeout := s.timeout
  requiredCount := (w.text? "ANSIBLE_GALAXY_REQUIRED_VALID_SIGNATURE_COUNT").getD s.requiredCount
  ignoredCodes :=
    ((w.text? "ANSIBLE_GALAXY_IGNORE_SIGNATURE_STATUS_CODES").map splitList).getD s.ignoredCodes
  disabled := ((w.text? "ANSIBLE_GALAXY_DISABLE_GPG_VERIFY").map isTruthy).getD s.disabled
  logLevel := (w.text? "GALAXY_GPG_LOG_LEVEL").getD s.logLevel

/-- Load the settings. -/
def load (w : World) (explicit : Option FilePath) : Except SettingsFault Settings :=
  match ofFiles w explicit with
  | .error fault => .error fault
  | .ok s => (withTimeout w s).map (withVariables w)

end Settings

end SigVerdict
