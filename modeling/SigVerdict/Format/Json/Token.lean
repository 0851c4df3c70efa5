import SigVerdict.Text.Numeral

set_option autoImplicit false

/-! # Tokens of JSON

`tokens?` cuts a text into brackets, separators, names, numbers and strings. It reads one
character at a time and fails at one that no token can have in its place. -/

namespace SigVerdict.Json

open Text

/-! ## Escapes

A few characters are written as a backslash and a letter. The letters are those that are read back
as the characters (`unescape?_of_letterOf?`); a slash may be written so, but is not. -/

/-- The characters that are written as a backslash and a letter, each with its letter. -/
def letters : List (Char × Char) :=
  [('"', '"'), ('\\', '\\'), ('\x08', 'b'), ('\x0c', 'f'), ('\n', 'n'), ('\x0d', 'r'), ('\t', 't')]

/-- The letter of a character that has one. -/
def letterOf? (c : Char) : Option Char := letters.lookup c

/-- What a letter stands for behind a backslash. -/
def unescape? (letter : Char) : Option Char :=
  if letter = '/' then some '/' else (letters.find? fun entry => entry.2 = letter).map Prod.fst

/-- A character's letter stands for the character. -/
theorem unescape?_of_letterOf? {c letter : Char} (h : letterOf? c = some letter) :
    unescape? letter = some c := by
  have key : ∀ entry ∈ letters, unescape? entry.2 = some entry.1 := by decide
  obtain ⟨front, back, split, _⟩ := List.lookup_eq_some_iff.1 h
  exact key (c, letter) (by simp [split])

/-! ## Reading tokens -/

/-- A token. -/
inductive Token where
  | openSquare
  | closeSquare
  | openCurly
  | closeCurly
  | comma
  | colon
  | null
  | bool (value : Bool)
  | number (numeral : List Char)
  | string (text : Option String)
  deriving DecidableEq, Repr

/-! ## Strings -/

/-- A part of a string: a character that stands for itself, or a number of 16 bits that an
    escape gives. -/
inductive Piece where
  | char (c : Char)
  | unit (n : Nat)
  deriving DecidableEq, Repr

/-- Whether a number of 16 bits is the first half of a character. -/
def isHighHalf (n : Nat) : Bool := 0xD800 ≤ n && n < 0xDC00

/-- Whether a number of 16 bits is the second half of a character. -/
def isLowHalf (n : Nat) : Bool := 0xDC00 ≤ n && n < 0xE000

/-- The character of two halves. -/
def joinHalves (high low : Nat) : Char :=
  Char.ofNat (0x10000 + (high - 0xD800) * 1024 + (low - 0xDC00))

/-- The text of the parts of a string, unless half of a character stands alone. -/
def textOf : List Piece → Option (List Char)
  | [] => some []
  | .char c :: rest => (textOf rest).map (c :: ·)
  | .unit n :: rest =>
    if isHighHalf n then
      match rest with
      | .unit low :: rest =>
        if isLowHalf low then (textOf rest).map (joinHalves n low :: ·) else none
      | _ => none
    else if isLowHalf n then none
    else (textOf rest).map (Char.ofNat n :: ·)

/-! ## Numbers and names -/

/-- Whether a text is a row of digits at which a number may end, or go on as `next` allows. -/
def digitsThen (next : List Char → Bool) (cs : List Char) : Bool :=
  let ds := cs.takeWhile fun c => (digitValue? c).isSome
  !ds.isEmpty && next (cs.dropWhile fun c => (digitValue? c).isSome)

/-- Whether a text is empty or the exponent of a number. -/
def isExponent : List Char → Bool
  | [] => true
  | e :: '+' :: cs => (e == 'e' || e == 'E') && digitsThen List.isEmpty cs
  | e :: '-' :: cs => (e == 'e' || e == 'E') && digitsThen List.isEmpty cs
  | e :: cs => (e == 'e' || e == 'E') && digitsThen List.isEmpty cs

/-- Whether a text is what may stand behind the whole part of a number. -/
def isFraction : List Char → Bool
  | '.' :: cs => digitsThen isExponent cs
  | cs => isExponent cs

/-- Whether a text is a number: no sign but a minus, and no zero in front of other digits. -/
def isNumber : List Char → Bool
  | '-' :: '0' :: cs => isFraction cs
  | '-' :: cs => digitsThen isFraction cs
  | '0' :: cs => isFraction cs
  | cs => digitsThen isFraction cs

/-- Whether a character may be part of a number. -/
def isNumberChar (c : Char) : Bool :=
  (digitValue? c).isSome || c == '-' || c == '+' || c == '.' || c == 'e' || c == 'E'

/-- The token of a name. -/
def nameToken? (cs : List Char) : Option Token :=
  if cs = "null".toList then some .null
  else if cs = "true".toList then some (.bool true)
  else if cs = "false".toList then some (.bool false)
  else none

/-! ## The reader -/

/-- What the reader is in the middle of. What it holds has the last character first. -/
inductive Phase where
  | between
  | name (held : List Char)
  | number (held : List Char)
  | string (held : List Piece)
  | escape (held : List Piece)
  /-- Inside the four hexadecimal digits of an escape. -/
  | unit (held : List Piece) (value left : Nat)
  deriving DecidableEq, Repr

/-- Whether a character may stand between tokens. -/
def isSpace (c : Char) : Bool := c == ' ' || c == '\n' || c == '\t' || c == '\r'

/-- Whether a character may be part of a name. -/
def isNameChar (c : Char) : Bool := 'a' ≤ c && c ≤ 'z'

/-- A character between tokens. -/
def startToken (c : Char) : Option (List Token × Phase) :=
  if isSpace c then some ([], .between)
  else if c == '"' then some ([], .string [])
  else if isNameChar c then some ([], .name [c])
  else if (digitValue? c).isSome || c == '-' then some ([], .number [c])
  else match c with
    | '[' => some ([.openSquare], .between)
    | ']' => some ([.closeSquare], .between)
    | '\x7b' => some ([.openCurly], .between)
    | '\x7d' => some ([.closeCurly], .between)
    | ',' => some ([.comma], .between)
    | ':' => some ([.colon], .between)
    | _ => none

/-- The token of a held number. -/
def closeNumber? (held : List Char) : Option Token :=
  if isNumber held.reverse then some (.number held.reverse) else none

/-- The token of a held string. -/
def closeString (held : List Piece) : Token := .string ((textOf held.reverse).map String.ofList)

/-- Read one character: the tokens that it finishes, and what the reader is then in the middle
    of. -/
def readChar (c : Char) : Phase → Option (List Token × Phase)
  | .between => startToken c
  | .name held =>
    if isNameChar c then some ([], .name (c :: held))
    else do
      let token ← nameToken? held.reverse
      let (tokens, phase) ← startToken c
      some (token :: tokens, phase)
  | .number held =>
    if isNumberChar c then some ([], .number (c :: held))
    else do
      let token ← closeNumber? held
      let (tokens, phase) ← startToken c
      some (token :: tokens, phase)
  | .string held =>
    if c == '"' then some ([closeString held], .between)
    else if c == '\\' then some ([], .escape held)
    else if c.toNat < 32 then none
    else some ([], .string (.char c :: held))
  | .escape held =>
    if c == 'u' then some ([], .unit held 0 4)
    else (unescape? c).map fun c => ([], .string (.char c :: held))
  | .unit held value left =>
    (hexValue? c).map fun d =>
      ([], if left = 1 then .string (.unit (16 * value + d) :: held)
        else .unit held (16 * value + d) (left - 1))

/-- The tokens that the end of the text finishes. -/
def finish? : Phase → Option (List Token)
  | .between => some []
  | .name held => (nameToken? held.reverse).map ([·])
  | .number held => (closeNumber? held).map ([·])
  | _ => none

/-- The tokens of the rest of a text. -/
def tokensFrom? (phase : Phase) : List Char → Option (List Token)
  | [] => finish? phase
  | c :: cs => do
    let (tokens, phase) ← readChar c phase
    some (tokens ++ (← tokensFrom? phase cs))

/-- The tokens of a text. -/
def tokens? (cs : List Char) : Option (List Token) := tokensFrom? .between cs

end SigVerdict.Json
