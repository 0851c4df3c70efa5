import SigVerdict.Text.Numeral

set_option autoImplicit false

/-! # Words of TOML

The parts of a TOML text that hold no other values: line ends, comments, keys and strings. Each
reader takes the start of a text and gives what it read with the text behind it. -/

namespace SigVerdict.Toml

open Text

/-- A reader of the start of a text. -/
abbrev Reader (α : Type) := List Char → Option (α × List Char)

/-- A blank within a line. -/
def isSpace (c : Char) : Bool := c == ' ' || c == '\t'

/-- A character of a comment or of a string: no control character but the tabulator. -/
def isPrintable (c : Char) : Bool := c == '\t' || (32 ≤ c.toNat && c.toNat != 127)

/-- The text behind the blanks of a line. -/
def skipSpaces (cs : List Char) : List Char := cs.dropWhile isSpace

/-- The text behind a line end. -/
def lineFeed? : List Char → Option (List Char)
  | '\n' :: cs => some cs
  | '\r' :: '\n' :: cs => some cs
  | _ => none

/-- The text behind a comment. -/
def skipComment : List Char → List Char
  | '#' :: cs => cs.dropWhile isPrintable
  | cs => cs

/-- The text behind the end of a line that may only hold a comment by now. -/
def endLine? (cs : List Char) : Option (List Char) :=
  match skipComment (skipSpaces cs) with
  | [] => some []
  | cs => lineFeed? cs

/-- The text behind blanks, line ends and comments; `comment` inside a comment. -/
def skipLines (comment : Bool) : List Char → List Char
  | '\n' :: cs => skipLines false cs
  | '\r' :: '\n' :: cs => skipLines false cs
  | c :: cs =>
    if comment && isPrintable c then skipLines true cs
    else if c == '#' then skipLines true cs
    else if isSpace c then skipLines false cs
    else c :: cs
  | [] => []

/-! ## Strings -/

/-- What a letter stands for behind a backslash. -/
def unescape? : Char → Option Char
  | 'b' => some '\x08'
  | 't' => some '\t'
  | 'n' => some '\n'
  | 'f' => some '\x0c'
  | 'r' => some '\r'
  | '"' => some '"'
  | '\\' => some '\\'
  | _ => none

/-- The delimiter of a string. Only a string between double quotes has escapes. -/
inductive Quote where
  | double
  | single
  deriving DecidableEq, Repr

/-- The character of a delimiter. -/
def Quote.char : Quote → Char
  | .double => '"'
  | .single => '\''

/-- What a reader of a string is in the middle of. -/
inductive Phase where
  | text
  | escape
  /-- Inside the hexadecimal digits of an escape. -/
  | code (value left : Nat)
  /-- Behind a backslash and blanks, where the line has to end. -/
  | lastSpaces
  /-- Behind a line end that a backslash took away, where blanks and line ends are dropped. -/
  | firstSpaces
  /-- Behind a carriage return, where a line feed is due; it may be one that is dropped. -/
  | lineFeed (dropped : Bool)
  /-- Behind some delimiters in a row. -/
  | quotes (count : Nat)
  deriving DecidableEq, Repr

/-- A character inside a string: what is held with it, and the phase behind it. -/
def readPlain (quote : Quote) (c : Char) (held : List Char) : Option (List Char × Phase) :=
  if c == quote.char then some (held, .quotes 1)
  else if c == '\\' && quote == .double then some (held, .escape)
  else if c == '\n' then some (c :: held, .text)
  else if c == '\r' then some (held, .lineFeed false)
  else if isPrintable c then some (c :: held, .text)
  else none

/-- A character behind a backslash. -/
def readEscape (c : Char) (held : List Char) : Option (List Char × Phase) :=
  if c == 'u' then some (held, .code 0 4)
  else if c == 'U' then some (held, .code 0 8)
  else if isSpace c then some (held, .lastSpaces)
  else if c == '\n' then some (held, .firstSpaces)
  else if c == '\r' then some (held, .lineFeed true)
  else (unescape? c).map fun c => (c :: held, .text)

/-- A digit of an escape. -/
def readCode (value left : Nat) (c : Char) (held : List Char) : Option (List Char × Phase) := do
  let value := 16 * value + (← hexValue? c)
  if left = 1 then some ((← charOf? value) :: held, .text) else some (held, .code value (left - 1))

/-- A character of a string of several lines, before whose end the reader stands. -/
def readChar (quote : Quote) (c : Char) (held : List Char) : Phase → Option (List Char × Phase)
  | .text => readPlain quote c held
  | .escape => readEscape c held
  | .code value left => readCode value left c held
  | .lastSpaces =>
    if isSpace c then some (held, .lastSpaces)
    else if c == '\n' then some (held, .firstSpaces)
    else if c == '\r' then some (held, .lineFeed true)
    else none
  | .firstSpaces =>
    if isSpace c || c == '\n' then some (held, .firstSpaces)
    else if c == '\r' then some (held, .lineFeed true)
    else readPlain quote c held
  | .lineFeed dropped =>
    if c != '\n' then none
    else if dropped then some (held, .firstSpaces)
    else some ('\n' :: held, .text)
  | .quotes count =>
    if c == quote.char then some (held, .quotes (count + 1))
    else readPlain quote c (List.replicate count quote.char ++ held)

/-- A finished string of several lines that ended in so many delimiters. -/
def closeBlock (quote : Quote) (count : Nat) (held : List Char) : String :=
  String.ofList (held.reverse ++ List.replicate (count - 3) quote.char)

/-- Read the rest of a string of several lines. Three delimiters in a row end it, and up to two
    more in front of them belong to it. -/
def blockFrom (quote : Quote) (held : List Char) : Phase → Reader String
  | .quotes 5, cs => some (closeBlock quote 5 held, cs)
  | .quotes count, [] => if 3 ≤ count then some (closeBlock quote count held, []) else none
  | _, [] => none
  | phase, c :: cs =>
    match phase with
    | .quotes count =>
      if 3 ≤ count && c != quote.char then some (closeBlock quote count held, c :: cs)
      else (readChar quote c held phase).bind fun (held, phase) => blockFrom quote held phase cs
    | phase => (readChar quote c held phase).bind fun (held, phase) => blockFrom quote held phase cs

/-- Read the rest of a string of one line. -/
def lineFrom (quote : Quote) (held : List Char) : Phase → Reader String
  | _, [] => none
  | .text, c :: cs =>
    if c == quote.char then some (String.ofList held.reverse, cs)
    else if c == '\\' && quote == .double then lineFrom quote held .escape cs
    else if isPrintable c then lineFrom quote (c :: held) .text cs
    else none
  | .escape, c :: cs =>
    if isSpace c || c == '\n' || c == '\r' then none
    else (readEscape c held).bind fun (held, phase) => lineFrom quote held phase cs
  | .code value left, c :: cs =>
    (readCode value left c held).bind fun (held, phase) => lineFrom quote held phase cs
  | _, _ => none

/-- Read a string of several lines, whose first line end is dropped. -/
def block (quote : Quote) (cs : List Char) : Option (String × List Char) :=
  blockFrom quote [] .text ((lineFeed? cs).getD cs)

/-- Read a string of one line. -/
def line (quote : Quote) (cs : List Char) : Option (String × List Char) :=
  lineFrom quote [] .text cs

/-! ## Keys -/

/-- A character of a key that stands without quotes. -/
def isKeyChar (c : Char) : Bool :=
  ('A' ≤ c && c ≤ 'Z') || ('a' ≤ c && c ≤ 'z') || ('0' ≤ c && c ≤ '9') || c == '-' || c == '_'

/-- Read one key. -/
def simpleKey : Reader String
  | '"' :: cs => line .double cs
  | '\'' :: cs => line .single cs
  | cs =>
    let key := cs.takeWhile isKeyChar
    if key.isEmpty then none else some (String.ofList key, cs.dropWhile isKeyChar)

/-- The first depth that is too deep, for arrays and tables inside each other and for the parts of
    a dotted key. -/
def nestingBound : Nat := 80

/-- Read keys with points between them, of which at most `fuel` come. -/
def dottedKeys : Nat → Reader (List String)
  | 0, _ => none
  | fuel + 1, cs => do
    let (key, cs) ← simpleKey (skipSpaces cs)
    match skipSpaces cs with
    | '.' :: cs =>
      let (keys, cs) ← dottedKeys fuel cs
      some (key :: keys, cs)
    | cs => some ([key], cs)

/-- Read a dotted key: all but its last part, and the last part. -/
def keyPath (cs : List Char) : Option ((List String × String) × List Char) := do
  let (keys, cs) ← dottedKeys (nestingBound - 1) cs
  some ((keys.dropLast, ← keys.getLast?), cs)

end SigVerdict.Toml
