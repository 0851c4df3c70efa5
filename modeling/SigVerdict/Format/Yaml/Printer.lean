import SigVerdict.Format.Document
import SigVerdict.Format.Yaml.Ambiguity
import SigVerdict.Format.Yaml.Char
import SigVerdict.Format.Yaml.Token

set_option autoImplicit false

/-! # Writing YAML

A document is written in blocks: every entry and every item stands on a line of its own, entries of
a nested record two columns deeper, and the items of a list in the column of the key that the list
belongs to. A text of several lines is written as literal lines where that is possible, and any
other text without quotes if it then still reads as the same text. -/

namespace SigVerdict.Yaml

/-! ## The style of a text -/

/-- A character that is written as it is. -/
def isPrintable (c : Char) : Bool :=
  let n := c.toNat
  n == 0x0A || (0x20 ≤ n && n ≤ 0x7E) || (0xA0 ≤ n && n ≤ 0xFFFD && n != 0xFEFF) || 0x10000 ≤ n

/-- Whether a text has a character with one property next to one with another. -/
def hasPair (p q : Char → Bool) : List Char → Bool
  | c :: d :: cs => (p c && q d) || hasPair p q (d :: cs)
  | _ => false

/-- Whether a space stands at the end of a line. -/
def hasSpaceBeforeBreak (cs : List Char) : Bool := hasPair (· == ' ') isBreak cs

/-- Whether a space stands at the start of a line. -/
def hasSpaceAfterBreak (cs : List Char) : Bool := hasPair isBreak (· == ' ') cs

/-- Whether a character is a space or ends a line. -/
def isSpaceOrBreak (c : Char) : Bool := c == ' ' || isBreak c

/-- Whether a text starts with a character that means something else there. -/
def startsWithIndicator : List Char → Bool
  | [] => false
  | c :: cs =>
    "#,[]\x7b\x7d&*!|>'\"%@\x60".toList.contains c ||
      ((c == '?' || c == ':' || c == '-') && endsWord cs)

/-- Whether a text has a colon or a number sign that means something else there. -/
def hasIndicator : List Char → Bool
  | c :: d :: cs =>
    (d == ':' && endsWord cs) || (d == '#' && (isBlank c || isBreak c)) || hasIndicator (d :: cs)
  | _ => false

/-- Whether a text starts like the marker of a document. -/
def startsLikeMarker (cs : List Char) : Bool :=
  "---".toList.isPrefixOf cs || "...".toList.isPrefixOf cs

/-- Whether a text can be written without quotes. -/
def fitsPlain (cs : List Char) : Bool :=
  cs.all (fun c => isPrintable c && !isBreak c) && !cs.head?.any isSpaceOrBreak &&
    !cs.getLast?.any isSpaceOrBreak && !startsLikeMarker cs && !startsWithIndicator cs &&
    !hasIndicator cs

/-- Whether a text can be written between single quotes. -/
def fitsSingle (cs : List Char) : Bool :=
  cs.all isPrintable && !hasSpaceBeforeBreak cs && !hasSpaceAfterBreak cs

/-- Whether a text can be written as literal lines. -/
def fitsLiteral (cs : List Char) : Bool :=
  cs.all isPrintable && !hasSpaceBeforeBreak cs && cs.getLast? != some ' '

/-- The style in which a text is written. -/
def styleOf (cs : List Char) : Style :=
  if cs.contains '\n' then if fitsLiteral cs then .literal else .double
  else if !isAmbiguous cs && fitsPlain cs then .plain
  else if fitsSingle cs then .single
  else .double

/-! ## Texts -/

/-- The last hexadecimal digits of a number. -/
def hexDigits : Nat → Nat → List Char
  | 0, _ => []
  | count + 1, n => hexDigits count (n / 16) ++ [Text.hexDigit true (n % 16)]

/-- What stands behind a backslash for a character. -/
def escapeCode (n : Nat) : List Char :=
  match n with
  | 0x00 => ['0']
  | 0x07 => ['a']
  | 0x08 => ['b']
  | 0x09 => ['t']
  | 0x0A => ['n']
  | 0x0B => ['v']
  | 0x0C => ['f']
  | 0x0D => ['r']
  | 0x1B => ['e']
  | 0x22 => ['"']
  | 0x5C => ['\\']
  | 0x85 => ['N']
  | 0x2028 => ['L']
  | 0x2029 => ['P']
  | n =>
    if n ≤ 0xFF then 'x' :: hexDigits 2 n
    else if n ≤ 0xFFFF then 'u' :: hexDigits 4 n
    else 'U' :: hexDigits 8 n

/-- A character between double quotes. -/
def escape (c : Char) : List Char :=
  if !isPrintable c || isBreak c || c == '"' || c == '\\' then '\\' :: escapeCode c.toNat else [c]

/-- So many spaces. -/
def spaces (n : Nat) : List Char := List.replicate n ' '

/-- The characters between single quotes, whose further lines start at a column. `fresh` says that
    the last character ended a line. -/
def singleBody (column : Nat) (fresh : Bool) : List Char → List Char
  | [] => if fresh then spaces column else []
  | c :: cs =>
    if isBreak c then
      (if c == '\n' && !fresh then ['\n'] else []) ++ c :: singleBody column true cs
    else
      (if fresh then spaces column else []) ++
        (if c == '\'' then ['\'', '\''] else [c]) ++ singleBody column false cs

/-- Literal lines that start at a column. `fresh` says that the last character ended a line. -/
def literalBody (column : Nat) (fresh : Bool) : List Char → List Char
  | [] => []
  | c :: cs =>
    if isBreak c then c :: literalBody column true cs
    else (if fresh then spaces column else []) ++ c :: literalBody column false cs

/-- What says how the last line ends: `-` if no break ends it, and `+` if empty lines follow or
    there is nothing but a break. -/
def chompingMark (cs : List Char) : List Char :=
  match cs.reverse with
  | [] => ['-']
  | [c] => if isBreak c then ['+'] else ['-']
  | c :: d :: _ => if !isBreak c then ['-'] else if isBreak d then ['+'] else []

/-- The start of literal lines. The column is given where the first line would hide it. -/
def literalHeader (cs : List Char) : List Char :=
  '|' :: ((if cs.head?.any isSpaceOrBreak then ['2'] else []) ++ chompingMark cs ++ ['\n'])

/-- A text whose further lines start at a column, and the end of its last line. -/
def renderText (column : Nat) (cs : List Char) : List Char :=
  match styleOf cs with
  | .literal | .folded =>
    literalHeader cs ++ literalBody column true cs ++
      if cs.getLast?.any isBreak then [] else ['\n']
  | .plain => cs ++ ['\n']
  | .single => '\'' :: singleBody column false cs ++ ['\'', '\n']
  | .double => '"' :: cs.flatMap escape ++ ['"', '\n']

/-- The name of a field. -/
def renderKey (name : String) : List Char :=
  if styleOf name.toList = .plain then name.toList
  else '"' :: name.toList.flatMap escape ++ ['"']

/-! ## Documents -/

/-- What a value stands behind. -/
inductive Lead where
  /-- It is the document. -/
  | start
  /-- It is an item, behind a dash. -/
  | dash
  /-- It is the value of a field, behind a colon. -/
  | colon
  deriving DecidableEq, Repr

/-- What stands between a lead and a value that goes on in the same line. -/
def Lead.sameLine : Lead → List Char
  | .start => []
  | .dash | .colon => [' ']

/-- What stands between a lead and the first entry of a block, whose entries start at a
    column. -/
def Lead.block (column : Nat) : Lead → List Char
  | .start => []
  | .dash => [' ']
  | .colon => '\n' :: spaces column

mutual

/-- A value inside a block at a column, with the end of its last line. -/
def renderValue (column : Nat) (lead : Lead) : SigVerdict.Document → List Char
  | .null => lead.sameLine ++ "null\n".toList
  | .bool true => lead.sameLine ++ "true\n".toList
  | .bool false => lead.sameLine ++ "false\n".toList
  | .number n => lead.sameLine ++ Text.integerDigits n ++ ['\n']
  | .text s => lead.sameLine ++ renderText (column + 2) s.toList
  | .list [] => lead.sameLine ++ "[]\n".toList
  | .list (item :: items) =>
    let column := if lead = .dash then column + 2 else column
    lead.block column ++ '-' :: renderValue column .dash item ++ renderItems column items
  | .record [] => lead.sameLine ++ "\x7b\x7d\n".toList
  | .record ((name, value) :: fields) =>
    let column := if lead = .start then column else column + 2
    lead.block column ++ renderKey name ++ ':' :: renderValue column .colon value ++
      renderFields column fields
  | .variant name payload =>
    lead.sameLine ++ '!' :: name.toList ++ renderValue column .colon payload

/-- The items behind the first one. -/
def renderItems (column : Nat) : List SigVerdict.Document → List Char
  | [] => []
  | item :: items =>
    spaces column ++ '-' :: renderValue column .dash item ++ renderItems column items

/-- The fields behind the first one. -/
def renderFields (column : Nat) : List (String × SigVerdict.Document) → List Char
  | [] => []
  | (name, value) :: fields =>
    spaces column ++ renderKey name ++ ':' :: renderValue column .colon value ++
      renderFields column fields

end

/-- A document as text. -/
def render (d : SigVerdict.Document) : List Char := renderValue 0 .start d

end SigVerdict.Yaml
