set_option autoImplicit false

/-! # Characters of YAML

Which characters a YAML text may hold, which end a line, and where a reader stands in a text. -/

namespace SigVerdict.Yaml

/-- A character that may stand in a YAML text. -/
def isAllowed (c : Char) : Bool :=
  let n := c.toNat
  n == 0x09 || n == 0x0A || n == 0x0D || (0x20 ≤ n && n ≤ 0x7E) || n == 0x85 ||
    (0xA0 ≤ n && n ≤ 0xD7FF) || (0xE000 ≤ n && n ≤ 0xFFFD) || 0x10000 ≤ n

/-- A character that ends a line. -/
def isBreak (c : Char) : Bool :=
  c == '\n' || c == '\r' || c == '\u0085' || c == '\u2028' || c == '\u2029'

/-- A blank within a line. -/
def isBlank (c : Char) : Bool := c == ' ' || c == '\t'

/-- Whether a word ends at the start of a text. -/
def endsWord : List Char → Bool
  | [] => true
  | c :: _ => isBlank c || isBreak c

/-- Whether a line ends at the start of a text. -/
def endsLine : List Char → Bool
  | [] => true
  | c :: _ => isBreak c

/-- A character of the names of anchors and tags. -/
def isNameChar (c : Char) : Bool :=
  ('0' ≤ c && c ≤ '9') || ('A' ≤ c && c ≤ 'Z') || ('a' ≤ c && c ≤ 'z') || c == '_' || c == '-'

/-- The byte order mark, which may start a line. -/
def byteOrderMark : Char := '\ufeff'

/-- How the end of a line is kept in a text: line feeds stand for most ends. -/
def keptBreak (c : Char) : Char := if c == '\u2028' || c == '\u2029' then c else '\n'

/-- Whether a line starts with the marker of a document's start or end. -/
def startsMarker : List Char → Bool
  | '-' :: '-' :: '-' :: cs => endsWord cs
  | '.' :: '.' :: '.' :: cs => endsWord cs
  | _ => false

/-- Where a reader stands: how many characters are behind it, in which line, and how many of
    them in that line. -/
structure Position where
  index : Nat
  line : Nat
  column : Nat
  deriving DecidableEq, Repr

namespace Position

/-- The start of a text. -/
def start : Position := ⟨0, 0, 0⟩

/-- So many characters further in the line. -/
def forward (p : Position) (n : Nat) : Position := ⟨p.index + n, p.line, p.column + n⟩

/-- Behind the end of the line, which has `n` characters. -/
def newLine (p : Position) (n : Nat) : Position := ⟨p.index + n, p.line + 1, 0⟩

end Position

/-- A text with the place where a reader stands. -/
structure Cursor where
  position : Position
  rest : List Char

namespace Cursor

/-- The column of a cursor. -/
def column (c : Cursor) : Nat := c.position.column

/-- The cursor behind so many characters of the line. -/
def skip (c : Cursor) (n : Nat) : Cursor := ⟨c.position.forward n, c.rest.drop n⟩

/-- The cursor behind the characters of the line that have a property. -/
def skipWhile (c : Cursor) (p : Char → Bool) : Cursor :=
  let skipped := c.rest.takeWhile p
  ⟨c.position.forward skipped.length, c.rest.dropWhile p⟩

/-- The cursor behind a line end, if there is one. -/
def skipBreak (c : Cursor) : Cursor :=
  match c.rest with
  | '\r' :: '\n' :: cs => ⟨c.position.newLine 2, cs⟩
  | b :: cs => if isBreak b then ⟨c.position.newLine 1, cs⟩ else c
  | [] => c

end Cursor

end SigVerdict.Yaml
