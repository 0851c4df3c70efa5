import SigVerdict.Format.Yaml.Char
import SigVerdict.Format.Yaml.Scalar
import SigVerdict.Text.Numeral

set_option autoImplicit false

/-! # Properties and directives of YAML

Anchors and aliases have names, tags have a handle and a suffix, and directives set the version of
the language and what handles stand for. -/

namespace SigVerdict.Yaml

open Text

/-! ## Names -/

/-- Whether a name may end in front of a text. -/
def endsName : List Char → Bool
  | [] => true
  | c :: _ =>
    isBlank c || isBreak c || c == '?' || c == ':' || c == ',' || c == ']' || c == '\x7d' ||
      c == '%' || c == '@' || c == '\x60'

/-- Read the name of an anchor or of an alias. -/
def name (c : Cursor) : Option (List Char × Cursor) :=
  let found := c.rest.takeWhile isNameChar
  let behind := c.skipWhile isNameChar
  if found.isEmpty || !endsName behind.rest then none else some (found, behind)

/-! ## Tags -/

/-- A character of a tag that stands for itself. -/
def isTagChar (verbatim : Bool) (c : Char) : Bool :=
  isNameChar c || ";/?:@&=+$.!~*'()".toList.contains c ||
    (verbatim && (c == ',' || c == '[' || c == ']'))

/-- How many octets a character has in UTF-8 whose first one is given. -/
def octetCount? (b : Nat) : Option Nat :=
  if b < 0x80 then some 1
  else if b < 0xC0 then none
  else if b < 0xE0 then some 2
  else if b < 0xF0 then some 3
  else if b < 0xF8 then some 4
  else none

/-- The octet of an escape in a tag. -/
def octet? (a b : Char) : Option Nat := do some (16 * (← hexValue? a) + (← hexValue? b))

/-- Read the characters of a tag, where `due` more octets of an escaped character must come. An
    escaped octet is held as the character of its number. -/
def tagCharsFrom (verbatim : Bool) (held : List Char) (due : Nat) :
    List Char → Option (List Char × List Char)
  | '%' :: a :: b :: cs =>
    match octet? a b with
    | none => none
    | some octet =>
      match due with
      | 0 =>
        match octetCount? octet with
        | some count => tagCharsFrom verbatim (Char.ofNat octet :: held) (count - 1) cs
        | none => none
      | due + 1 =>
        if 0x80 ≤ octet && octet < 0xC0 then
          tagCharsFrom verbatim (Char.ofNat octet :: held) due cs
        else none
  | c :: cs =>
    if due = 0 && isTagChar verbatim c then tagCharsFrom verbatim (c :: held) 0 cs
    else if due = 0 && c != '%' then some (held.reverse, c :: cs)
    else none
  | [] => if due = 0 then some (held.reverse, []) else none

/-- Read the characters of a tag. -/
def tagChars (verbatim : Bool) (c : Cursor) : Option (List Char × Cursor) := do
  let (found, rest) ← tagCharsFrom verbatim [] 0 c.rest
  some (found, ⟨c.position.forward (c.rest.length - rest.length), rest⟩)

/-- Read the start of a tag: an exclamation mark and name characters, and a second mark if there
    is one. -/
def handle (c : Cursor) : Option (List Char × Cursor) :=
  match c.rest with
  | '!' :: _ =>
    let c := c.skip 1
    let word := c.rest.takeWhile isNameChar
    let c := c.skipWhile isNameChar
    if c.rest.head? == some '!' then some ('!' :: word ++ ['!'], c.skip 1)
    else some ('!' :: word, c)
  | _ => none

/-- Whether the start of a tag is a handle of its own: two marks. -/
def isHandle (cs : List Char) : Bool := 1 < cs.length && cs.getLast? == some '!'

/-- Read a tag: its handle and its suffix. A tag without a handle has an empty one. -/
def tagParts (c : Cursor) : Option ((List Char × List Char) × Cursor) :=
  match c.rest with
  | '!' :: '<' :: _ => do
    let (suffix, c) ← tagChars true (c.skip 2)
    if suffix.isEmpty || c.rest.head? != some '>' then none else some (([], suffix), c.skip 1)
  | _ => do
    let (first, c) ← handle c
    let (rest, c) ← tagChars false c
    if isHandle first then if rest.isEmpty then none else some ((first, rest), c)
    else if (first ++ rest).length = 1 then some (([], ['!']), c)
    else some ((['!'], first.drop 1 ++ rest), c)

/-- Read a tag, which a blank, a line end or, in a flow collection, a comma ends. -/
def tag (flow : Bool) (c : Cursor) : Option ((List Char × List Char) × Cursor) := do
  let (found, c) ← tagParts c
  if endsWord c.rest || (flow && c.rest.head? == some ',') then some (found, c) else none

/-! ## Directives -/

/-- Read a number of at most nine digits. -/
def versionNumber (c : Cursor) : Option (Nat × Cursor) :=
  let isDigit := fun d => (digitValue? d).isSome
  let found := c.rest.takeWhile isDigit
  if found.isEmpty || 9 < found.length then none
  else some (numeralValue 0 found, c.skipWhile isDigit)

/-- Read a version directive behind its name. -/
def version (c : Cursor) : Option (Token × Cursor) := do
  let (major, c) ← versionNumber (c.skipWhile isBlank)
  if c.rest.head? != some '.' then none
  else
    let (minor, c) ← versionNumber (c.skip 1)
    some (.version major minor, c)

/-- Read a directive for the handle of tags behind its name. -/
def tagDirective (c : Cursor) : Option (Token × Cursor) := do
  let (first, c) ← handle (c.skipWhile isBlank)
  if !(first.length = 1 || isHandle first) || !(c.rest.head?.any isBlank) then none
  else
    let (expansion, c) ← tagChars true (c.skipWhile isBlank)
    if expansion.isEmpty || !endsWord c.rest then none else some (.handle first expansion, c)

/-- Read a directive behind its percent sign, and the end of its line. -/
def directive (c : Cursor) : Option (Token × Cursor) := do
  let word := c.rest.takeWhile isNameChar
  let c := c.skipWhile isNameChar
  if !endsWord c.rest then none
  else
    let (token, c) ←
      if word = "YAML".toList then version c
      else if word = "TAG".toList then tagDirective c
      else none
    some (token, ← endLine? c)

end SigVerdict.Yaml
