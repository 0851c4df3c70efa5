import SigVerdict.Format.Yaml.Property
import SigVerdict.Format.Yaml.Scalar

set_option autoImplicit false

/-! # Cutting YAML into tokens

A scanner keeps track of the blocks that are open by their columns and of how many flow
collections are open. A node that a colon follows in its line is a key: the place of the token
that may turn out to start a key is remembered, and the tokens for the key and for its mapping
are put in front of it when the colon comes. -/

namespace SigVerdict.Yaml

/-- A token that may start a key. -/
structure KeyPlace where
  /-- Whether the node has to be a key, because of its column. -/
  required : Bool
  /-- The number of tokens in front of it. -/
  token : Nat
  position : Position
  deriving DecidableEq, Repr

/-- A scanner in the middle of a text. -/
structure Scanner where
  cursor : Cursor
  /-- The number of flow collections that are open. -/
  flow : Nat := 0
  /-- The least column of what belongs to the innermost open block: one more than the block's own
      column, or zero outside all blocks. -/
  margin : Nat := 0
  /-- The margins of the blocks around it, innermost first. -/
  outer : List Nat := []
  /-- Whether a key may start here. -/
  keyAllowed : Bool := true
  /-- The token that may start a key, in each open flow collection and outside of them, innermost
      first. -/
  keys : List (Option KeyPlace) := [none]
  /-- The tokens so far, last one first, and their number. -/
  tokens : List Token := []
  count : Nat := 0

namespace Scanner

/-- A scanner at the start of a text. -/
def ofText (cs : List Char) : Scanner := { cursor := ⟨.start, cs⟩ }

/-- The column of a scanner. -/
def column (s : Scanner) : Nat := s.cursor.column

/-- Add a token. -/
def push (s : Scanner) (token : Token) : Scanner :=
  { s with tokens := token :: s.tokens, count := s.count + 1 }

/-- Put a token behind the first `place` ones. -/
def insert (s : Scanner) (place : Nat) (token : Token) : Scanner :=
  { s with tokens := s.tokens.insertIdx (s.count - place) token, count := s.count + 1 }

/-- Add the token of an indicator of so many characters. -/
def pushMark (s : Scanner) (token : Token) (length : Nat) : Scanner :=
  ({ s with cursor := s.cursor.skip length }).push token

/-! ## Keys -/

/-- The most characters of a key. -/
def longestKey : Nat := 1024

/-- Whether what stands at a place can no longer be a key at a position. -/
def KeyPlace.isStale (key : KeyPlace) (p : Position) : Bool :=
  key.position.line < p.line || key.position.index + longestKey < p.index

/-- Forget the places where no key can have started; none of them may be required. -/
def dropStaleKeys (s : Scanner) : Option Scanner :=
  let stale := fun (key : KeyPlace) => KeyPlace.isStale key s.cursor.position
  if s.keys.any fun key => key.any fun key => key.required && stale key then none
  else some { s with keys := s.keys.map fun key => key.filter fun key => !stale key }

/-- Forget the place where a key may have started; it may not be required. -/
def dropKey (s : Scanner) : Option Scanner :=
  match s.keys with
  | some key :: keys => if key.required then none else some { s with keys := none :: keys }
  | _ => some s

/-- Remember that a key may start here. -/
def saveKey (s : Scanner) : Option Scanner :=
  if s.keyAllowed then do
    let s ← s.dropKey
    let key := ⟨s.flow == 0 && s.margin == s.column + 1, s.count, s.cursor.position⟩
    some { s with keys := some key :: s.keys.tail }
  else some s

/-! ## Blocks -/

/-- Leave the blocks whose margin is greater than a bound: the margin and those around it, and
    how many blocks end. -/
def leave (bound : Nat) : Nat → List Nat → Nat × List Nat × Nat
  | margin, [] => (margin, [], 0)
  | margin, next :: outer =>
    if bound < margin then
      let (margin, outer, ended) := leave bound next outer
      (margin, outer, ended + 1)
    else (margin, next :: outer, 0)

/-- Close the blocks whose margin is greater than a bound. Flow collections take no notice of
    columns. -/
def closeBlocks (s : Scanner) (bound : Nat) : Scanner :=
  if s.flow == 0 then
    let (margin, outer, ended) := leave bound s.margin s.outer
    { s with
      margin, outer
      tokens := List.replicate ended .blockEnd ++ s.tokens
      count := s.count + ended }
  else s

/-- Open a block at a column, unless one is open there. Its token goes behind the first `place`
    ones. -/
def openBlock (s : Scanner) (column place : Nat) (token : Token) : Scanner :=
  if s.flow == 0 && s.margin ≤ column then
    ({ s with margin := column + 1, outer := s.margin :: s.outer }).insert place token
  else s

/-! ## Between tokens -/

/-- Go to the next token, over blanks, comments and line ends. A tabulator may not stand where a
    key may start, and a key may start behind a line end outside of flow collections. -/
def skipFrom (flow comment : Bool) (keyAllowed : Bool) (p : Position) :
    List Char → Bool × Cursor
  | [] => (keyAllowed, ⟨p, []⟩)
  | c :: cs =>
    if c == '\r' && cs.head? == some '\n' then
      skipFrom flow comment keyAllowed ⟨p.index + 1, p.line, p.column⟩ cs
    else if isBreak c then skipFrom flow false (keyAllowed || !flow) (p.newLine 1) cs
    else if comment || c == '#' then skipFrom flow true keyAllowed (p.forward 1) cs
    else if c == ' ' || (c == '\t' && (flow || !keyAllowed)) ||
        (c == byteOrderMark && p.column == 0) then
      skipFrom flow false keyAllowed (p.forward 1) cs
    else (keyAllowed, ⟨p, c :: cs⟩)

/-- Go to the next token. -/
def skip (s : Scanner) : Scanner :=
  let (keyAllowed, cursor) :=
    skipFrom (s.flow != 0) false s.keyAllowed s.cursor.position s.cursor.rest
  { s with keyAllowed, cursor }

/-! ## Tokens -/

/-- The end of the text. -/
def finish (s : Scanner) : Option Scanner := (s.closeBlocks 0).dropKey

/-- A directive. -/
def directive (s : Scanner) : Option Scanner := do
  let s ← (s.closeBlocks 0).dropKey
  let (token, cursor) ← Yaml.directive (s.cursor.skip 1)
  some ({ s with keyAllowed := false, cursor }.push token)

/-- The marker of a document's start or end. -/
def marker (s : Scanner) (token : Token) : Option Scanner := do
  let s ← (s.closeBlocks 0).dropKey
  some ({ s with keyAllowed := false }.pushMark token 3)

/-- The start of a flow collection. -/
def openFlow (s : Scanner) (token : Token) : Option Scanner := do
  let s ← s.saveKey
  some ({ s with keys := none :: s.keys, flow := s.flow + 1, keyAllowed := true }.pushMark token 1)

/-- The end of a flow collection. -/
def closeFlow (s : Scanner) (token : Token) : Option Scanner := do
  let s ← s.dropKey
  let s := if s.flow == 0 then s else { s with keys := s.keys.tail, flow := s.flow - 1 }
  some ({ s with keyAllowed := false }.pushMark token 1)

/-- A comma in a flow collection. -/
def flowEntry (s : Scanner) : Option Scanner := do
  let s ← s.dropKey
  some ({ s with keyAllowed := true }.pushMark .flowEntry 1)

/-- The dash of an item. -/
def blockEntry (s : Scanner) : Option Scanner := do
  if s.flow == 0 && !s.keyAllowed then none
  else
    let s ← (s.openBlock s.column s.count .blockSequence).dropKey
    some ({ s with keyAllowed := true }.pushMark .blockEntry 1)

/-- The question mark of a key. -/
def key (s : Scanner) : Option Scanner := do
  if s.flow == 0 && !s.keyAllowed then none
  else
    let s ← (s.openBlock s.column s.count .blockMapping).dropKey
    some ({ s with keyAllowed := s.flow == 0 }.pushMark .key 1)

/-- The colon of a value. -/
def value (s : Scanner) : Option Scanner :=
  match s.keys with
  | some key :: keys =>
    let s := { s with keys := none :: keys, keyAllowed := false }
    let s := s.insert key.token .key
    let s := s.openBlock key.position.column key.token .blockMapping
    some (s.pushMark .value 1)
  | _ =>
    if s.flow == 0 && !s.keyAllowed then none
    else
      let s := s.openBlock s.column s.count .blockMapping
      some ({ s with keyAllowed := s.flow == 0 }.pushMark .value 1)

/-- The name of an anchor or of an alias. -/
def named (s : Scanner) (token : List Char → Token) : Option Scanner := do
  let s ← s.saveKey
  let (name, cursor) ← name (s.cursor.skip 1)
  some ({ s with keyAllowed := false, cursor }.push (token name))

/-- A tag. -/
def tag (s : Scanner) : Option Scanner := do
  let s ← s.saveKey
  let ((handle, suffix), cursor) ← Yaml.tag (s.flow != 0) s.cursor
  some ({ s with keyAllowed := false, cursor }.push (.tag handle suffix))

/-- The token of a scalar. -/
def pushScalar (s : Scanner) (style : Style) (keyAllowed : Bool) (found : Scanned) : Scanner :=
  { s with keyAllowed, cursor := found.cursor }.push (.scalar style (String.ofList found.text))

/-- A block scalar. -/
def blockScalar (s : Scanner) (style : Style) : Option Scanner := do
  let s ← s.dropKey
  let found ← block (style == .folded) s.margin (s.cursor.skip 1)
  some (s.pushScalar style true found)

/-- A scalar in quotes. -/
def quoted (s : Scanner) (style : Style) : Option Scanner := do
  let s ← s.saveKey
  let c := s.cursor.skip 1
  let found ← if style == .single then singleFrom [] .none c.position c.rest
    else doubleFrom [] (.text .none) c.position c.rest
  some (s.pushScalar style false found)

/-- A plain scalar. -/
def plain (s : Scanner) : Option Scanner := do
  let s ← s.saveKey
  let found ← plainFrom (s.flow != 0) s.margin [] .none s.cursor.position s.cursor.rest
  some (s.pushScalar .plain found.crossedLine found)

/-- A character that starts no plain scalar. -/
def isIndicator (c : Char) : Bool := "-?:,[]\x7b\x7d#&*!|>'\"%@\x60".toList.contains c

/-- Whether a plain scalar starts with a character. -/
def startsPlain (flow : Bool) (c : Char) (cs : List Char) : Bool :=
  !(isBlank c || isBreak c || isIndicator c) ||
    (c == '-' && !(cs.head?.any isBlank)) ||
    (!flow && (c == '?' || c == ':') && !endsWord cs)

/-- Go to the next token, and leave the keys and blocks that have ended in front of it. -/
def settle (s : Scanner) : Option Scanner := do
  let s ← s.skip.dropStaleKeys
  some (s.closeBlocks (s.column + 1))

/-- Take the token that starts with a character. -/
def fetch (s : Scanner) (c : Char) (cs : List Char) : Option Scanner :=
  let inFlow := s.flow != 0
  if s.column == 0 && c == '%' then s.directive
  else if s.column == 0 && startsMarker (c :: cs) then
    s.marker (if c == '-' then .documentStart else .documentEnd)
  else if c == '[' then s.openFlow .flowSequence
  else if c == '\x7b' then s.openFlow .flowMapping
  else if c == ']' then s.closeFlow .flowSequenceEnd
  else if c == '\x7d' then s.closeFlow .flowMappingEnd
  else if c == ',' then s.flowEntry
  else if c == '-' && endsWord cs then s.blockEntry
  else if c == '?' && (inFlow || endsWord cs) then s.key
  else if c == ':' && (inFlow || endsWord cs) then s.value
  else if c == '*' then s.named .alias
  else if c == '&' then s.named .anchor
  else if c == '!' then s.tag
  else if c == '|' && !inFlow then s.blockScalar .literal
  else if c == '>' && !inFlow then s.blockScalar .folded
  else if c == '\'' then s.quoted .single
  else if c == '"' then s.quoted .double
  else if startsPlain inFlow c cs then s.plain
  else none

/-- Take tokens to the end of the text, of which at most `fuel` come. -/
def run : Nat → Scanner → Option Scanner
  | 0, _ => none
  | fuel + 1, s => do
    let s ← s.settle
    match s.cursor.rest with
    | [] => s.finish
    | c :: cs => (s.fetch c cs).bind (run fuel)

end Scanner

/-- The tokens of a text. -/
def tokens? (cs : List Char) : Option (List Token) :=
  if cs.all isAllowed then
    (Scanner.run (cs.length + 1) (.ofText cs)).map fun s => s.tokens.reverse
  else none

end SigVerdict.Yaml
