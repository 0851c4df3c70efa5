import SigVerdict.Format.Yaml.Char
import SigVerdict.Format.Yaml.Token
import SigVerdict.Text.Numeral

set_option autoImplicit false

/-! # Scalars of YAML

Readers of scalars in each of their styles. Blanks and line ends between the words of a scalar
form a gap: blanks within a line are kept, the end of one line becomes a space, and further line
ends are kept. -/

namespace SigVerdict.Yaml

open Text

/-! ## Gaps -/

/-- What stands between two words of a scalar. -/
inductive Gap where
  /-- Blanks within a line, last one first. -/
  | blanks (held : List Char)
  /-- The end of a line, unless it was taken away, and further line ends, last one first. -/
  | lines (first : Option Char) (more : List Char)
  deriving DecidableEq, Repr

namespace Gap

/-- No gap. -/
def none : Gap := .blanks []

/-- Whether there is a gap. -/
def isSome : Gap → Bool
  | .blanks held => !held.isEmpty
  | .lines .. => true

/-- Whether a gap has the end of a line. -/
def isLines : Gap → Bool
  | .blanks _ => false
  | .lines .. => true

/-- A gap with one more blank; blanks at the start of a line are dropped. -/
def addBlank (c : Char) : Gap → Gap
  | .blanks held => .blanks (c :: held)
  | gap => gap

/-- A gap with one more line end. -/
def addBreak (c : Char) : Gap → Gap
  | .blanks _ => .lines (some (keptBreak c)) []
  | .lines first more => .lines first (keptBreak c :: more)

/-- What a gap leaves in the text, last character first. -/
def fold : Gap → List Char
  | .blanks held => held
  | .lines (some '\n') [] => [' ']
  | .lines (some '\n') more => more
  | .lines (some c) more => more ++ [c]
  | .lines .none more => more

end Gap

/-- A scalar that has been read. -/
structure Scanned where
  text : List Char
  cursor : Cursor
  /-- Whether the reader went over the end of a line behind the last word. -/
  crossedLine : Bool := false

/-! ## Plain scalars -/

/-- Whether a character delimits the parts of a flow collection. -/
def isFlowMark (c : Char) : Bool :=
  c == ',' || c == '[' || c == ']' || c == '\x7b' || c == '\x7d'

/-- Whether a plain scalar ends before a character, where `flow` says that it stands in a flow
    collection. -/
def endsPlain (flow : Bool) (c : Char) (cs : List Char) : Bool :=
  (c == ':' && endsWord cs) || (flow && isFlowMark c)

/-- Whether a colon stands where none may stand in a flow collection. -/
def isStrayColon (flow : Bool) (c : Char) (cs : List Char) : Bool :=
  flow && c == ':' &&
    match cs with
    | d :: _ => isFlowMark d || d == '?'
    | [] => false

/-- Read the rest of a plain scalar whose lines start at least at column `margin`. -/
def plainFrom (flow : Bool) (margin : Nat) (held : List Char) (gap : Gap) (p : Position) :
    List Char → Option Scanned
  | [] => some ⟨held.reverse, ⟨p, []⟩, gap.isLines⟩
  | '\r' :: '\n' :: cs => plainFrom flow margin held (gap.addBreak '\n') (p.newLine 2) cs
  | c :: cs =>
    if isBreak c then plainFrom flow margin held (gap.addBreak c) (p.newLine 1) cs
    else if isBlank c then
      if gap.isLines && p.column < margin && c == '\t' then none
      else plainFrom flow margin held (gap.addBlank c) (p.forward 1) cs
    else
      let ended : Option Scanned := some ⟨held.reverse, ⟨p, c :: cs⟩, gap.isLines⟩
      if gap.isLines && !flow && p.column < margin then ended
      else if p.column = 0 && startsMarker (c :: cs) then ended
      else if gap.isSome && c == '#' then ended
      else if isStrayColon flow c cs then none
      else if endsPlain flow c cs then ended
      else plainFrom flow margin (c :: (gap.fold ++ held)) .none (p.forward 1) cs

/-! ## Scalars in quotes -/

/-- What stands behind a backslash for one character. -/
def unescape? : Char → Option Char
  | '0' => some '\x00'
  | 'a' => some '\x07'
  | 'b' => some '\x08'
  | 't' => some '\t'
  | '\t' => some '\t'
  | 'n' => some '\n'
  | 'v' => some '\x0b'
  | 'f' => some '\x0c'
  | 'r' => some '\r'
  | 'e' => some '\x1b'
  | ' ' => some ' '
  | '"' => some '"'
  | '/' => some '/'
  | '\\' => some '\\'
  | 'N' => some '\u0085'
  | '_' => some '\u00a0'
  | 'L' => some '\u2028'
  | 'P' => some '\u2029'
  | _ => none

/-- How many hexadecimal digits follow a letter behind a backslash. -/
def codeLength? : Char → Option Nat
  | 'x' => some 2
  | 'u' => some 4
  | 'U' => some 8
  | _ => none

/-- What a reader of a quoted scalar is in the middle of. -/
inductive Phase where
  | text (gap : Gap)
  | escape
  | code (value left : Nat)
  deriving DecidableEq, Repr

/-- Read the rest of a scalar between double quotes. -/
def doubleFrom (held : List Char) (phase : Phase) (p : Position) : List Char → Option Scanned
  | [] => none
  | '\r' :: '\n' :: cs =>
    match phase with
    | .text gap => doubleFrom held (.text (gap.addBreak '\n')) (p.newLine 2) cs
    | .escape => doubleFrom held (.text (.lines none [])) (p.newLine 2) cs
    | .code .. => none
  | c :: cs =>
    match phase with
    | .text gap =>
      if isBreak c then doubleFrom held (.text (gap.addBreak c)) (p.newLine 1) cs
      else if p.column = 0 && startsMarker (c :: cs) then none
      else if isBlank c then doubleFrom held (.text (gap.addBlank c)) (p.forward 1) cs
      else if c == '"' then some ⟨(gap.fold ++ held).reverse, ⟨p.forward 1, cs⟩, false⟩
      else if c == '\\' then doubleFrom (gap.fold ++ held) .escape (p.forward 1) cs
      else doubleFrom (c :: (gap.fold ++ held)) (.text .none) (p.forward 1) cs
    | .escape =>
      if isBreak c then doubleFrom held (.text (.lines none [])) (p.newLine 1) cs
      else match unescape? c, codeLength? c with
        | some c, _ => doubleFrom (c :: held) (.text .none) (p.forward 1) cs
        | none, some left => doubleFrom held (.code 0 left) (p.forward 1) cs
        | none, none => none
    | .code value left =>
      match hexValue? c with
      | none => none
      | some d =>
        if left = 1 then
          match charOf? (16 * value + d) with
          | some c => doubleFrom (c :: held) (.text .none) (p.forward 1) cs
          | none => none
        else doubleFrom held (.code (16 * value + d) (left - 1)) (p.forward 1) cs

/-- Read the rest of a scalar between single quotes. -/
def singleFrom (held : List Char) (gap : Gap) (p : Position) : List Char → Option Scanned
  | [] => none
  | '\r' :: '\n' :: cs => singleFrom held (gap.addBreak '\n') (p.newLine 2) cs
  | '\'' :: '\'' :: cs => singleFrom ('\'' :: (gap.fold ++ held)) .none (p.forward 2) cs
  | c :: cs =>
    if isBreak c then singleFrom held (gap.addBreak c) (p.newLine 1) cs
    else if p.column = 0 && startsMarker (c :: cs) then none
    else if isBlank c then singleFrom held (gap.addBlank c) (p.forward 1) cs
    else if c == '\'' then some ⟨(gap.fold ++ held).reverse, ⟨p.forward 1, cs⟩, false⟩
    else singleFrom (c :: (gap.fold ++ held)) .none (p.forward 1) cs

/-! ## Block scalars -/

/-- What happens to the line ends behind the last line of a block scalar. -/
inductive Chomping where
  | strip
  | clip
  | keep
  deriving DecidableEq, Repr

/-- The lines of a block scalar so far. -/
structure Lines where
  /-- The text, last character first, without the end of the last line. -/
  held : List Char
  /-- The end of the last line with a word. -/
  first : Option Char
  /-- The ends of the empty lines behind it, last one first. -/
  more : List Char
  /-- Whether the last line with a word starts with a blank. -/
  indented : Bool
  deriving Repr

namespace Lines

/-- No lines. -/
def empty : Lines := ⟨[], none, [], false⟩

/-- Go on with a line that starts with a character. In a folded scalar the end of a line becomes
    a space unless the lines at its sides start with blanks. -/
def startLine (l : Lines) (folded : Bool) (c : Char) : Lines :=
  let fold := folded && l.first == some '\n' && !l.indented && !isBlank c
  let ended := if fold then (if l.more.isEmpty then [' '] else []) else l.first.toList
  ⟨c :: (l.more ++ ended ++ l.held), none, [], isBlank c⟩

/-- The text of the lines. -/
def close (l : Lines) (chomping : Chomping) : List Char :=
  let ended := if chomping = .strip then [] else l.first.toList
  let more := if chomping = .keep then l.more else []
  (more ++ ended ++ l.held).reverse

end Lines

/-- Where a reader of a block scalar stands in its line. -/
inductive Place where
  /-- In front of the first word; `deepest` is the deepest column of a blank line so far. -/
  | margin (deepest : Nat)
  | words
  deriving DecidableEq, Repr

/-- Read the rest of a block scalar. `indent` is the column of its lines once it is known; then
    it is at least `least`. -/
def blockFrom (folded : Bool) (chomping : Chomping) (least : Nat) (indent : Option Nat) (l : Lines)
    (place : Place) (p : Position) : List Char → Option Scanned
  | [] => some ⟨l.close chomping, ⟨p, []⟩, false⟩
  | c :: cs =>
    match place with
    | .words =>
      if c == '\r' && cs.head? == some '\n' then
        blockFrom folded chomping least indent l .words ⟨p.index + 1, p.line, p.column⟩ cs
      else if isBreak c then
        blockFrom folded chomping least indent { l with first := some (keptBreak c) } (.margin 0)
          (p.newLine 1) cs
      else blockFrom folded chomping least indent { l with held := c :: l.held } .words
        (p.forward 1) cs
    | .margin deepest =>
      let shallow := indent.all fun n => p.column < n
      if c == ' ' && shallow then
        blockFrom folded chomping least indent l (.margin deepest) (p.forward 1) cs
      else if c == '\t' && shallow then none
      else if c == '\r' && cs.head? == some '\n' then
        blockFrom folded chomping least indent l place ⟨p.index + 1, p.line, p.column⟩ cs
      else if isBreak c then
        blockFrom folded chomping least indent { l with more := keptBreak c :: l.more }
          (.margin (max deepest p.column)) (p.newLine 1) cs
      else
        let known := indent.getD (max (max deepest p.column) least)
        if p.column = known then
          blockFrom folded chomping least (some known) (l.startLine folded c) .words
            (p.forward 1) cs
        else some ⟨l.close chomping, ⟨p, c :: cs⟩, false⟩

/-- The chomping of an indicator. -/
def chomping? : Char → Option Chomping
  | '+' => some .keep
  | '-' => some .strip
  | _ => none

/-- A digit that says how deep the lines of a block scalar stand. -/
def depth? (c : Char) : Option Nat :=
  if '1' ≤ c ∧ c ≤ '9' then some (c.toNat - 48) else none

/-- The indicators of a block scalar: its chomping and its depth, in either order, and how many
    characters they take. -/
def blockHeader (cs : List Char) : Chomping × Option Nat × Nat :=
  match cs with
  | [] => (.clip, none, 0)
  | c :: cs =>
    match chomping? c, depth? c with
    | some chomping, _ =>
      match cs.head?.bind depth? with
      | some depth => (chomping, some depth, 2)
      | none => (chomping, none, 1)
    | none, some depth =>
      match cs.head?.bind chomping? with
      | some chomping => (chomping, some depth, 2)
      | none => (.clip, some depth, 1)
    | none, none => (.clip, none, 0)

/-- The cursor behind the blanks and the comment at the end of a line, and behind the line. -/
def endLine? (c : Cursor) : Option Cursor :=
  let c := c.skipWhile isBlank
  let c := if c.rest.head? == some '#' then c.skipWhile (!isBreak ·) else c
  if endsLine c.rest then some c.skipBreak else none

/-- Read a block scalar behind its first indicator, in a block whose parts stand at least at
    column `margin`. -/
def block (folded : Bool) (margin : Nat) (c : Cursor) : Option Scanned := do
  let (chomping, depth, length) := blockHeader c.rest
  let c ← endLine? (c.skip length)
  let indent := depth.map fun d => margin - 1 + d
  blockFrom folded chomping (max margin 1) indent .empty (.margin 0) c.position c.rest

end SigVerdict.Yaml
