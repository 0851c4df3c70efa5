import SigVerdict.Format.Toml.Lexeme
import SigVerdict.Format.Toml.Literal

set_option autoImplicit false

/-! # Reading TOML

A document is a row of lines, each of which gives a key a value, opens a table or is empty. Values
may hold others only up to a depth. -/

namespace SigVerdict.Toml

/-! ## Values -/

mutual

/-- Read a value; arrays and tables may stand inside each other up to a depth. -/
def value (depth : Nat) (cs : List Char) : Option (Toml × List Char) :=
  match cs, depth with
  | '"' :: '"' :: '"' :: cs, _ => (block .double cs).map fun (s, cs) => (.text s, cs)
  | '\'' :: '\'' :: '\'' :: cs, _ => (block .single cs).map fun (s, cs) => (.text s, cs)
  | '"' :: cs, _ => (line .double cs).map fun (s, cs) => (.text s, cs)
  | '\'' :: cs, _ => (line .single cs).map fun (s, cs) => (.text s, cs)
  | '[' :: _, 0 => none
  | '\x7b' :: _, 0 => none
  | '[' :: cs, depth + 1 => items depth (cs.length + 1) [] cs
  | '\x7b' :: cs, depth + 1 =>
    match skipSpaces cs with
    | '\x7d' :: cs => some (emptyTable .braces, cs)
    | _ => pairs depth (cs.length + 1) (emptyTable .braces) cs
  | cs, _ => literal cs
termination_by (depth, 0)

/-- Read the rest of an array behind the items that are held, of which at most `fuel` come. -/
def items (depth fuel : Nat) (held : List Toml) (cs : List Char) :
    Option (Toml × List Char) :=
  match fuel with
  | 0 => none
  | fuel + 1 =>
    match skipLines false cs with
    | ']' :: cs => some (.array held.reverse, cs)
    | cs => do
      let (item, cs) ← value depth cs
      match skipLines false cs with
      | ',' :: cs => items depth fuel (item :: held) cs
      | ']' :: cs => some (.array (item :: held).reverse, cs)
      | _ => none
termination_by (depth, fuel)

/-- Read the rest of a table between braces, of whose entries at most `fuel` come. -/
def pairs (depth fuel : Nat) (held : Toml) (cs : List Char) : Option (Toml × List Char) :=
  match fuel with
  | 0 => none
  | fuel + 1 => do
    let ((path, key), cs) ← keyPath cs
    let '=' :: cs := cs | none
    let (entry, cs) ← value depth (skipSpaces cs)
    let held ← assign path key entry held
    match skipSpaces cs with
    | ',' :: cs => pairs depth fuel held cs
    | '\x7d' :: cs => some (held, cs)
    | _ => none
termination_by (depth, fuel)

end

/-! ## Lines -/

/-- A document so far: its table, and the path of the table whose entries come next. -/
structure Builder where
  root : Toml
  current : List String

namespace Builder

/-- A header that opens a table. -/
def openTable (b : Builder) (path : List String) (key : String) : Option Builder := do
  some ⟨← change .header (Toml.openTable key) path b.root, path ++ [key]⟩

/-- A header that opens the next table of an array. -/
def openRow (b : Builder) (path : List String) (key : String) : Option Builder := do
  some ⟨← change .header (Toml.openRow key) path b.root, path ++ [key]⟩

/-- An entry of the current table. -/
def assign (b : Builder) (path : List String) (key : String) (entry : Toml) : Option Builder := do
  let grow := fun origin entries => Toml.assign path key entry (.table origin entries)
  let root ← change .header grow b.current b.root
  some { b with root }

end Builder

/-- Read one line that is not empty. -/
def readLine (b : Builder) : Reader Builder
  | '[' :: '[' :: cs => do
    let ((path, key), cs) ← keyPath cs
    let ']' :: ']' :: cs := cs | none
    some (← b.openRow path key, ← endLine? cs)
  | '[' :: cs => do
    let ((path, key), cs) ← keyPath cs
    let ']' :: cs := cs | none
    some (← b.openTable path key, ← endLine? cs)
  | cs => do
    let ((path, key), cs) ← keyPath cs
    let '=' :: cs := cs | none
    let (entry, cs) ← value (nestingBound - 1) (skipSpaces cs)
    some (← b.assign path key entry, ← endLine? cs)

/-- Read lines to the end of a text, of which at most `fuel` come. -/
def readLines : Nat → Builder → List Char → Option Builder
  | 0, _, _ => none
  | fuel + 1, b, cs =>
    match skipSpaces cs with
    | [] => some b
    | '#' :: _ => (endLine? cs).bind (readLines fuel b)
    | '\n' :: cs => readLines fuel b cs
    | '\r' :: '\n' :: cs => readLines fuel b cs
    | cs => (readLine b cs).bind fun (b, cs) => readLines fuel b cs

/-- A text without the byte order mark at its start. -/
def withoutMark : List Char → List Char
  | '\ufeff' :: cs => cs
  | cs => cs

/-- Read a TOML document. -/
def parse? (cs : List Char) : Option Toml :=
  let cs := withoutMark cs
  (readLines (cs.length + 1) ⟨emptyTable .header, []⟩ cs).map Builder.root

end SigVerdict.Toml
