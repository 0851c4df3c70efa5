import SigVerdict.Status.Outcome
import SigVerdict.Text.Split

set_option autoImplicit false

/-! # Status streams

A stream is a text of status lines. Its items are what its lines give, in order: an outcome, or a
fault that names its line. A decoder reads the items one after another and goes on behind a
fault. A session works with several decoders of one stream, each at its own place. -/

namespace SigVerdict.Status

open Text

/-! ## Lines

A status line is a marker, a keyword and the keyword's arguments, parted by blanks. A line without
a keyword, or with one that is not registered, is skipped. A kind that declares no fields takes no
notice of arguments; of all others the last declared field is the rest of the line. -/

/-- The arguments of a kind in the text behind its keyword. -/
def argumentsOf (kind : Kind) (rest : List Char) : List String :=
  (pieces kind.fields.length rest).map String.ofList

/-- Decode one status line; `none` is a line that is skipped. -/
def decodeLine (line : List Char) : Except FieldFault (Option Outcome) :=
  match pieces 3 (trimEnd line) with
  | _ :: word :: rest =>
    match Kind.ofKeyword? (String.ofList word) with
    | none => .ok none
    | some kind => (Outcome.read kind (argumentsOf kind (rest.headD []))).map some
  | _ => .ok none

/-! ## Streams -/

/-- A line of a stream whose keyword is registered and whose arguments are not as declared. -/
structure LineFault where
  number : Nat
  line : String
  cause : FieldFault
  deriving DecidableEq, Repr

namespace LineFault

/-- The wording of a line fault. -/
def message (f : LineFault) : String :=
  s!"Malformed GnuPG status line {decimal f.number} ('{f.line}'): {f.cause.message}"

/-- The messages of what caused a line fault. -/
def causes (f : LineFault) : List String := f.cause.message :: f.cause.causes

end LineFault

/-- What a line of a stream gives. -/
abbrev Item := Except LineFault Outcome

/-- The item of a numbered line, unless the line is skipped. -/
def itemOfLine? (number : Nat) (line : List Char) : Option Item :=
  match decodeLine line with
  | .ok none => none
  | .ok (some outcome) => some (.ok outcome)
  | .error cause => some (.error ⟨number, String.ofList line, cause⟩)

/-- The items of numbered lines. -/
def itemsOfLines (lines : List (Nat × List Char)) : List Item :=
  lines.filterMap fun (number, line) => itemOfLine? number line

/-- The items of a stream. -/
def items (text : List Char) : List Item := itemsOfLines (numberedLines text)

/-- All outcomes, or the first fault. -/
def collect : List Item → Except LineFault (List Outcome)
  | [] => .ok []
  | .error fault :: _ => .error fault
  | .ok outcome :: rest => (collect rest).map (outcome :: ·)

/-! ## Decoders -/

/-- A decoder: the numbered lines that it has not read yet. -/
structure Decoder where
  lines : List (Nat × List Char)
  deriving DecidableEq, Repr

namespace Decoder

/-- A decoder at the start of a stream. -/
def ofText (text : List Char) : Decoder := ⟨numberedLines text⟩

/-- The items that a decoder has yet to give. -/
def items (d : Decoder) : List Item := itemsOfLines d.lines

/-- Read lines up to the first that gives an item. -/
def nextOf : List (Nat × List Char) → Option Item × Decoder
  | [] => (none, ⟨[]⟩)
  | (number, line) :: rest =>
    match itemOfLine? number line with
    | some item => (some item, ⟨rest⟩)
    | none => nextOf rest

/-- The next item, and the decoder behind it. -/
def next (d : Decoder) : Option Item × Decoder := nextOf d.lines

/-- Read lines up to the first fault. -/
def collectOf : List (Nat × List Char) → Except LineFault (List Outcome) × Decoder
  | [] => (.ok [], ⟨[]⟩)
  | (number, line) :: rest =>
    match itemOfLine? number line with
    | none => collectOf rest
    | some (.error fault) => (.error fault, ⟨rest⟩)
    | some (.ok outcome) =>
      let (result, d) := collectOf rest
      (result.map (outcome :: ·), d)

/-- All outcomes that are left, or the first fault, and the decoder behind what was read. -/
def collect (d : Decoder) : Except LineFault (List Outcome) × Decoder := collectOf d.lines

/-- Read lines to the end and count those that give an item. -/
def countOf : List (Nat × List Char) → Nat × Decoder
  | [] => (0, ⟨[]⟩)
  | (number, line) :: rest =>
    match itemOfLine? number line with
    | none => countOf rest
    | some _ =>
      let (left, d) := countOf rest
      (left + 1, d)

/-- The number of items that are left, and the decoder at the end. -/
def count (d : Decoder) : Nat × Decoder := countOf d.lines

end Decoder

/-! ## Sessions -/

/-- A step of a session, which names a decoder by its number. -/
inductive Step where
  | next (decoder : Nat)
  | clone (decoder : Nat)
  | fresh
  | count (decoder : Nat)
  | collect (decoder : Nat)
  deriving DecidableEq, Repr

/-- The answer to a step. -/
inductive Answer where
  | item (item : Option Item)
  | decoder (number : Nat)
  | count (left : Nat)
  | collected (result : Except LineFault (List Outcome))
  /-- There is no decoder of that number. -/
  | unknown

/-- The decoders of one stream. -/
structure Session where
  text : List Char
  decoders : List Decoder

namespace Session

/-- A session with one decoder at the start of a stream. -/
def ofText (text : List Char) : Session := ⟨text, [.ofText text]⟩

/-- Take one step. -/
def step (s : Session) : Step → Answer × Session
  | .fresh => (.decoder s.decoders.length, { s with decoders := s.decoders ++ [.ofText s.text] })
  | .clone i =>
    match s.decoders[i]? with
    | none => (.unknown, s)
    | some d => (.decoder s.decoders.length, { s with decoders := s.decoders ++ [d] })
  | .next i =>
    match s.decoders[i]? with
    | none => (.unknown, s)
    | some d => (.item d.next.1, { s with decoders := s.decoders.set i d.next.2 })
  | .count i =>
    match s.decoders[i]? with
    | none => (.unknown, s)
    | some d => (.count d.count.1, { s with decoders := s.decoders.set i d.count.2 })
  | .collect i =>
    match s.decoders[i]? with
    | none => (.unknown, s)
    | some d => (.collected d.collect.1, { s with decoders := s.decoders.set i d.collect.2 })

/-- Take steps one after another. -/
def run (s : Session) : List Step → List Answer × Session
  | [] => ([], s)
  | step :: steps =>
    let (answer, s) := s.step step
    let (answers, s) := s.run steps
    (answer :: answers, s)

end Session

end SigVerdict.Status
