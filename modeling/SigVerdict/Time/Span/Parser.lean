import SigVerdict.Text.Split
import SigVerdict.Text.Numeral
import SigVerdict.Time.Span
import SigVerdict.Time.Span.Units

set_option autoImplicit false

/-! # Reading a span

A span is read as a row of counts with units, such as `1h 30m` or `1.5s`. Blanks may stand
between the parts, also inside a number; a unit ends at a blank, at a digit or at the end. All
arithmetic is done in 64 bits, and a number that leaves them is refused. -/

namespace SigVerdict.Span

open Text

/-- A number that fits 64 bits. -/
def fit (n : Nat) : Option Nat := if n < 0x10000000000000000 then some n else none

/-- A decimal fraction, `numerator / denominator`. -/
structure Fraction where
  numerator : Nat
  denominator : Nat
  deriving DecidableEq, Repr

/-- What a reader of spans is in the middle of. -/
inductive Phase where
  /-- Between two counts; `fresh` before the first one. -/
  | between (fresh : Bool)
  /-- Inside the whole part of a number. -/
  | whole (n : Nat)
  /-- Behind the point of a number. -/
  | fraction (n : Nat) (f : Fraction)
  /-- Inside the name of a unit, whose last letter comes first. -/
  | unit (n : Nat) (f : Option Fraction) (name : List Char)
  deriving DecidableEq, Repr

/-- A letter of a unit's name. -/
def isUnitLetter (c : Char) : Bool :=
  ('a' ≤ c && c ≤ 'z') || ('A' ≤ c && c ≤ 'Z') || c == 'µ'

/-- Lengthen a total, given in nanoseconds. -/
def addLength (total : Nat) (length : Length) : Option Nat := do
  let _ ← fit (total % 1000000000 + length.nanos)
  let sum := total + length.seconds * 1000000000 + length.nanos
  let _ ← fit (sum / 1000000000)
  some sum

/-- Take a unit's length `n` times. -/
def Length.times (l : Length) (n : Nat) : Option Length := do
  some ⟨← fit (n * l.seconds), ← fit (n * l.nanos)⟩

/-- A fraction of a length, cut to its unit. -/
def Length.partOf (l : Length) (f : Fraction) : Option Length := do
  some ⟨(← fit (f.numerator * l.seconds)) / f.denominator,
    (← fit (f.numerator * l.nanos)) / f.denominator⟩

/-- Add a count with its unit to a total. -/
def addCount (total n : Nat) (f : Option Fraction) (name : List Char) : Option Nat := do
  let unit ← unit? name
  let total ← addLength total (← unit.whole.times n)
  match f with
  | none => some total
  | some f => addLength total (← (← unit.part).partOf f)

/-- Read one character: the total behind it and what the reader is then in the middle of. -/
def readChar (total : Nat) (phase : Phase) (c : Char) : Option (Nat × Phase) :=
  match phase with
  | .between fresh =>
    match digitValue? c with
    | some d => some (total, .whole d)
    | none => if isBlank c then some (total, .between fresh) else none
  | .whole n =>
    match digitValue? c with
    | some d => (fit (10 * n + d)).map fun n => (total, .whole n)
    | none =>
      if isBlank c then some (total, .whole n)
      else if isUnitLetter c then some (total, .unit n none [c])
      else if c == '.' then some (total, .fraction n ⟨0, 1⟩)
      else none
  | .fraction n f =>
    match digitValue? c with
    | some d => do
      let numerator ← fit (10 * f.numerator + d)
      let denominator ← fit (10 * f.denominator)
      some (total, .fraction n ⟨numerator, denominator⟩)
    | none =>
      if isBlank c then some (total, .fraction n f)
      else if isUnitLetter c && f.denominator != 1 then some (total, .unit n (some f) [c])
      else none
  | .unit n f name =>
    match digitValue? c with
    | some d => (addCount total n f name.reverse).map fun total => (total, .whole d)
    | none =>
      if isBlank c then (addCount total n f name.reverse).map fun total => (total, .between false)
      else if isUnitLetter c then some (total, .unit n f (c :: name))
      else none

/-- The total at the end of the text. -/
def finish (total : Nat) : Phase → Option Nat
  | .between fresh => if fresh then none else some total
  | .whole _ | .fraction .. => none
  | .unit n f name => addCount total n f name.reverse

/-- Read the rest of a text. -/
def readFrom (total : Nat) (phase : Phase) : List Char → Option Nat
  | [] => finish total phase
  | c :: cs => do
    let (total, phase) ← readChar total phase c
    readFrom total phase cs

/-- Read a span. A lone `0` needs no unit. -/
def parse? (cs : List Char) : Option Span :=
  if cs = ['0'] then ofNanos? 0 else (readFrom 0 (.between true) cs).bind ofNanos?

end SigVerdict.Span
