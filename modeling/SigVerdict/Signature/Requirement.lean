import SigVerdict.Text.Numeral
import SigVerdict.Text.Integer

set_option autoImplicit false

/-! # How many signatures must verify

A requirement is written as a positive number or as `all`, with a plus sign in front when it is
strict. A strict requirement is never met without a signature that verifies. -/

namespace SigVerdict.Signature

open Text

/-- A number of signatures: at least one, and within 64 bits. -/
structure Count where
  value : Nat
  pos : 0 < value
  lt : value < 0x10000000000000000
  deriving DecidableEq

/-- Which signatures must verify. -/
inductive Required where
  | all
  | count (n : Count)
  deriving DecidableEq

/-- Which signatures must verify, and whether at least one must. -/
structure Requirement where
  strict : Bool
  required : Required
  deriving DecidableEq

/-- Why a text is no requirement. -/
inductive CountFault where
  | malformed
  | unreadable (cause : IntegerFault)
  | zero
  deriving DecidableEq, Repr

/-- The wording of a count fault. -/
def CountFault.message : CountFault → String
  | .malformed => "expected a number or 'all', optionally prefixed with '+'"
  | .unreadable cause => cause.message
  | .zero => "at least one signature must be required"

namespace Requirement

/-- The requirement of a single signature, which is the one in force unless another is given. -/
def single : Requirement := ⟨false, .count ⟨1, by decide, by decide⟩⟩

/-- Whether a text is a row of decimal digits of any scripts. -/
def isDigitRow (cs : List Char) : Bool := !cs.isEmpty && cs.all isDecimalDigit

/-- Read which signatures must verify. A digit of another script than ASCII stands where a digit
    may stand and has no value. -/
def readRequired (cs : List Char) : Except CountFault Required :=
  if cs = "all".toList then .ok .all
  else if isDigitRow cs then
    match readNatural 0xffffffffffffffff cs with
    | .error cause => .error (.unreadable cause)
    | .ok n =>
      if h : 0 < n ∧ n < 0x10000000000000000 then .ok (.count ⟨n, h.1, h.2⟩) else .error .zero
  else .error .malformed

/-- Read a requirement. -/
def read : List Char → Except CountFault Requirement
  | '+' :: cs => (readRequired cs).map (⟨true, ·⟩)
  | cs => (readRequired cs).map (⟨false, ·⟩)

/-- A requirement as it is written. -/
def render (r : Requirement) : List Char :=
  (if r.strict then ['+'] else []) ++
    match r.required with
    | .all => "all".toList
    | .count n => digits n.value

/-- A requirement as a string. -/
def toText (r : Requirement) : String := String.ofList r.render

end Requirement

end SigVerdict.Signature
