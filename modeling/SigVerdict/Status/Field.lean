import SigVerdict.Text.Split
import SigVerdict.Text.Integer

set_option autoImplicit false

/-! # Declared arguments

A status keyword declares its arguments as fields, each with a name and a type. A value fits a
field when it has the field's type; an optional field is also fitted by no value at all. -/

namespace SigVerdict.Status

open Text

/-- The type of an argument. -/
inductive FieldType where
  | text
  | integer (range : IntegerRange)
  deriving DecidableEq, Repr

/-- The name of a type. -/
def FieldType.name : FieldType → String
  | .text => "text"
  | .integer _ => "integer"

/-- One declared argument. -/
structure Field where
  name : String
  type : FieldType
  optional : Bool := false
  deriving DecidableEq, Repr

/-- The value of an argument; `absent` is an optional argument that is not given. -/
inductive Value where
  | text (s : String)
  | number (n : Int)
  | absent
  deriving DecidableEq, Repr

/-- How a value is written, unless it is absent. -/
def Value.written? : Value → Option String
  | .text s => some s
  | .number n => some (integerText n)
  | .absent => none

/-- A value has the type that its field declares. -/
def Field.Accepts (f : Field) : Value → Prop
  | .text _ => f.type = .text
  | .number n => ∃ range, f.type = .integer range ∧ range.Holds n
  | .absent => f.optional = true

/-- Values fit declared fields one by one. -/
def Fit : List Field → List Value → Prop
  | [], [] => True
  | f :: fs, v :: vs => f.Accepts v ∧ Fit fs vs
  | _, _ => False

/-- Read the argument of a field. -/
def Field.read (f : Field) (argument : String) : Except IntegerFault Value :=
  match f.type with
  | .text => .ok (.text argument)
  | .integer range => (readInteger range (trim argument.toList)).map .number

/-! ## A value that is read fits its field -/

theorem Field.accepts_of_read {f : Field} {argument : String} {v : Value}
    (h : f.read argument = .ok v) : f.Accepts v := by
  unfold Field.read at h
  split at h
  · next htype =>
    cases h
    exact htype
  · next range htype =>
    cases hn : readInteger range (trim argument.toList) with
    | error e => simp [hn, Except.map] at h
    | ok n =>
      simp only [hn, Except.map, Except.ok.injEq] at h
      subst h
      exact ⟨range, htype, readInteger_holds hn⟩

end SigVerdict.Status
