import SigVerdict.Format.Document
import SigVerdict.Status.Kind
import SigVerdict.Time.Instant

set_option autoImplicit false

/-! # Outcomes

An outcome is a decoded status: a kind with one value for each field that the kind declares.
`Outcome.read` builds one from arguments. It fails at the first argument, in declared order, that
is missing or does not have its field's type, and only then at an argument too many. -/

namespace SigVerdict.Status

open Text

/-- A decoded status. -/
structure Outcome where
  kind : Kind
  values : List Value
  fit : Fit kind.fields values

/-- Why arguments make no outcome of a kind. -/
inductive FieldFault where
  | missing (kind : Kind) (field : String)
  | invalidInteger (kind : Kind) (field value : String) (cause : IntegerFault)
  | unexpected (kind : Kind) (expected : Nat) (value : String)
  deriving DecidableEq, Repr

namespace FieldFault

/-- The kind whose arguments are at fault. -/
def kind : FieldFault → Kind
  | .missing kind _ | .invalidInteger kind _ _ _ | .unexpected kind _ _ => kind

/-- The wording of a field fault. -/
def message : FieldFault → String
  | .missing kind field => s!"{kind.keyword} is missing its '{field}' argument"
  | .invalidInteger kind field value cause =>
    s!"{kind.keyword} argument '{field}' must be an integer, got '{value}': {cause.message}"
  | .unexpected kind expected value =>
    s!"{kind.keyword} takes {decimal expected} argument(s), got unexpected '{value}'"

/-- The messages of what caused a field fault. -/
def causes : FieldFault → List String
  | .invalidInteger _ _ _ cause => [cause.message]
  | _ => []

end FieldFault

/-! ## Reading arguments -/

/-- The values of arguments, read as the given fields of a kind declare them. -/
def readValues (kind : Kind) : List Field → List String → Except FieldFault (List Value)
  | [], [] => .ok []
  | [], argument :: _ => .error (.unexpected kind kind.fields.length argument)
  | f :: fs, [] =>
    if f.optional then (readValues kind fs []).map (Value.absent :: ·)
    else .error (.missing kind f.name)
  | f :: fs, argument :: arguments =>
    match f.read argument with
    | .error cause => .error (.invalidInteger kind f.name argument cause)
    | .ok v => (readValues kind fs arguments).map (v :: ·)

theorem fit_of_readValues {kind : Kind} {fs : List Field} {arguments : List String}
    {vs : List Value} (h : readValues kind fs arguments = .ok vs) : Fit fs vs := by
  induction fs generalizing arguments vs with
  | nil =>
    cases arguments with
    | nil =>
      cases h
      trivial
    | cons => cases h
  | cons f fs ih =>
    cases arguments with
    | nil =>
      rw [readValues] at h
      split at h
      · next optional =>
        cases hr : readValues kind fs [] with
        | error e => simp [hr, Except.map] at h
        | ok ws =>
          simp only [hr, Except.map, Except.ok.injEq] at h
          subst h
          exact ⟨optional, ih hr⟩
      · cases h
    | cons argument arguments =>
      rw [readValues] at h
      split at h
      · cases h
      · next v hv =>
        cases hr : readValues kind fs arguments with
        | error e => simp [hr, Except.map] at h
        | ok ws =>
          simp only [hr, Except.map, Except.ok.injEq] at h
          subst h
          exact ⟨Field.accepts_of_read hv, ih hr⟩

namespace Outcome

/-- The outcome of a kind with the given arguments. -/
def read (kind : Kind) (arguments : List String) : Except FieldFault Outcome :=
  match h : readValues kind kind.fields arguments with
  | .error fault => .error fault
  | .ok values => .ok ⟨kind, values, fit_of_readValues h⟩

/-- The names of the fields with their written values; an absent one is left out. -/
def arguments (o : Outcome) : List (String × String) :=
  (o.kind.fields.zip o.values).filterMap fun (f, v) => v.written?.map (f.name, ·)

/-- An outcome as it stands on a status line, behind the line's marker. -/
def render (o : Outcome) : String :=
  o.arguments.foldl (fun text argument => text ++ " " ++ argument.2) o.kind.keyword

/-- The value of a field. -/
def value? (o : Outcome) (name : String) : Option Value :=
  (o.kind.fields.zip o.values).findSome? fun (f, v) => if f.name == name then some v else none

/-- The identifier of the key that an outcome is about. -/
def keyId? (o : Outcome) : Option String :=
  match o.value? "keyid" with
  | some (.text s) => some s
  | _ => none

/-- The point in time that an outcome carries, if it has a date. -/
def timestamp? (o : Outcome) : Option String := do
  let .number seconds ← o.value? (← o.kind.timeField?) | none
  Instant.render? seconds

/-- The explanation of an outcome. -/
def description (o : Outcome) : String := o.kind.description

end Outcome

/-! ## Documents

What other programs are shown of outcomes and of the registry. -/

/-- A value as a document. -/
def Value.document : Value → Document
  | .text s => .text s
  | .number n => .number n
  | .absent => .null

/-- An outcome as a document: its keyword and then its fields. -/
def Outcome.document (o : Outcome) : Document :=
  .record (("status", .text o.kind.keyword) ::
    (o.kind.fields.zip o.values).map fun (f, v) => (f.name, v.document))

/-- Outcomes as a document. -/
def documentOf (outcomes : List Outcome) : Document := .list (outcomes.map Outcome.document)

/-- A kind as an entry of the registry. -/
def Kind.document (kind : Kind) : Document :=
  .record [
    ("keyword", .text kind.keyword),
    ("fields", .texts (kind.fields.map Field.name)),
    ("description", .text kind.description)]

/-- The registry as a document. -/
def registryDocument : Document := .list (Kind.all.map Kind.document)

end SigVerdict.Status
