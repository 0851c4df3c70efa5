import SigVerdict.Format.Document
import SigVerdict.Signature.Check

set_option autoImplicit false

/-! # The check of several signatures

Signatures are checked one after another. A survey keeps count of those that verified and of
those whose rejection is ignored, and keeps the reports of all other rejections. It stops early
when as many signatures verified as a count requires, and it is cut short by a fault that is no
rejection. A finished survey is judged by the requirement. -/

namespace SigVerdict.Signature

/-- What has been found so far. -/
structure Tally where
  checked : Nat := 0
  successful : Nat := 0
  ignored : Nat := 0
  failures : List String := []
  deriving DecidableEq, Repr

namespace Tally

/-- One more signature that verified. -/
def succeed (t : Tally) : Tally :=
  { t with checked := t.checked + 1, successful := t.successful + 1 }

/-- One more rejection. -/
def reject (t : Tally) (collection : String) (r : Rejection) : Tally :=
  if r.ignored then { t with checked := t.checked + 1, ignored := t.ignored + 1 }
  else { t with checked := t.checked + 1, failures := t.failures ++ [r.report collection] }

end Tally

/-- Whether so many signatures are all that is required. -/
def Required.isMetBy : Required → Nat → Bool
  | .all, _ => false
  | .count n, successful => successful == n.value

/-- A survey: what was found, and the fault that cut it short. -/
structure Survey where
  tally : Tally
  fault : Option Fault
  deriving DecidableEq

section Survey

variable {σ : Type} {m : Type → Type} [Monad m]

/-- Check signatures behind a tally, with `judge` to check one of them, which may act while it does
    so. -/
def surveyFromM (judge : σ → m (Except Fault Unit)) (required : Required) (collection : String) :
    Tally → List σ → m Survey
  | t, [] => return ⟨t, none⟩
  | t, signature :: rest => do
    match ← judge signature with
    | .ok () =>
      if required.isMetBy t.succeed.successful then return ⟨t.succeed, none⟩
      else surveyFromM judge required collection t.succeed rest
    | .error (.rejected r) => surveyFromM judge required collection (t.reject collection r) rest
    | .error fault => return ⟨{ t with checked := t.checked + 1 }, some fault⟩

/-- Check signatures one after another, with a judge that may act. -/
def surveyM (judge : σ → m (Except Fault Unit)) (required : Required) (collection : String)
    (signatures : List σ) : m Survey :=
  surveyFromM judge required collection {} signatures

variable (judge : σ → Except Fault Unit) (required : Required) (collection : String)

/-- Check signatures behind a tally. -/
def surveyFrom (t : Tally) (signatures : List σ) : Survey :=
  Id.run (surveyFromM (fun signature => pure (judge signature)) required collection t signatures)

theorem surveyFrom_nil (t : Tally) : surveyFrom judge required collection t [] = ⟨t, none⟩ := rfl

theorem surveyFrom_cons (t : Tally) (signature : σ) (rest : List σ) :
    surveyFrom judge required collection t (signature :: rest) =
      match judge signature with
      | .ok () =>
        if required.isMetBy t.succeed.successful then ⟨t.succeed, none⟩
        else surveyFrom judge required collection t.succeed rest
      | .error (.rejected r) => surveyFrom judge required collection (t.reject collection r) rest
      | .error fault => ⟨{ t with checked := t.checked + 1 }, some fault⟩ := rfl

/-- Check signatures one after another. -/
def survey (signatures : List σ) : Survey :=
  surveyFrom judge required collection {} signatures

end Survey

/-- The number of signatures for which a command was started: all that were checked but the one
    whose command could not be started. -/
def Survey.started (s : Survey) : Nat :=
  match s.fault with
  | some (.spawn ..) => s.tally.checked - 1
  | _ => s.tally.checked

/-- Why a requirement is not met. -/
inductive Shortfall where
  | noneSuccessful
  | someFailed
  | tooFew
  deriving DecidableEq, Repr

/-- The wording of a shortfall. -/
def Shortfall.message : Shortfall → String
  | .noneSuccessful => "no successful signatures"
  | .someFailed => "some signatures failed"
  | .tooFew => "fewer successful signatures than required"

/-- Why a tally of `total` signatures does not meet a requirement, if it does not. -/
def shortfall? (requirement : Requirement) (total : Nat) (t : Tally) : Option Shortfall :=
  if requirement.strict && t.successful == 0 then some .noneSuccessful
  else
    match requirement.required with
    | .all => if t.failures.isEmpty then none else some .someFailed
    | .count n => if total == 0 || t.successful == n.value then none else some .tooFew

/-- The verdict about the signatures of a collection. -/
structure Report where
  collection : String
  requirement : Requirement
  total : Nat
  successful : Nat
  ignored : Nat
  failures : List String
  shortfall : Option Shortfall
  deriving DecidableEq

namespace Report

/-- The report of a finished survey of `total` signatures. -/
def ofTally (collection : String) (requirement : Requirement) (total : Nat) (t : Tally) : Report :=
  { collection, requirement, total
    successful := t.successful
    ignored := t.ignored
    failures := t.failures
    shortfall := shortfall? requirement total t }

/-- Whether the requirement is met. -/
def verified (r : Report) : Bool := r.shortfall.isNone

/-- What is said of a requirement that is not met. -/
def summary (r : Report) : Option String :=
  r.shortfall.map fun reason =>
    s!"Signature verification failed for '{r.collection}': {reason.message}"

end Report

/-- Judge a survey of so many signatures. -/
def Survey.report (s : Survey) (collection : String) (requirement : Requirement) (total : Nat) :
    Except Fault Report :=
  match s.fault with
  | some fault => .error fault
  | none => .ok (.ofTally collection requirement total s.tally)

/-- Check the signatures of a collection and judge them by a requirement. -/
def checkAll {σ : Type} (judge : σ → Except Fault Unit) (requirement : Requirement)
    (collection : String) (signatures : List σ) : Except Fault Report :=
  (survey judge requirement.required collection signatures).report collection requirement
    signatures.length

/-! ## Documents

What other programs are shown of a requirement and of a report. -/

/-- Which signatures must verify, as a document. -/
def Required.document : Required → Document
  | .all => .text "all"
  | .count n => .variant "count" (.natural n.value)

/-- A requirement as a document. -/
def Requirement.document (r : Requirement) : Document :=
  .record [("strict", .bool r.strict), ("required", r.required.document)]

/-- A report as a document. -/
def Report.document (r : Report) : Document :=
  .record [
    ("collection", .text r.collection),
    ("requirement", r.requirement.document),
    ("total", .natural r.total),
    ("successful", .natural r.successful),
    ("ignored", .natural r.ignored),
    ("failures", .texts r.failures),
    ("verified", .bool r.verified),
    ("summary", .optionalText r.summary)]

end SigVerdict.Signature
