import SigVerdict.Text.Numeral
import SigVerdict.Text.Wrap

set_option autoImplicit false

/-! # Rejections

A rejection says why a signature did not verify: the reasons, each once and in order, what the
run wrote and how it ended. Its report shows each reason as a bullet point below a heading, or,
without reasons, what the run wrote. -/

namespace SigVerdict.Signature

open Text

/-- Put a text into its place in a sorted list, unless the list has it. -/
def insertReason (reason : String) : List String → List String
  | [] => [reason]
  | first :: rest =>
    if reason = first then first :: rest
    else if reason < first then reason :: first :: rest
    else first :: insertReason reason rest

/-- The given texts, sorted by code points and each once. -/
def reasonSet (reasons : List String) : List String := reasons.foldr insertReason []

/-- Why a signature did not verify. `ignored` is set when all the kinds of status that the run
    reported are to be ignored. -/
structure Rejection where
  reasons : List String
  statusOutput : String
  exitCode : Int
  ignored : Bool
  deriving DecidableEq, Repr

namespace Rejection

/-- The reasons of a report, each a bullet point on lines of its own. -/
def bulletPoints (reasons : List String) : List Char :=
  reasons.flatMap fun reason => '\n' :: Wrap.bulletPoint reason.toList

/-- The report of a rejection of a signature of a collection. -/
def report (r : Rejection) (collection : String) : String :=
  if r.reasons.isEmpty then
    "Unexpected error for '" ++ collection ++
      "': GnuPG signature verification failed with the return code " ++ integerText r.exitCode ++
      " and output " ++ r.statusOutput
  else
    "Signature verification failed for '" ++ collection ++ "' (return code " ++
      integerText r.exitCode ++ "):" ++ String.ofList (bulletPoints r.reasons)

/-- A rejection on one line. -/
def message (r : Rejection) : String :=
  let heading := "GnuPG rejected the signature (return code " ++ integerText r.exitCode ++ ")"
  if r.reasons.isEmpty then heading else heading ++ ": " ++ "; ".intercalate r.reasons

end Rejection

end SigVerdict.Signature
