import SigVerdict.Settings.Basic
import SigVerdict.Signature.Report

set_option autoImplicit false

/-! # Checkers

A checker knows how GnuPG is run, how many signatures must verify and which kinds of status are
ignored. Its policy can be changed step by step; checking leaves it as it is. -/

namespace SigVerdict

open Signature

/-- What is needed to check the signatures of collections. -/
structure Checker where
  verifier : Gpg.Verifier
  requirement : Requirement
  ignored : List Status.Kind
  deriving DecidableEq

/-- The signatures of a collection, with the manifest that they sign. -/
structure Submission where
  collection : String
  manifest : String
  signatures : List String
  deriving DecidableEq, Repr

namespace Checker

/-- The checker that requires one signature and ignores nothing. -/
def ofVerifier (verifier : Gpg.Verifier) : Checker := ⟨verifier, .single, []⟩

/-- How the settings say that GnuPG is run. -/
def verifierOf (s : Settings) : Except Fault Gpg.Verifier :=
  match s.keyring with
  | none => .error .missingKeyring
  | some keyring => .ok ⟨s.executable, keyring, s.timeout⟩

/-- The checker of settings. -/
def ofSettings (s : Settings) : Except Fault Checker := do
  let verifier ← verifierOf s
  let requirement ← s.requirement
  let ignored ← s.ignoredKinds
  .ok ⟨verifier, requirement, ignored⟩

/-- Check one signature of a manifest. -/
def check (c : Checker) (launcher : Gpg.Launcher) (manifest signature : String) :
    Except Fault Unit :=
  Signature.check launcher c.verifier manifest c.ignored signature

/-- Check the signatures of a submission one after another. -/
def survey (c : Checker) (launcher : Gpg.Launcher) (s : Submission) : Survey :=
  Signature.survey (c.check launcher s.manifest) c.requirement.required s.collection s.signatures

/-- Check the signatures of a submission and judge them. -/
def verify (c : Checker) (launcher : Gpg.Launcher) (s : Submission) : Except Fault Report :=
  checkAll (c.check launcher s.manifest) c.requirement s.collection s.signatures

/-! ## Steps -/

/-- A step of work with a checker. -/
inductive Step where
  | require (text : String)
  | ignore (codes : List String)
  | verify (submission : Submission)
  deriving DecidableEq, Repr

/-- The answer to a step. -/
inductive Answer where
  | changed (checker : Checker)
  | verified (survey : Survey) (result : Except Fault Report)
  | failed (fault : Fault)

/-- Take one step; a step that fails changes nothing. -/
def step (c : Checker) (launcher : Gpg.Launcher) : Step → Answer × Checker
  | .require text =>
    match Settings.readRequirement text with
    | .error fault => (.failed fault, c)
    | .ok requirement => (.changed { c with requirement }, { c with requirement })
  | .ignore codes =>
    match Settings.readKinds codes with
    | .error fault => (.failed fault, c)
    | .ok ignored => (.changed { c with ignored }, { c with ignored })
  | .verify submission =>
    (.verified (c.survey launcher submission) (c.verify launcher submission), c)

/-- Take steps one after another. -/
def run (c : Checker) (launcher : Gpg.Launcher) : List Step → List Answer × Checker
  | [] => ([], c)
  | step :: steps =>
    let (answer, c) := c.step launcher step
    let (answers, c) := c.run launcher steps
    (answer :: answers, c)

end Checker

end SigVerdict
