import SigVerdict.Proofs.Checker
import SigVerdict.Proofs.Gpg.Run

set_option autoImplicit false

/-! # Work with a checker, step by step

The steps that change a checker overwrite one part of its policy, or fail and change nothing; the
steps that verify change nothing at all (`Checker.takes_step`). So what a checker has become is told
from the last steps that set something (`Checker.After`), and what it answers to a verification is
told from that alone. -/

namespace SigVerdict.Checker

open Gpg Signature Status

variable {c now next : Checker} {launcher : Launcher} {front : List Step} {step : Step}
  {answer : Answer}

/-! ## What steps set -/

/-- A step sets what is required. -/
def Step.Requires (step : Step) (requirement : Requirement) : Prop :=
  ∃ text, step = .require text ∧ Writes text.toList requirement

/-- A step sets what is ignored. -/
def Step.Ignores (step : Step) (kinds : List Kind) : Prop :=
  step = .ignore (kinds.map Kind.keyword)

/-- Whether a step is about the policy and does not verify anything. -/
def Step.isPolicy : Step → Bool
  | .verify _ => false
  | _ => true

/-- What has been set after some steps: what the last one of them set that sets anything, or else
    what there was at first. -/
inductive LastSet {σ α : Type} (Sets : σ → α → Prop) (initial : α) (steps : List σ) : α → Prop where
  | initial (hnone : ∀ step ∈ steps, ∀ a, ¬Sets step a) : LastSet Sets initial steps initial
  | last {front : List σ} {step : σ} {behind : List σ} {a : α}
      (hsteps : steps = front ++ step :: behind) (hset : Sets step a)
      (hbehind : ∀ later ∈ behind, ∀ b, ¬Sets later b) : LastSet Sets initial steps a

section LastSet

variable {σ α : Type} {Sets : σ → α → Prop} {initial a : α} {steps : List σ} {last : σ}

theorem LastSet.of_sets (hset : Sets last a) : LastSet Sets initial (steps ++ [last]) a :=
  .last rfl hset fun _ => nofun

theorem LastSet.snoc (h : LastSet Sets initial steps a) (hnone : ∀ b, ¬Sets last b) :
    LastSet Sets initial (steps ++ [last]) a := by
  have hlast : ∀ step ∈ [last], ∀ b, ¬Sets step b := List.forall_mem_singleton.2 hnone
  cases h with
  | initial hsteps => exact .initial (List.forall_mem_append.2 ⟨hsteps, hlast⟩)
  | @last front step behind _ hsteps hset hbehind =>
      have hsplit : steps ++ [last] = front ++ step :: (behind ++ [last]) := by
        rw [hsteps, List.append_assoc, List.cons_append]
      exact .last hsplit hset (List.forall_mem_append.2 ⟨hbehind, hlast⟩)

end LastSet

/-! ## One step -/

/-- What a checker answers to a step, and what becomes of it. -/
inductive Takes (launcher : Launcher) (c : Checker) : Step → Answer → Checker → Prop where
  | require {text : String} {requirement : Requirement} (hwrites : Writes text.toList requirement) :
      Takes launcher c (.require text) (.changed { c with requirement }) { c with requirement }
  | requireFails {text : String} {cause : CountFault}
      (hcause : Requirement.read text.toList = .error cause) :
      Takes launcher c (.require text) (.failed (.invalidCount text cause.message)) c
  | ignore (ignored : List Kind) :
      Takes launcher c (.ignore (ignored.map Kind.keyword)) (.changed { c with ignored })
        { c with ignored }
  | ignoreFails {kinds : List Kind} {code : String} {rest : List String}
      (hunknown : ∀ kind : Kind, kind.keyword ≠ code) :
      Takes launcher c (.ignore (kinds.map Kind.keyword ++ code :: rest))
        (.failed (.unknownStatusCode code)) c
  | verify (submission : Submission) :
      Takes launcher c (.verify submission)
        (.verified (c.survey launcher submission) (c.verify launcher submission)) c

theorem takes_step (c : Checker) (launcher : Launcher) (step : Step) :
    Takes launcher c step (c.step launcher step).1 (c.step launcher step).2 := by
  cases step with
  | require text =>
      rw [Checker.step]
      cases hread : Settings.readRequirement text with
      | error fault =>
          obtain ⟨cause, hcause, rfl⟩ := mapError_eq_error_iff.1 hread
          exact .requireFails hcause
      | ok requirement => exact .require (Settings.readRequirement_eq_ok_iff_writes.1 hread)
  | ignore codes =>
      rw [Checker.step]
      cases hread : Settings.readKinds codes with
      | error fault =>
          obtain ⟨kinds, code, rest, rfl, hunknown, rfl⟩ := Settings.readKinds_eq_error_iff.1 hread
          exact .ignoreFails hunknown
      | ok ignored =>
          rw [Settings.readKinds_eq_ok_iff] at hread
          subst hread
          exact .ignore ignored
  | verify submission => exact .verify submission

/-- A text that writes no requirement changes nothing. -/
theorem Takes.eq_of_not_writes {text : String} (h : Takes launcher c (.require text) answer next)
    (hnone : ∀ requirement, ¬Writes text.toList requirement) : next = c := by
  cases h with
  | require hwrites => exact absurd hwrites (hnone _)
  | requireFails => rfl

/-- What a checker has become after some steps. -/
structure After (c : Checker) (steps : List Step) (now : Checker) : Prop where
  verifier : now.verifier = c.verifier
  requirement : LastSet Step.Requires c.requirement steps now.requirement
  ignored : LastSet Step.Ignores c.ignored steps now.ignored

theorem After.snoc (h : After c front now) (htakes : Takes launcher now step answer next) :
    After c (front ++ [step]) next := by
  cases htakes with
  | require hwrites =>
      exact ⟨h.verifier, .of_sets ⟨_, rfl, hwrites⟩, h.ignored.snoc fun _ => nofun⟩
  | requireFails hcause =>
      refine ⟨h.verifier, h.requirement.snoc ?_, h.ignored.snoc fun _ => nofun⟩
      rintro requirement ⟨_, ⟨⟩, hwrites⟩
      cases hcause.symm.trans (Requirement.read_eq_ok_iff.2 hwrites)
  | ignore ignored =>
      exact ⟨h.verifier, h.requirement.snoc fun _ => nofun, .of_sets rfl⟩
  | @ignoreFails kinds code rest hunknown =>
      refine ⟨h.verifier, h.requirement.snoc fun _ => nofun, h.ignored.snoc ?_⟩
      intro ignored hset
      have hcodes := Step.ignore.inj hset
      have hmem : code ∈ ignored.map Kind.keyword := by
        rw [← hcodes]
        exact List.mem_append_right _ List.mem_cons_self
      obtain ⟨kind, -, hkind⟩ := List.mem_map.1 hmem
      exact hunknown kind hkind
  | verify =>
      exact ⟨h.verifier, h.requirement.snoc fun _ => nofun, h.ignored.snoc fun _ => nofun⟩

/-! ## Runs -/

theorem run_cons (c : Checker) (launcher : Launcher) (step : Step) (steps : List Step) :
    c.run launcher (step :: steps) =
      ((c.step launcher step).1 :: ((c.step launcher step).2.run launcher steps).1,
        ((c.step launcher step).2.run launcher steps).2) := rfl

theorem run_append (c : Checker) (launcher : Launcher) (front behind : List Step) :
    c.run launcher (front ++ behind) =
      ((c.run launcher front).1 ++ ((c.run launcher front).2.run launcher behind).1,
        ((c.run launcher front).2.run launcher behind).2) := by
  induction front generalizing c with
  | nil => rfl
  | cons step front ih => rw [List.cons_append, run_cons, ih, run_cons, List.cons_append]

theorem length_run (c : Checker) (launcher : Launcher) (steps : List Step) :
    (c.run launcher steps).1.length = steps.length := by
  induction steps generalizing c with
  | nil => rfl
  | cons step steps ih => rw [run_cons, List.length_cons, List.length_cons, ih]

theorem run_snoc (c : Checker) (launcher : Launcher) (front : List Step) (step : Step) :
    (c.run launcher (front ++ [step])).2 = ((c.run launcher front).2.step launcher step).2 := by
  rw [run_append]
  rfl

/-- The answer to a step is given by what the checker has become in front of it. -/
theorem getElem?_run (c : Checker) (launcher : Launcher) (front : List Step) (step : Step)
    (behind : List Step) :
    (c.run launcher (front ++ step :: behind)).1[front.length]? =
      some ((c.run launcher front).2.step launcher step).1 := by
  rw [run_append, ← length_run c launcher front, List.getElem?_append_right (Nat.le_refl _),
    Nat.sub_self]
  rfl

theorem after_run (c : Checker) (launcher : Launcher) (steps : List Step) :
    After c steps (c.run launcher steps).2 := by
  -- A run goes on from the first step, but it is the last one that decides.
  induction steps using List.reverseRecOn with
  | nil => exact ⟨rfl, .initial fun _ => nofun, .initial fun _ => nofun⟩
  | append_singleton front step ih =>
      rw [run_snoc]
      exact ih.snoc (takes_step _ launcher step)

/-- Verifying leaves no trace. -/
theorem run_filter_isPolicy (c : Checker) (launcher : Launcher) (steps : List Step) :
    (c.run launcher (steps.filter Step.isPolicy)).2 = (c.run launcher steps).2 := by
  induction steps generalizing c with
  | nil => rfl
  | cons step steps ih =>
      cases step with
      | require text => exact ih _
      | ignore codes => exact ih _
      | verify submission => exact ih c

/-- **A checker remembers its policy and nothing else.** After any steps it runs GnuPG as at first;
    it requires what the last text said that writes a requirement, and ignores what the last codes
    said that are all known. A text that writes no requirement leaves it as it is. A verification is
    the check of the submission by what the checker has become, so verifications before it, however
    they ended, make no difference to it. -/
theorem run_remembers_policy (c : Checker) (launcher : Launcher) (front : List Step) :
    ∃ now, (c.run launcher front).2 = now ∧
      After c front now ∧
      (∀ text, (∀ requirement, ¬Writes text.toList requirement) →
        (c.run launcher (front ++ [.require text])).2 = now) ∧
      (∀ submission behind,
        (c.run launcher (front ++ .verify submission :: behind)).1[front.length]? =
          some (.verified
            (Signature.survey
              (Signature.check launcher now.verifier submission.manifest now.ignored)
              now.requirement.required submission.collection submission.signatures)
            (checkAll (Signature.check launcher now.verifier submission.manifest now.ignored)
              now.requirement submission.collection submission.signatures))) ∧
      ∀ front', front'.filter Step.isPolicy = front.filter Step.isPolicy →
        (c.run launcher front').2 = now ∧ ∀ submission behind behind',
          (c.run launcher (front' ++ .verify submission :: behind')).1[front'.length]? =
            (c.run launcher (front ++ .verify submission :: behind)).1[front.length]? := by
  refine ⟨_, rfl, after_run c launcher front, ?_, ?_, ?_⟩
  · intro text hnone
    rw [run_snoc]
    exact (takes_step _ launcher _).eq_of_not_writes hnone
  · intro submission behind
    rw [getElem?_run]
    rfl
  · intro front' hpolicy
    have hsame : (c.run launcher front').2 = (c.run launcher front).2 := by
      rw [← run_filter_isPolicy c launcher front', hpolicy, run_filter_isPolicy]
    refine ⟨hsame, fun submission behind behind' => ?_⟩
    rw [getElem?_run, getElem?_run, hsame]

/-- A requirement that cannot be read leaves the one before it in force; and a verification that was
    broken off by a malformed status does not show in the next one. -/
theorem run_remembers_policy_malformed :
    ((ofVerifier { keyring := "ring" }).run .echo [.require "2", .require "none"]).2 =
      ((ofVerifier { keyring := "ring" }).run .echo [.require "2"]).2 ∧
    ((ofVerifier { keyring := "ring" }).run .echo
        [.verify ⟨"a.b", "m", ["_ BADSIG"]⟩, .verify ⟨"a.b", "m", [""]⟩]).1[1]? =
      ((ofVerifier { keyring := "ring" }).run .echo [.verify ⟨"a.b", "m", [""]⟩]).1[0]? := by
  constructor
  · obtain ⟨now, hnow, -, hkept, -⟩ :=
      run_remembers_policy (ofVerifier { keyring := "ring" }) .echo [.require "2"]
    rw [hnow]
    refine hkept "none" fun requirement hwrites => ?_
    have hread : Requirement.read "none".toList = .error .malformed := by decide
    cases hread.symm.trans (Requirement.read_eq_ok_iff.2 hwrites)
  · obtain ⟨now, -, -, -, -, htrace⟩ :=
      run_remembers_policy (ofVerifier { keyring := "ring" }) .echo []
    exact (htrace [.verify ⟨"a.b", "m", ["_ BADSIG"]⟩] rfl).2 ⟨"a.b", "m", [""]⟩ [] []

end SigVerdict.Checker
