import Mathlib.Tactic.ByContra
import SigVerdict.Checker
import SigVerdict.Proofs.Except
import SigVerdict.Proofs.Signature.Classification
import SigVerdict.Proofs.Signature.Requirement
import SigVerdict.Proofs.Signature.Verdict

set_option autoImplicit false

/-! # What checkers accept

Settings that can be followed have exactly one checker (`Checker.ofSettings_eq_ok_iff`). Whether a
checker verifies some signatures is told from what the command wrote over each of them and how it
ended, without its loop (`Checker.verified_iff_accepts`). -/

namespace SigVerdict

open Gpg Signature Status Text
open Text.Utf8 (decodeLossy)

/-! ## Checkers of settings -/

theorem Settings.readKinds_eq_ok_iff {codes : List String} {kinds : List Kind} :
    readKinds codes = .ok kinds ↔ codes = kinds.map Kind.keyword := by
  induction codes generalizing kinds with
  | nil =>
      rw [readKinds, Except.ok.injEq, eq_comm, eq_comm (a := []), List.map_eq_nil_iff]
  | cons code codes ih =>
      rw [readKinds]
      cases hcode : Kind.ofKeyword? code with
      | none =>
          refine ⟨nofun, fun h => ?_⟩
          obtain ⟨kind, rest, rfl, rfl, -⟩ := List.map_eq_cons_iff.1 h.symm
          rw [Kind.ofKeyword?_keyword] at hcode
          cases hcode
      | some kind =>
          rw [map_eq_ok_iff]
          constructor
          · rintro ⟨rest, hrest, rfl⟩
            rw [List.map_cons, ← ih.1 hrest, Kind.ofKeyword?_eq_some_iff.1 hcode]
          · intro h
            obtain ⟨kind', rest, rfl, rfl, hrest⟩ := List.map_eq_cons_iff.1 h.symm
            rw [Kind.ofKeyword?_keyword] at hcode
            cases hcode
            exact ⟨rest, ih.2 hrest.symm, rfl⟩

/-- Codes are refused for the first one that is not the keyword of a kind. -/
theorem Settings.readKinds_eq_error_iff {codes : List String} {fault : Fault} :
    readKinds codes = .error fault ↔ ∃ (kinds : List Kind) (code : String) (rest : List String),
      codes = kinds.map Kind.keyword ++ code :: rest ∧ (∀ kind : Kind, kind.keyword ≠ code) ∧
        fault = .unknownStatusCode code := by
  induction codes with
  | nil => simp [readKinds]
  | cons code codes ih =>
      rw [readKinds]
      cases hcode : Kind.ofKeyword? code with
      | none =>
          have hnone : ∀ kind : Kind, kind.keyword ≠ code := by
            rintro kind rfl
            rw [Kind.ofKeyword?_keyword] at hcode
            cases hcode
          constructor
          · intro h
            cases h
            exact ⟨[], code, codes, rfl, hnone, rfl⟩
          · rintro ⟨kinds, first, rest, heq, -, rfl⟩
            cases kinds with
            | nil =>
                cases heq
                rfl
            | cons kind kinds => exact absurd (List.cons.inj heq).1.symm (hnone kind)
      | some kind =>
          rw [Kind.ofKeyword?_eq_some_iff] at hcode
          subst hcode
          rw [map_eq_error_iff, ih]
          constructor
          · rintro ⟨kinds, first, rest, rfl, hfirst, rfl⟩
            exact ⟨kind :: kinds, first, rest, rfl, hfirst, rfl⟩
          · rintro ⟨kinds, first, rest, heq, hfirst, rfl⟩
            cases kinds with
            | nil => exact absurd (List.cons.inj heq).1 (hfirst kind)
            | cons other kinds => exact ⟨kinds, first, rest, (List.cons.inj heq).2, hfirst, rfl⟩

namespace Checker

/-- A checker runs GnuPG and judges as the settings say. -/
structure Follows (c : Checker) (s : Settings) : Prop where
  executable : c.verifier.executable = s.executable
  keyring : s.keyring = some c.verifier.keyring
  timeout : c.verifier.timeout = s.timeout
  requirement : Requirement.read s.requiredCount.toList = .ok c.requirement
  ignored : s.ignoredCodes = c.ignored.map Kind.keyword

theorem verifierOf_eq_ok_iff {s : Settings} {verifier : Verifier} :
    verifierOf s = .ok verifier ↔
      s.keyring = some verifier.keyring ∧ verifier.executable = s.executable ∧
        verifier.timeout = s.timeout := by
  obtain ⟨executable, keyring, timeout⟩ := verifier
  cases hkeyring : s.keyring with
  | none => simp [verifierOf, hkeyring]
  | some found =>
      simp only [verifierOf, hkeyring, Except.ok.injEq, Verifier.mk.injEq, Option.some.injEq]
      constructor
      · rintro ⟨rfl, rfl, rfl⟩
        exact ⟨rfl, rfl, rfl⟩
      · rintro ⟨rfl, rfl, rfl⟩
        exact ⟨rfl, rfl, rfl⟩

theorem ofSettings_eq_ok_iff {s : Settings} {c : Checker} :
    ofSettings s = .ok c ↔ c.Follows s := by
  constructor
  · intro h
    obtain ⟨verifier, hverifier, h⟩ := bind_eq_ok_iff.1 h
    obtain ⟨requirement, hrequirement, h⟩ := bind_eq_ok_iff.1 h
    obtain ⟨ignored, hignored, h⟩ := bind_eq_ok_iff.1 h
    cases h
    obtain ⟨hkeyring, hexecutable, htimeout⟩ := verifierOf_eq_ok_iff.1 hverifier
    exact ⟨hexecutable, hkeyring, htimeout, Settings.readRequirement_eq_ok_iff.1 hrequirement,
      Settings.readKinds_eq_ok_iff.1 hignored⟩
  · intro h
    have hverifier : verifierOf s = .ok c.verifier :=
      verifierOf_eq_ok_iff.2 ⟨h.keyring, h.executable, h.timeout⟩
    have hrequirement : s.requirement = .ok c.requirement :=
      Settings.readRequirement_eq_ok_iff.2 h.requirement
    have hignored : s.ignoredKinds = .ok c.ignored := Settings.readKinds_eq_ok_iff.2 h.ignored
    rw [ofSettings, hverifier, hrequirement, hignored]
    rfl

/-! ## What a run says about a signature -/

section Signature

variable (c : Checker) (launcher : Launcher) (manifest signature : String)

/-- The run over a signature ends with exit code zero and says nothing. -/
def Good : Prop :=
  ∃ status, c.verifier.Ends launcher manifest signature status (some 0) ∧
    Silent (decodeLossy status)

/-- The run over a signature ends, and no line of its status is malformed. -/
def Concludes : Prop :=
  ∃ status exit, c.verifier.Ends launcher manifest signature status exit ∧
    WellFormed (decodeLossy status)

/-- The run over a signature reports something that is not to be ignored, or fails without reporting
    anything. -/
def Refused : Prop :=
  ∃ status exit, c.verifier.Ends launcher manifest signature status exit ∧
    WellFormed (decodeLossy status) ∧
    ((∃ outcome ∈ outcomes (decodeLossy status), outcome.kind ∉ c.ignored) ∨
      (outcomes (decodeLossy status) = [] ∧ exit ≠ some 0))

variable {c launcher manifest signature}

theorem check_eq_ok_iff :
    c.check launcher manifest signature = .ok () ↔ c.Good launcher manifest signature := by
  constructor
  · intro hok
    rcases ends_or_check_fault launcher c.verifier manifest signature c.ignored with
      ⟨status, exit, hends⟩ | ⟨fault, hfault, -⟩
    · cases (check_eq_iff_classified hends).1 hok with
      | verified wellFormed quiet success =>
          exact ⟨status, success ▸ hends, silent_iff.2 ⟨wellFormed, quiet⟩⟩
    · cases hfault.symm.trans hok
  · rintro ⟨status, hends, hsilent⟩
    obtain ⟨hwell, hnone⟩ := silent_iff.1 hsilent
    exact (check_eq_iff_classified hends).2 (.verified hwell hnone rfl)

theorem fault?_check_eq_none_iff :
    fault? (c.check launcher manifest) signature = none ↔
      c.Concludes launcher manifest signature := by
  rw [fault?_eq_none_iff]
  constructor
  · intro hjudged
    rcases ends_or_check_fault launcher c.verifier manifest signature c.ignored with
      ⟨status, exit, hends⟩ | ⟨fault, hfault, hne⟩
    · refine ⟨status, exit, hends, ?_⟩
      by_contra hbad
      obtain ⟨fault, hfirst⟩ := exists_firstMalformedFrom hbad 1
      obtain ⟨r, hr⟩ := hjudged _ ((check_eq_iff_classified hends).2 (.malformed hfirst))
      cases hr
    · obtain ⟨r, hr⟩ := hjudged fault hfault
      exact absurd hr (hne r)
  · rintro ⟨status, exit, hends, hwell⟩ fault hfault
    cases (check_eq_iff_classified hends).1 hfault with
    | malformed first => exact absurd hwell first.not_wellFormed
    | reported => exact ⟨_, rfl⟩
    | failed => exact ⟨_, rfl⟩

theorem exists_rejection_iff_refused :
    (∃ r, c.check launcher manifest signature = .error (.rejected r) ∧ r.ignored = false) ↔
      c.Refused launcher manifest signature := by
  constructor
  · rintro ⟨r, hr, hignored⟩
    rcases ends_or_check_fault launcher c.verifier manifest signature c.ignored with
      ⟨status, exit, hends⟩ | ⟨fault, hfault, hne⟩
    · refine ⟨status, exit, hends, ?_⟩
      cases (check_eq_iff_classified hends).1 hr with
      | reported wellFormed _ tells =>
          rw [← Bool.not_eq_true, tells.ignored_iff] at hignored
          refine ⟨wellFormed, Or.inl ?_⟩
          simpa using hignored
      | failed wellFormed quiet failure => exact ⟨wellFormed, Or.inr ⟨quiet, failure⟩⟩
    · exact absurd (Except.error.inj (hfault.symm.trans hr)) (hne r)
  · rintro ⟨status, exit, hends, hwell, ⟨outcome, hmem, hkind⟩ | ⟨hnone, hexit⟩⟩
    · have htells := tells_rejectionOf c.ignored status exit
      refine ⟨_, (check_eq_iff_classified hends).2
        (.reported hwell (List.ne_nil_of_mem hmem) htells), ?_⟩
      rw [← Bool.not_eq_true, htells.ignored_iff]
      exact fun h => hkind (h outcome hmem)
    · exact ⟨_, (check_eq_iff_classified hends).2 (.failed hwell hnone hexit), rfl⟩

theorem Good.concludes (h : c.Good launcher manifest signature) :
    c.Concludes launcher manifest signature := by
  obtain ⟨status, hends, hsilent⟩ := h
  exact ⟨status, some 0, hends, (silent_iff.1 hsilent).1⟩

theorem Good.not_refused (h : c.Good launcher manifest signature) :
    ¬c.Refused launcher manifest signature := by
  rw [← exists_rejection_iff_refused]
  rintro ⟨r, hr, -⟩
  cases (check_eq_ok_iff.2 h).symm.trans hr

end Signature

/-! ## What runs say about several signatures -/

/-- At least `n` members of a list have a property, each counted as often as it stands there. -/
def AtLeast {α : Type} (n : Nat) (P : α → Prop) (xs : List α) : Prop :=
  ∃ found : List α, found.Sublist xs ∧ found.length = n ∧ ∀ x ∈ found, P x

theorem atLeast_iff_le_countP {α : Type} {n : Nat} {P : α → Prop} {p : α → Bool}
    (hp : ∀ x, p x = true ↔ P x) {xs : List α} : AtLeast n P xs ↔ n ≤ xs.countP p := by
  constructor
  · rintro ⟨found, hfound, rfl, hall⟩
    rw [← List.countP_eq_length.2 fun x hx => (hp x).2 (hall x hx)]
    exact hfound.countP_le
  · intro h
    refine ⟨(xs.filter p).take n, (List.take_sublist _ _).trans List.filter_sublist, ?_, ?_⟩
    · rw [List.length_take, ← List.countP_eq_length_filter, Nat.min_eq_left h]
    · intro x hx
      exact (hp x).1 (List.mem_filter.1 (List.mem_of_mem_take hx)).2

/-- The runs over some signatures give what a checker requires. -/
structure Accepts (c : Checker) (launcher : Launcher) (manifest : String)
    (signatures : List String) : Prop where
  /-- The run over each signature in front of which a required number is not complete yet ends, and
      its status can be read. -/
  concludes : ∀ front signature behind, signatures = front ++ signature :: behind →
    (∀ n, c.requirement.required = .count n →
      ¬AtLeast n.value (c.Good launcher manifest) front) →
    c.Concludes launcher manifest signature
  count : ∀ n, c.requirement.required = .count n →
    AtLeast n.value (c.Good launcher manifest) signatures
  all : c.requirement.required = .all →
    ∀ signature ∈ signatures, ¬c.Refused launcher manifest signature
  strict : c.requirement.required = .all → c.requirement.strict = true →
    ∃ signature ∈ signatures, c.Good launcher manifest signature

section Signatures

variable {c : Checker} {launcher : Launcher} {manifest : String} {signatures : List String}

theorem verifies_check_iff {signature : String} :
    verifies (c.check launcher manifest) signature = true ↔
      c.Good launcher manifest signature :=
  verifies_iff.trans check_eq_ok_iff

/-- A requirement holds over signatures that are there just when the runs over them say so. -/
theorem holdsOver_iff (hne : signatures ≠ []) :
    c.requirement.HoldsOver (c.check launcher manifest) signatures ↔
      (∀ n, c.requirement.required = .count n →
        AtLeast n.value (c.Good launcher manifest) signatures) ∧
      (c.requirement.required = .all →
        ∀ signature ∈ signatures, ¬c.Refused launcher manifest signature) ∧
      (c.requirement.required = .all → c.requirement.strict = true →
        ∃ signature ∈ signatures, c.Good launcher manifest signature) := by
  simp only [atLeast_iff_le_countP fun _ => verifies_check_iff, ← exists_rejection_iff_refused,
    ← check_eq_ok_iff]
  constructor
  · intro h
    have hrequired := h.required
    refine ⟨?_, ?_, fun _ => h.strict⟩
    · intro n hn
      rw [hn] at hrequired
      exact hrequired.resolve_left hne
    · rintro hall signature hmem ⟨r, hr, hignored⟩
      rw [hall] at hrequired
      rw [hrequired signature hmem r hr] at hignored
      cases hignored
  · rintro ⟨hcount, hall, hstrict⟩
    cases hrequired : c.requirement.required with
    | all =>
        refine ⟨hstrict hrequired, ?_⟩
        rw [hrequired]
        intro signature hmem r hr
        by_contra hignored
        exact hall hrequired signature hmem ⟨r, hr, by rwa [← Bool.not_eq_true]⟩
    | count n =>
        exact (Requirement.holdsOver_count_iff_of_ne_nil hrequired hne).2 (hcount n hrequired)

/-- A survey reaches a signature when no required number is complete in front of it. -/
theorem forall_reached_concludes_iff :
    (∀ s ∈ c.requirement.required.reached (verifies (c.check launcher manifest)) 0 signatures,
        fault? (c.check launcher manifest) s = none) ↔
      ∀ front signature behind, signatures = front ++ signature :: behind →
        (∀ n, c.requirement.required = .count n →
          ¬AtLeast n.value (c.Good launcher manifest) front) →
        c.Concludes launcher manifest signature := by
  rw [Required.forall_reached_iff]
  refine forall₃_congr fun front signature behind => imp_congr_right fun _ => ?_
  refine imp_congr ?_ fault?_check_eq_none_iff
  rw [Nat.zero_add]
  simp only [atLeast_iff_le_countP fun _ => verifies_check_iff, Nat.not_le]
  cases c.requirement.required with
  | all => exact ⟨fun _ => nofun, fun _ => trivial⟩
  | count n =>
      refine ⟨?_, fun h => h n rfl⟩
      rintro h _ ⟨⟩
      exact h

/-- A checker verifies signatures that are there just when the runs over them give what it
    requires. -/
theorem verified_iff_accepts {collection : String} (hne : signatures ≠ []) :
    (∃ report, c.verify launcher ⟨collection, manifest, signatures⟩ = .ok report ∧
      report.verified = true) ↔ c.Accepts launcher manifest signatures := by
  constructor
  · rintro ⟨report, hreport, hverified⟩
    have hconcludes := forall_reached_concludes_iff.1 (checkAll_eq_ok_iff.1 hreport).1
    obtain ⟨hcount, hall, hstrict⟩ :=
      (holdsOver_iff hne).1 ((verified_iff_holdsOver hreport).1 hverified)
    exact ⟨hconcludes, hcount, hall, hstrict⟩
  · intro h
    have hreport : c.verify launcher ⟨collection, manifest, signatures⟩ = .ok _ :=
      checkAll_eq_ok_iff.2 ⟨forall_reached_concludes_iff.2 h.concludes, rfl⟩
    exact ⟨_, hreport, (verified_iff_holdsOver hreport).2
      ((holdsOver_iff hne).2 ⟨h.count, h.all, h.strict⟩)⟩

end Signatures

end Checker

end SigVerdict
