import Mathlib.Tactic.ByContra
import SigVerdict.Proofs.Signature.Survey

set_option autoImplicit false

/-! # The verdict about several signatures

A requirement speaks of a whole list of signatures (`Requirement.HoldsOver`), while the survey that
is judged by it may have stopped early and compares its count with the required one by equality.
Both come to the same: the survey reaches as many good signatures as are required or all that there
are (`Required.countP_reached`), so what its tally lacks, the whole list lacks
(`shortfall?_reached`). So whether a check gives a report depends on the signatures that are reached
alone (`checkAll_eq_ok_iff`), and what the report says, on the whole list (`verified_iff_holdsOver`,
`summary_of_checkAll`). -/

namespace SigVerdict.Signature

variable {σ : Type} (judge : σ → Except Fault Unit)

/-! ## Requirements of whole lists -/

/-- Which signatures of a whole list must verify on their own: all of them, but for rejections that
    are ignored, or a number of them, unless there are none. -/
def Required.HoldsOver (signatures : List σ) : Required → Prop
  | .all => ∀ s ∈ signatures, ∀ r, judge s = .error (.rejected r) → r.ignored = true
  | .count n => signatures = [] ∨ n.value ≤ signatures.countP (verifies judge)

/-- What a requirement says of a whole list of signatures. -/
structure Requirement.HoldsOver (requirement : Requirement) (signatures : List σ) : Prop where
  strict : requirement.strict = true → ∃ s ∈ signatures, judge s = .ok ()
  required : requirement.required.HoldsOver judge signatures

/-- The reason that is given for a requirement that does not hold, when so many signatures verify
    on their own. -/
def Requirement.complaint (requirement : Requirement) (successes : Nat) : String :=
  if requirement.strict = true ∧ successes = 0 then "no successful signatures"
  else
    match requirement.required with
    | .all => "some signatures failed"
    | .count _ => "fewer successful signatures than required"

variable {judge}

theorem countP_verifies_eq_zero_iff {signatures : List σ} :
    signatures.countP (verifies judge) = 0 ↔ ¬∃ s ∈ signatures, judge s = .ok () := by
  rw [List.countP_eq_zero]
  constructor
  · rintro h ⟨s, hs, hok⟩
    exact h s hs (verifies_iff.2 hok)
  · intro h s hs hgood
    exact h ⟨s, hs, verifies_iff.1 hgood⟩

/-- Whether a count is reached can be told from the number of good signatures. -/
theorem Requirement.holdsOver_count_iff {requirement : Requirement} {n : Count}
    (hn : requirement.required = .count n) {signatures : List σ} :
    requirement.HoldsOver judge signatures ↔
      (requirement.strict = true → signatures.countP (verifies judge) ≠ 0) ∧
      (signatures = [] ∨ n.value ≤ signatures.countP (verifies judge)) := by
  rw [Ne, countP_verifies_eq_zero_iff, Classical.not_not]
  constructor
  · intro h
    have hrequired := h.required
    rw [hn] at hrequired
    exact ⟨h.strict, hrequired⟩
  · rintro ⟨hstrict, hrequired⟩
    refine ⟨hstrict, ?_⟩
    rw [hn]
    exact hrequired

/-- When there are signatures, a count of them is at least one, so a strict one asks for no more. -/
theorem Requirement.holdsOver_count_iff_of_ne_nil {requirement : Requirement} {n : Count}
    (hn : requirement.required = .count n) {signatures : List σ} (hne : signatures ≠ []) :
    requirement.HoldsOver judge signatures ↔ n.value ≤ signatures.countP (verifies judge) := by
  rw [holdsOver_count_iff hn, or_iff_right hne, and_iff_right_iff_imp]
  have hpos := n.pos
  omega

/-- How many of so many good signatures are counted: no more than a count asks for. -/
def Required.counted (successes : Nat) : Required → Nat
  | .all => successes
  | .count n => min n.value successes

/-- The signatures that are reached have the good ones of the whole list, up to the count. -/
theorem Required.countP_reached (required : Required) (good : σ → Bool) (signatures : List σ) :
    (required.reached good 0 signatures).countP good =
      required.counted (signatures.countP good) := by
  cases required with
  | all => rfl
  | count n => rw [reached, Nat.sub_zero, countP_upTo, counted]

/-- Stopping early does not lose the last good signature. -/
theorem Required.countP_reached_eq_zero_iff {required : Required} {good : σ → Bool}
    {signatures : List σ} :
    (required.reached good 0 signatures).countP good = 0 ↔ signatures.countP good = 0 := by
  rw [countP_reached]
  cases required with
  | all => exact Iff.rfl
  | count n =>
      have hn := n.pos
      rw [counted]
      omega

/-! ## From the tally to the whole list -/

/-- Whether a tally of so many signatures has what is required, strict or not. -/
def Required.isFulfilledBy (total : Nat) (t : Tally) : Required → Bool
  | .all => t.failures.isEmpty
  | .count n => total == 0 || t.successful == n.value

/-- What a tally lacks that does not have what is required. -/
def Required.shortfall : Required → Shortfall
  | .all => .someFailed
  | .count _ => .tooFew

theorem shortfall?_eq (requirement : Requirement) (total : Nat) (t : Tally) :
    shortfall? requirement total t =
      if requirement.strict = true ∧ t.successful = 0 then some .noneSuccessful
      else if requirement.required.isFulfilledBy total t = true then none
      else some requirement.required.shortfall := by
  obtain ⟨strict, required⟩ := requirement
  simp only [shortfall?, Bool.and_eq_true, beq_iff_eq]
  cases required <;> rfl

variable (judge)

/-- A tally of the signatures that are reached has what is required just when the whole list
    does. -/
theorem Required.isFulfilledBy_reached (required : Required) (collection : String)
    (signatures : List σ) :
    required.isFulfilledBy signatures.length
        (.of judge collection (required.reached (verifies judge) 0 signatures)) = true ↔
      required.HoldsOver judge signatures := by
  cases required with
  | all =>
      rw [isFulfilledBy, List.isEmpty_iff]
      simp only [Tally.of, reached, List.filterMap_eq_nil_iff]
      exact forall₂_congr fun s _ => failure?_eq_none_iff
  | count n =>
      rw [isFulfilledBy, Bool.or_eq_true, beq_iff_eq, beq_iff_eq, List.length_eq_zero_iff]
      simp only [Tally.of, reached, countP_upTo, HoldsOver]
      exact or_congr_right (by omega)

/-- What a tally of the signatures that are reached lacks is what the whole list lacks. -/
theorem shortfall?_reached (requirement : Requirement) (collection : String)
    (signatures : List σ) :
    (shortfall? requirement signatures.length (.of judge collection
        (requirement.required.reached (verifies judge) 0 signatures)) = none ↔
      requirement.HoldsOver judge signatures) ∧
    ∀ reason, shortfall? requirement signatures.length (.of judge collection
        (requirement.required.reached (verifies judge) 0 signatures)) = some reason →
      reason.message = requirement.complaint (signatures.countP (verifies judge)) := by
  have hzero : requirement.strict = true ∧ (Tally.of judge collection
      (requirement.required.reached (verifies judge) 0 signatures)).successful = 0 ↔
        requirement.strict = true ∧ signatures.countP (verifies judge) = 0 :=
    and_congr_right fun _ => Required.countP_reached_eq_zero_iff
  rw [shortfall?_eq, Requirement.complaint]
  -- the complaint about a strict requirement comes before all others
  by_cases hstrict : requirement.strict = true ∧ signatures.countP (verifies judge) = 0
  · rw [if_pos (hzero.2 hstrict), if_pos hstrict]
    refine ⟨⟨nofun, fun h => ?_⟩, ?_⟩
    · exact absurd (h.strict hstrict.1) (countP_verifies_eq_zero_iff.1 hstrict.2)
    · rintro reason ⟨⟩
      rfl
  · rw [if_neg (mt hzero.1 hstrict), if_neg hstrict]
    have hsome : requirement.strict = true → ∃ s ∈ signatures, judge s = .ok () := by
      intro h
      by_contra hno
      exact hstrict ⟨h, countP_verifies_eq_zero_iff.2 hno⟩
    have hiff := requirement.required.isFulfilledBy_reached judge collection signatures
    by_cases hrequired : requirement.required.HoldsOver judge signatures
    · rw [if_pos (hiff.2 hrequired)]
      exact ⟨⟨fun _ => ⟨hsome, hrequired⟩, fun _ => rfl⟩, nofun⟩
    · rw [if_neg (mt hiff.1 hrequired)]
      refine ⟨⟨nofun, fun h => absurd h.required hrequired⟩, ?_⟩
      rintro reason ⟨⟩
      cases requirement.required <;> rfl

/-! ## The report -/

variable {judge} {requirement : Requirement} {collection : String} {signatures : List σ}
  {report : Report}

variable (judge requirement collection signatures) in
/-- A check is decided by the signatures that it reaches, apart from the number of all of them. -/
theorem checkAll_eq :
    checkAll judge requirement collection signatures =
      match (requirement.required.reached (verifies judge) 0 signatures).findSome?
          (fault? judge) with
      | some fault => .error fault
      | none => .ok (.ofTally collection requirement signatures.length
          (.of judge collection (requirement.required.reached (verifies judge) 0 signatures))) := by
  have hfault := survey_fault judge requirement.required collection signatures
  rw [checkAll, Survey.report, hfault]
  cases hfound : (requirement.required.reached (verifies judge) 0 signatures).findSome?
      (fault? judge) with
  | some fault => rfl
  | none => rw [survey_tally requirement.required collection signatures (hfault.trans hfound)]

/-- A check gives a report just when no signature that it reaches is at fault, and then reports
    what these signatures amount to. -/
theorem checkAll_eq_ok_iff :
    checkAll judge requirement collection signatures = .ok report ↔
      (∀ s ∈ requirement.required.reached (verifies judge) 0 signatures,
        fault? judge s = none) ∧
      report = .ofTally collection requirement signatures.length
        (.of judge collection (requirement.required.reached (verifies judge) 0 signatures)) := by
  rw [← List.findSome?_eq_none_iff, checkAll_eq]
  cases (requirement.required.reached (verifies judge) 0 signatures).findSome? (fault? judge) with
  | some fault => exact ⟨nofun, nofun⟩
  | none =>
      rw [Except.ok.injEq]
      exact ⟨fun h => ⟨rfl, h.symm⟩, fun h => h.2.symm⟩

/-- A check fails with the fault of the first signature at fault among those that it reaches. -/
theorem checkAll_eq_error_iff {fault : Fault} :
    checkAll judge requirement collection signatures = .error fault ↔
      (requirement.required.reached (verifies judge) 0 signatures).findSome? (fault? judge) =
        some fault := by
  rw [checkAll_eq]
  cases (requirement.required.reached (verifies judge) 0 signatures).findSome? (fault? judge) with
  | some other => rw [Except.error.injEq, Option.some.injEq]
  | none => exact ⟨nofun, nofun⟩

/-- **Counting over the whole list.** The report of a check verifies just when the requirement
    holds over the whole list, however early the check stopped. -/
theorem verified_iff_holdsOver (h : checkAll judge requirement collection signatures = .ok report) :
    report.verified = true ↔ requirement.HoldsOver judge signatures := by
  rw [(checkAll_eq_ok_iff.1 h).2, Report.verified, Option.isNone_iff_eq_none]
  exact (shortfall?_reached judge requirement collection signatures).1

theorem successful_of_checkAll (h : checkAll judge requirement collection signatures = .ok report) :
    report.successful = requirement.required.counted (signatures.countP (verifies judge)) := by
  rw [(checkAll_eq_ok_iff.1 h).2]
  exact requirement.required.countP_reached (verifies judge) signatures

theorem total_of_checkAll (h : checkAll judge requirement collection signatures = .ok report) :
    report.total = signatures.length := by
  rw [(checkAll_eq_ok_iff.1 h).2]
  rfl

theorem summary_of_checkAll (h : checkAll judge requirement collection signatures = .ok report) :
    report.summary =
      if report.verified = true then none
      else some ("Signature verification failed for '" ++ collection ++ "': " ++
        requirement.complaint (signatures.countP (verifies judge))) := by
  obtain ⟨-, rfl⟩ := checkAll_eq_ok_iff.1 h
  have hreason := (shortfall?_reached judge requirement collection signatures).2
  rw [Report.summary, Report.verified]
  cases hshortfall : (Report.ofTally collection requirement signatures.length (.of judge collection
      (requirement.required.reached (verifies judge) 0 signatures))).shortfall with
  | none => rfl
  | some reason =>
      rw [← hreason reason hshortfall]
      rfl

/-- Two checks end alike: both fail with the same fault, or both give reports, which are related. -/
inductive EndAlike (R : Report → Report → Prop) :
    Except Fault Report → Except Fault Report → Prop where
  | failed (fault : Fault) : EndAlike R (.error fault) (.error fault)
  | reported {r s : Report} (related : R r s) : EndAlike R (.ok r) (.ok s)

/-- Checks that reach the same signatures and find the same of them at fault end alike. -/
theorem endAlike_of_reached {judge' : σ → Except Fault Unit} {requirement' : Requirement}
    {R : Report → Report → Prop}
    (hreached : requirement'.required.reached (verifies judge') 0 signatures =
      requirement.required.reached (verifies judge) 0 signatures)
    (hfault : fault? judge' = fault? judge)
    (hR : ∀ r s, checkAll judge requirement collection signatures = .ok r →
      checkAll judge' requirement' collection signatures = .ok s → R r s) :
    EndAlike R (checkAll judge requirement collection signatures)
      (checkAll judge' requirement' collection signatures) := by
  cases hr : checkAll judge requirement collection signatures with
  | error fault =>
      have hs : checkAll judge' requirement' collection signatures = .error fault := by
        rw [checkAll_eq_error_iff, hreached, hfault]
        exact checkAll_eq_error_iff.1 hr
      rw [hs]
      exact .failed fault
  | ok r =>
      have hnone := (checkAll_eq_ok_iff.1 hr).1
      rw [← hreached, ← hfault] at hnone
      have hs : checkAll judge' requirement' collection signatures = .ok _ :=
        checkAll_eq_ok_iff.2 ⟨hnone, rfl⟩
      rw [hs]
      exact .reported (hR r _ hr hs)

/-- **The verdict about a list of signatures.** When every signature of a list is either good or
    rejected, checking the list gives a report. It verifies just when the requirement holds over the
    whole list, and otherwise says why it does not. -/
theorem checkAll_verdict (launcher : Gpg.Launcher) (verifier : Gpg.Verifier) (manifest : String)
    (ignored : List Status.Kind) (requirement : Requirement) (collection : String)
    (signatures : List String)
    (hjudged : ∀ s ∈ signatures, ∀ fault,
      check launcher verifier manifest ignored s = .error fault → ∃ r, fault = .rejected r) :
    ∃ report,
      checkAll (check launcher verifier manifest ignored) requirement collection signatures =
        .ok report ∧
      (report.verified = true ↔
        requirement.HoldsOver (check launcher verifier manifest ignored) signatures) ∧
      report.summary =
        if report.verified = true then none
        else some ("Signature verification failed for '" ++ collection ++ "': " ++
          requirement.complaint
            (signatures.countP (verifies (check launcher verifier manifest ignored)))) := by
  have hfault : ∀ s ∈ requirement.required.reached
      (verifies (check launcher verifier manifest ignored)) 0 signatures,
      fault? (check launcher verifier manifest ignored) s = none := by
    intro s hs
    exact fault?_eq_none_iff.2 (hjudged s (Required.reached_subset hs))
  have hreport : checkAll (check launcher verifier manifest ignored) requirement collection
      signatures = .ok _ := checkAll_eq_ok_iff.2 ⟨hfault, rfl⟩
  exact ⟨_, hreport, verified_iff_holdsOver hreport, summary_of_checkAll hreport⟩

/-- Two good signatures are required, but of three only the middle one is good. -/
theorem checkAll_verdict_oneOfThree :
    ∃ report,
      checkAll (check ⟨3, fun c => .ended 0 [] (some c.input.length)⟩ { keyring := "ring" } "m" [])
        ⟨true, .count ⟨2, by decide, by decide⟩⟩ "a.b" ["bad", "", "bad"] = .ok report ∧
      report.verified = false ∧
      report.summary = some ("Signature verification failed for 'a.b': " ++
        "fewer successful signatures than required") := by
  have hbad : check ⟨3, fun c => .ended 0 [] (some c.input.length)⟩ { keyring := "ring" } "m" []
      "bad" = .error (.rejected ⟨[], "", 3, false⟩) := rfl
  have hgood : check ⟨3, fun c => .ended 0 [] (some c.input.length)⟩ { keyring := "ring" } "m" []
      "" = .ok () := rfl
  obtain ⟨report, hreport, hverified, hsummary⟩ := checkAll_verdict
    ⟨3, fun c => .ended 0 [] (some c.input.length)⟩ { keyring := "ring" } "m" []
    ⟨true, .count ⟨2, by decide, by decide⟩⟩ "a.b" ["bad", "", "bad"] (by
      intro s hs fault hfault
      simp only [List.mem_cons, List.not_mem_nil, or_false] at hs
      rcases hs with rfl | rfl | rfl
      · exact ⟨_, (Except.error.inj (hbad.symm.trans hfault)).symm⟩
      · exact nomatch hgood.symm.trans hfault
      · exact ⟨_, (Except.error.inj (hbad.symm.trans hfault)).symm⟩)
  have hfails : report.verified = false := by
    rw [← Bool.not_eq_true, hverified]
    intro h
    rcases h.required with h | h
    · cases h
    · exact absurd h (by simp [verifies, hbad, hgood, Except.isOk, Except.toBool])
  rw [hfails] at hsummary
  refine ⟨report, hreport, hfails, hsummary.trans ?_⟩
  rfl

end SigVerdict.Signature
